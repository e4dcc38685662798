import OverloadTables.Proofs.Dispatch.Code
import OverloadTables.Proofs.Distinct
import OverloadTables.Proofs.Text.OneLine

/-!
# The lines of a dispatch run the statement of the subject

Strings that come once each are told apart by their length first, in a chain of clauses with one
tree a length.

* `caseOf? cases s`        the statement of a string;
* `lines_eq_ok`            strings that come once each are never refused;
* `readOnto_lines`         the lines are read as a chain of clauses, `codeOfLengths`;
* `run_codeOfLengths`      the chain runs the statement of the subject;
* `oneLine_line`           a line is one line if the names and its statement are.
-/

namespace OverloadTables.Dispatch

open Script

/-- The statement of a string. -/
def caseOf? (cases : List Case) (s : List Char) : Option String :=
  (cases.find? (·.text.toList = s)).map (·.body)

/-! ## strings that come once each -/

theorem firstRepeated?_eq_none {seen : List String} {cases : List Case}
    (h : (cases.map (·.text)).Nodup) (hseen : ∀ k ∈ cases, k.text ∉ seen) :
    firstRepeated? seen cases = none := by
  induction cases generalizing seen with
  | nil => rfl
  | cons k cases ih =>
    obtain ⟨hk, hcases⟩ := List.nodup_cons.mp h
    rw [firstRepeated?, if_neg (hseen k List.mem_cons_self)]
    refine ih hcases fun k' hk' hm => ?_
    rcases List.mem_cons.mp hm with e | hm
    · exact hk (List.mem_map.mpr ⟨k', hk', e⟩)
    · exact hseen k' (List.mem_cons_of_mem _ hk') hm

theorem lines_eq_ok {cases : List Case} (h : (cases.map (·.text)).Nodup) :
    lines cases = .ok (linesOfLengths cases true (lengths cases)) := by
  rw [lines, firstRepeated?_eq_none h (fun _ _ => List.not_mem_nil)]

/-! ## the candidates of a length -/

theorem distinct_ofLength {cases : List Case} (h : (cases.map (·.text)).Nodup) (n : Nat) :
    Distinct n (ofLength n cases) := by
  constructor
  · intro k hk
    obtain ⟨c, hc, rfl⟩ := List.mem_map.mp hk
    exact of_decide_eq_true (List.mem_filter.mp hc).2
  · have hmap : (ofLength n cases).map (·.rest)
        = (((cases.filter (·.length = n)).map (·.text)).map String.toList) := by
      rw [ofLength, List.map_map, List.map_map]
      rfl
    rw [hmap]
    refine List.Nodup.map (fun a b e => String.toList_inj.mp e) ?_
    exact h.sublist (List.filter_sublist.map _)

theorem ofLength_ne_nil {cases : List Case} {n : Nat} (h : n ∈ lengths cases) :
    ofLength n cases ≠ [] := by
  rw [lengths, mem_ascending, List.mem_map] at h
  obtain ⟨k, hk, rfl⟩ := h
  refine List.ne_nil_of_mem (List.mem_map.mpr ⟨k, ?_, rfl⟩)
  exact List.mem_filter.mpr ⟨hk, by simp⟩

/-- A string is told by the candidates of its length. -/
theorem bodyOf?_ofLength (cases : List Case) (s : List Char) :
    bodyOf? (ofLength s.length cases) s = caseOf? cases s := by
  rw [bodyOf?, caseOf?, ofLength]
  induction cases with
  | nil => rfl
  | cons k cases ih =>
    by_cases hs : k.text.toList = s
    · have hk : k.length = s.length := congrArg List.length hs
      simp [hk, hs]
    · by_cases hk : k.length = s.length
      · simpa [hk, hs] using ih
      · simpa [hk, hs] using ih

theorem caseOf?_eq_none {cases : List Case} {s : List Char} (h : s.length ∉ lengths cases) :
    caseOf? cases s = none := by
  rw [caseOf?, List.find?_eq_none.mpr]
  · rfl
  · intro k hk e
    rw [lengths, mem_ascending, List.mem_map] at h
    exact h ⟨k, hk, congrArg List.length (by simpa using e)⟩

/-! ## the chain of lengths -/

section
variable {σ : Type} (mean : String → σ) (cases : List Case)

/-- The program for the strings of a length. -/
def codeOfLength (n : Nat) : Code Condition σ := (Tree.build n (ofLength n cases)).code mean 0

/-- The program for the given lengths, with `next` after it. -/
def codeOfLengths (next : Code Condition σ) : List Nat → Code Condition σ
  | [] => next
  | n :: ns => .fork (.length n) (codeOfLength mean cases n) (codeOfLengths .pass ns) next

/-- The lengths as clauses that go on with a chain. -/
def chainOfLengths : List Nat → Option (Code Condition σ)
  | [] => none
  | ns => some (codeOfLengths mean cases .pass ns)

theorem chainOfLengths_getD (ns : List Nat) :
    (chainOfLengths mean cases ns).getD .pass = codeOfLengths mean cases .pass ns := by
  cases ns <;> rfl

variable {cases} (h : (cases.map (·.text)).Nodup) (indent : Nat)

section
include h

theorem reads_codeOfLength {n : Nat} (hn : ofLength n cases ≠ []) :
    Reads (indent + 1) (((Tree.build n (ofLength n cases)).lines 0 1).map (ofLine indent mean))
      (codeOfLength mean cases n) :=
  Tree.reads_lines mean indent 0 1 (Tree.fits_build (distinct_ofLength h n) hn)

theorem readOnto_chain {ns : List Nat} (hns : ∀ n ∈ ns, ofLength n cases ≠ [])
    {L L' : List (Level Condition σ)} {code : Code Condition σ}
    (hL : atDepth indent L = some (⟨indent, none, code⟩, L')) :
    ∃ M, readOnto ((linesOfLengths cases false ns).map (ofLine indent mean)) L = some M ∧
      atDepth indent M = some (⟨indent, chainOfLengths mean cases ns, code⟩, L') := by
  induction ns with
  | nil => exact ⟨L, rfl, hL⟩
  | cons n ns ih =>
    obtain ⟨M, hM, hat⟩ := ih fun m hm => hns m (List.mem_cons_of_mem _ hm)
    have hbody := reads_codeOfLength mean h indent (hns n List.mem_cons_self)
    have := readOnto_continues hbody (.length n) hM hat
    rw [chainOfLengths_getD] at this
    refine ⟨⟨indent, chainOfLengths mean cases (n :: ns), code⟩ :: L', ?_, atDepth_cons _ L'⟩
    rw [linesOfLengths, List.map_append, List.map_cons]
    exact this

/-- The statements of the lines are those of the cases. -/
theorem linesOfLengths_bodies (P : String → Prop) (opens : Bool) {ns : List Nat}
    (hP : ∀ k ∈ cases, P k.body) (hns : ∀ n ∈ ns, ofLength n cases ≠ []) :
    ∀ l ∈ linesOfLengths cases opens ns, ∀ body, l.content = .statement body → P body := by
  induction ns generalizing opens with
  | nil => exact fun l hl => nomatch hl
  | cons n ns ih =>
    intro l hl body e
    rw [linesOfLengths, List.cons_append, List.mem_cons, List.mem_append] at hl
    rcases hl with rfl | hl | hl
    · cases opens <;> exact nomatch e
    · refine Tree.lines_bodies (Tree.bodies_build (distinct_ofLength h n) (hns n List.mem_cons_self)
        fun k hk => ?_) l hl body e
      obtain ⟨c, hc, rfl⟩ := List.mem_map.mp hk
      exact hP c (List.mem_filter.mp hc).1
    · exact ih false (fun m hm => hns m (List.mem_cons_of_mem _ hm)) l hl body e

/-- **The lines of a dispatch are read as a chain of clauses**, before what follows at their depth. -/
theorem readOnto_lines (hne : cases ≠ []) {L L' : List (Level Condition σ)}
    {code : Code Condition σ} (hL : atDepth indent L = some (⟨indent, none, code⟩, L')) :
    readOnto ((linesOfLengths cases true (lengths cases)).map (ofLine indent mean)) L
      = some (⟨indent, none, codeOfLengths mean cases code (lengths cases)⟩ :: L') := by
  have hns : ∀ n ∈ lengths cases, ofLength n cases ≠ [] := fun n hn => ofLength_ne_nil hn
  obtain ⟨k, hk⟩ := List.exists_mem_of_ne_nil cases hne
  have hlengths : lengths cases ≠ [] :=
    List.ne_nil_of_mem (mem_ascending.mpr (List.mem_map.mpr ⟨k, hk, rfl⟩))
  obtain ⟨n, ns, e⟩ := List.exists_cons_of_ne_nil hlengths
  rw [e] at hns ⊢
  obtain ⟨M, hM, hat⟩ := readOnto_chain mean h indent
    (fun m hm => hns m (List.mem_cons_of_mem _ hm)) hL
  have hbody := reads_codeOfLength mean h indent (hns n List.mem_cons_self)
  have := readOnto_opens hbody (.length n) hM hat
  rw [chainOfLengths_getD] at this
  rw [linesOfLengths, List.map_append, List.map_cons]
  exact this

end

/-! ## running -/

section
variable {α : Type} (perform : σ → Step (Option α)) (s : List Char)
include h

theorem run_codeOfLength (hne : ofLength s.length cases ≠ []) :
    (codeOfLength mean cases s.length).run (holds s) perform
      = outcome mean perform (caseOf? cases s) := by
  have hd := distinct_ofLength h s.length
  rw [codeOfLength, Tree.run_code mean perform s (Tree.fits_build hd hne) List.drop_zero rfl,
    Tree.find?_build hd hne, bodyOf?_ofLength]

theorem run_codeOfLengths {ns : List Nat} (hns : ∀ n ∈ ns, ofLength n cases ≠ []) :
    (codeOfLengths mean cases .pass ns).run (holds s) perform (some s.length)
      = outcome mean perform (if s.length ∈ ns then caseOf? cases s else none)
          (some s.length) := by
  induction ns with
  | nil => rfl
  | cons n ns ih =>
    have htest : holds s (.length n) (some s.length) = .ok (decide (s.length = n), some s.length) :=
      rfl
    rw [codeOfLengths, run_fork_state htest]
    by_cases hn : s.length = n
    · rw [decide_eq_true hn, if_pos rfl, if_pos (hn ▸ List.mem_cons_self), ← hn,
        run_codeOfLength mean h perform s (hn ▸ hns n List.mem_cons_self)]
    · rw [decide_eq_false hn, if_neg Bool.false_ne_true,
        ih fun m hm => hns m (List.mem_cons_of_mem _ hm)]
      simp only [List.mem_cons, hn, false_or]

/-- **The chain runs the statement of the subject**, and what follows if it has none. -/
theorem run_lines (next : Code Condition σ) :
    (codeOfLengths mean cases next (lengths cases)).run (holds s) perform (some s.length)
      = (outcome mean perform (caseOf? cases s) >>= fun r => match r with
          | some a => pure (some a)
          | none => next.run (holds s) perform) (some s.length) := by
  have hns : ∀ n ∈ lengths cases, ofLength n cases ≠ [] := fun n hn => ofLength_ne_nil hn
  have hcase : (if s.length ∈ lengths cases then caseOf? cases s else none) = caseOf? cases s := by
    split
    · rfl
    · next hs => exact (caseOf?_eq_none hs).symm
  have hrun := run_codeOfLengths mean h perform s hns
  rw [hcase] at hrun
  have hnext : (codeOfLengths mean cases next (lengths cases)).run (holds s) perform
      = ((codeOfLengths mean cases .pass (lengths cases)).run (holds s) perform
          >>= fun r => match r with
            | some a => pure (some a)
            | none => next.run (holds s) perform) := by
    cases lengths cases with
    | nil => rfl
    | cons n ns => exact run_fork_next _ _ _ _
  rw [hnext]
  show ((codeOfLengths mean cases .pass (lengths cases)).run (holds s) perform (some s.length)
    >>= _) = (outcome mean perform (caseOf? cases s) (some s.length) >>= _)
  rw [hrun]

end

end

/-! ## one line each -/

section
open Text
variable {n : Names} (hsubject : OneLine n.subject.toList) (hlength : OneLine n.length.toList)
include hsubject hlength

theorem oneLine_test (t : Test) : OneLine (t.render n).toList := by
  have hliteral (cs : List Char) : OneLine (literal cs).toList := by
    rw [literal, String.toList_ofList]
    exact oneLine_quoteChars cs
  cases t with
  | length k =>
    simp only [Test.render, oneLine_str, oneLine_nat, hlength, and_true, true_and]
    exact oneLine_ofList (by decide)
  | tail start text =>
    simp only [Test.render, oneLine_str, oneLine_nat, hliteral, hsubject, and_true, true_and]
    and_intros <;> exact oneLine_ofList (by decide)
  | slice start stop text =>
    simp only [Test.render, oneLine_str, oneLine_nat, hliteral, hsubject, and_true, true_and]
    and_intros <;> exact oneLine_ofList (by decide)
  | char position c =>
    simp only [Test.render, oneLine_str, oneLine_nat, hliteral, hsubject, and_true, true_and]
    and_intros <;> exact oneLine_ofList (by decide)

theorem oneLine_line (hindent : OneLine n.indent.toList) {l : Line}
    (h : ∀ body, l.content = .statement body → OneLine body.toList) :
    OneLine (l.render n).toList := by
  have htabs : OneLine (String.ofList (List.replicate l.depth '\t')).toList := by
    refine oneLine_ofList fun c hc => ?_
    rw [List.eq_of_mem_replicate hc]
    decide
  rw [Line.render, oneLine_str, oneLine_str]
  refine ⟨⟨hindent, htabs⟩, ?_⟩
  cases hc : l.content with
  | ifTest t =>
    simp only [Content.render, oneLine_str, oneLine_test hsubject hlength, and_true]
    and_intros <;> exact oneLine_ofList (by decide)
  | elifTest t =>
    simp only [Content.render, oneLine_str, oneLine_test hsubject hlength, and_true]
    and_intros <;> exact oneLine_ofList (by decide)
  | statement body => exact h body hc

end

end OverloadTables.Dispatch
