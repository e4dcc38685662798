import OverloadTables.Dispatch.Tree
import OverloadTables.Proofs.Sorting
import Mathlib.Data.List.Nodup

/-!
# A decision tree knows its candidates

* `Dispatch.Distinct n ks`   candidates of one length, no two alike;
* `Tree.Fits n t`          every string of the tree has `n` characters, and no fork is empty;
* `Tree.Bodies P t`          every statement of the tree has the property `P`;
* `Tree.build_induction`   a leaf, a character that all share, or a fork;
* `Tree.fits_build`, `Tree.bodies_build`, `Tree.find?_build`   the tree of candidates fits, has no
                           statements but theirs, and finds each of them.
-/

namespace OverloadTables.Dispatch

/-! ## candidates -/

/-- Candidates with `n` characters left, no two alike. -/
structure Distinct (n : Nat) (ks : List Candidate) : Prop where
  length : ∀ k ∈ ks, k.rest.length = n
  nodup : (ks.map (·.rest)).Nodup

/-- The statement of the candidate with this rest. -/
def bodyOf? (ks : List Candidate) (cs : List Char) : Option String :=
  (ks.find? (·.rest = cs)).map (·.body)

theorem mem_heads {ks : List Candidate} {c : Char} :
    c ∈ heads ks ↔ ∃ k ∈ ks, ∃ rest, k.rest = c :: rest := by
  rw [heads, mem_ascending, List.mem_filterMap]
  simp only [List.head?_eq_some_iff]

theorem after?_eq_some {c : Char} {k k' : Candidate} :
    k.after? c = some k' ↔ k.rest = c :: k'.rest ∧ k.body = k'.body := by
  obtain ⟨rest, body⟩ := k
  obtain ⟨rest', body'⟩ := k'
  cases rest with
  | nil => simp [Candidate.after?]
  | cons d rest =>
    by_cases hd : d = c
    · simp [Candidate.after?, hd]
    · simp [Candidate.after?, hd]

theorem after_cons (c : Char) (k : Candidate) (ks : List Candidate) :
    after c (k :: ks) = (k.after? c).toList ++ after c ks := by
  rw [after, after, List.filterMap_cons]
  cases k.after? c <;> rfl

theorem Distinct.after {n : Nat} {ks : List Candidate} (h : Distinct (n + 1) ks) (c : Char) :
    Distinct n (after c ks) := by
  constructor
  · intro k' hk'
    obtain ⟨k, hk, he⟩ := List.mem_filterMap.mp hk'
    have hlen := h.length k hk
    rw [(after?_eq_some.mp he).1, List.length_cons] at hlen
    omega
  · have hnd := h.nodup
    clear h
    induction ks with
    | nil => exact List.nodup_nil
    | cons k ks ih =>
      obtain ⟨hk, hks⟩ := List.nodup_cons.mp hnd
      rw [after_cons]
      cases he : k.after? c with
      | none => exact ih hks
      | some k' =>
        refine List.nodup_cons.mpr ⟨fun hm => hk ?_, ih hks⟩
        obtain ⟨l', hl', e⟩ := List.mem_map.mp hm
        obtain ⟨l, hl, hel⟩ := List.mem_filterMap.mp hl'
        refine List.mem_map.mpr ⟨l, hl, ?_⟩
        show l.rest = k.rest
        rw [(after?_eq_some.mp hel).1, (after?_eq_some.mp he).1, e]

/-- A string that begins with `c` is told by the candidates after `c`. -/
theorem bodyOf?_after (ks : List Candidate) (c : Char) (cs : List Char) :
    bodyOf? (after c ks) cs = bodyOf? ks (c :: cs) := by
  induction ks with
  | nil => rfl
  | cons k ks ih =>
    rw [bodyOf?, bodyOf?] at ih ⊢
    rw [after_cons]
    obtain ⟨rest, body⟩ := k
    cases rest with
    | nil => simpa [Candidate.after?] using ih
    | cons d rest =>
      by_cases hd : d = c
      · by_cases hr : rest = cs
        · simp [Candidate.after?, hd, hr]
        · simpa [Candidate.after?, hd, hr] using ih
      · simpa [Candidate.after?, hd] using ih

theorem bodyOf?_eq_none {ks : List Candidate} {cs : List Char} (h : ∀ k ∈ ks, k.rest ≠ cs) :
    bodyOf? ks cs = none := by
  rw [bodyOf?, List.find?_eq_none.mpr (fun k hk => by simpa using h k hk)]
  rfl

/-! ## trees -/

mutual

/-- Every string of the tree has `n` characters, and no fork is empty. -/
def Tree.Fits (n : Nat) : Tree → Prop
  | .leaf rest _ => rest.length = n
  | .fork shared arms => shared.length < n ∧ arms ≠ .nil ∧ arms.Fits (n - shared.length - 1)

/-- The same of branches. -/
def Arms.Fits (n : Nat) : Arms → Prop
  | .nil => True
  | .cons _ t more => t.Fits n ∧ more.Fits n

end

theorem Tree.fits_extend {n : Nat} {t : Tree} (h : t.Fits n) (c : Char) :
    (t.extend c).Fits (n + 1) := by
  cases t with
  | leaf rest body =>
    show rest.length + 1 = n + 1
    rw [Tree.Fits] at h
    omega
  | fork shared arms =>
    obtain ⟨hlt, hne, harms⟩ := h
    refine ⟨by simpa using hlt, hne, ?_⟩
    rw [List.length_cons, Nat.add_sub_add_right]
    exact harms

theorem Arms.fits_ofList {n : Nat} {l : List (Char × Tree)} (h : ∀ p ∈ l, p.2.Fits n) :
    (Arms.ofList l).Fits n := by
  induction l with
  | nil => trivial
  | cons p l ih =>
    exact ⟨h p List.mem_cons_self, ih fun q hq => h q (List.mem_cons_of_mem _ hq)⟩

theorem Tree.find?_extend (t : Tree) (c : Char) (cs : List Char) :
    (t.extend c).find? (c :: cs) = t.find? cs := by
  cases t with
  | leaf rest body => simp [Tree.extend, Tree.find?]
  | fork shared arms => simp [Tree.extend, Tree.find?]

theorem Tree.find?_extend_of_ne (t : Tree) (c : Char) {cs : List Char}
    (h : cs.head? ≠ some c) : (t.extend c).find? cs = none := by
  cases cs with
  | nil => cases t <;> simp [Tree.extend, Tree.find?]
  | cons d cs =>
    have hd : d ≠ c := fun e => h (congrArg some e)
    cases t <;> simp [Tree.extend, Tree.find?, hd]

theorem Arms.find?_ofList (f : Char → Tree) (cs : List Char) (c : Char) (rest : List Char) :
    (Arms.ofList (cs.map fun c => (c, f c))).find? c rest
      = if c ∈ cs then (f c).find? rest else none := by
  induction cs with
  | nil => rfl
  | cons d cs ih =>
    rw [List.map_cons, Arms.ofList, Arms.find?, ih]
    by_cases hd : c = d
    · subst hd
      simp
    · simp [hd]

/-! ## the statements of a tree -/

mutual

/-- Every statement of the tree is one of those. -/
def Tree.Bodies (P : String → Prop) : Tree → Prop
  | .leaf _ body => P body
  | .fork _ arms => arms.Bodies P

/-- The same of branches. -/
def Arms.Bodies (P : String → Prop) : Arms → Prop
  | .nil => True
  | .cons _ t more => t.Bodies P ∧ more.Bodies P

end

theorem Tree.bodies_extend {P : String → Prop} {t : Tree} (h : t.Bodies P) (c : Char) :
    (t.extend c).Bodies P := by
  cases t <;> exact h

theorem Arms.bodies_ofList {P : String → Prop} {l : List (Char × Tree)} (h : ∀ p ∈ l, p.2.Bodies P) :
    (Arms.ofList l).Bodies P := by
  induction l with
  | nil => trivial
  | cons p l ih =>
    exact ⟨h p List.mem_cons_self, ih fun q hq => h q (List.mem_cons_of_mem _ hq)⟩

theorem after_bodies {P : String → Prop} {ks : List Candidate} (h : ∀ k ∈ ks, P k.body) (c : Char) :
    ∀ k ∈ after c ks, P k.body := by
  intro k' hk'
  obtain ⟨k, hk, he⟩ := List.mem_filterMap.mp hk'
  rw [← (after?_eq_some.mp he).2]
  exact h k hk

/-! ## the tree of candidates -/

theorem Distinct.eq_singleton {ks : List Candidate} (h : Distinct 0 ks) (hne : ks ≠ []) :
    ∃ k, ks = [k] := by
  match ks, hne with
  | [k], _ => exact ⟨k, rfl⟩
  | k :: k' :: ks, _ =>
    have hk := List.length_eq_zero_iff.mp (h.length k (by simp))
    have hk' := List.length_eq_zero_iff.mp (h.length k' (by simp))
    have hnd := h.nodup
    simp [hk, hk'] at hnd

theorem heads_ne_nil {n : Nat} {ks : List Candidate} (h : Distinct (n + 1) ks) (hne : ks ≠ []) :
    heads ks ≠ [] := by
  obtain ⟨k, hk⟩ := List.exists_mem_of_ne_nil ks hne
  obtain ⟨c, rest, e⟩ := List.exists_cons_of_length_eq_add_one (h.length k hk)
  exact List.ne_nil_of_mem (mem_heads.mpr ⟨k, hk, rest, e⟩)

theorem after_ne_nil {c : Char} {ks : List Candidate} (h : c ∈ heads ks) : after c ks ≠ [] := by
  obtain ⟨k, hk, rest, e⟩ := mem_heads.mp h
  have hk' : k.after? c = some ⟨rest, k.body⟩ := after?_eq_some.mpr ⟨e, rfl⟩
  exact List.ne_nil_of_mem (List.mem_filterMap.mpr ⟨k, hk, hk'⟩)

/-- A tree is a leaf, goes on with the one character that all share, or forks. -/
theorem Tree.build_cases {n : Nat} {ks : List Candidate} (h : Distinct n ks) (hne : ks ≠ []) :
    (∃ k, ks = [k] ∧ build n ks = .leaf k.rest k.body) ∨
      ∃ m, n = m + 1 ∧ ((∃ c, heads ks = [c] ∧ build n ks = (build m (after c ks)).extend c) ∨
        (∀ c, heads ks ≠ [c]) ∧
          build n ks = .fork [] (.ofList ((heads ks).map fun c => (c, build m (after c ks))))) := by
  match n, ks, hne with
  | n, [k], _ =>
    left
    exact ⟨k, rfl, by cases n <;> rfl⟩
  | 0, k :: k' :: ks, hne =>
    obtain ⟨l, e⟩ := h.eq_singleton hne
    simp at e
  | n + 1, k :: k' :: ks, _ =>
    refine .inr ⟨n, rfl, ?_⟩
    rw [build]
    · split
      · next c hc => exact .inl ⟨c, hc, rfl⟩
      · next hmany => exact .inr ⟨hmany, rfl⟩
    · exact nofun
    · exact nofun

/-- Induction along the building of a tree. -/
theorem Tree.build_induction {motive : Nat → List Candidate → Tree → Prop}
    (leaf : ∀ n k, Distinct n [k] → motive n [k] (.leaf k.rest k.body))
    (shared : ∀ n ks c, Distinct (n + 1) ks → heads ks = [c] →
      motive n (after c ks) (build n (after c ks)) →
        motive (n + 1) ks ((build n (after c ks)).extend c))
    (fork : ∀ n ks, Distinct (n + 1) ks → heads ks ≠ [] → (∀ c, heads ks ≠ [c]) →
      (∀ c ∈ heads ks, motive n (after c ks) (build n (after c ks))) →
        motive (n + 1) ks (.fork [] (.ofList ((heads ks).map fun c => (c, build n (after c ks))))))
    {n : Nat} {ks : List Candidate} (h : Distinct n ks) (hne : ks ≠ []) :
    motive n ks (build n ks) := by
  induction n generalizing ks with
  | zero =>
    obtain ⟨k, rfl⟩ := h.eq_singleton hne
    exact leaf 0 k h
  | succ n ih =>
    rcases build_cases h hne with ⟨k, rfl, e⟩ | ⟨m, hm, ⟨c, hc, e⟩ | ⟨hmany, e⟩⟩
    · rw [e]
      exact leaf _ k h
    · obtain rfl : m = n := by omega
      rw [e]
      exact shared m ks c h hc (ih (h.after c) (after_ne_nil (by simp [hc])))
    · obtain rfl : m = n := by omega
      rw [e]
      exact fork m ks h (heads_ne_nil h hne) hmany fun c hc => ih (h.after c) (after_ne_nil hc)

section
variable {n : Nat} {ks : List Candidate} (h : Distinct n ks) (hne : ks ≠ [])
include h hne

theorem Tree.fits_build : (build n ks).Fits n := by
  refine build_induction (motive := fun n _ t => t.Fits n) ?leaf ?shared ?fork h hne
  case leaf =>
    intro n k hk
    exact hk.length k (by simp)
  case shared =>
    intro n ks c _ _ ih
    exact fits_extend ih c
  case fork =>
    intro n ks _ hheads _ ih
    refine ⟨by simp, ?_, Arms.fits_ofList ?_⟩
    · obtain ⟨c, cs, hcs⟩ := List.exists_cons_of_ne_nil hheads
      rw [hcs]
      exact nofun
    · intro p hp
      obtain ⟨c, hc, rfl⟩ := List.mem_map.mp hp
      exact ih c hc

theorem Tree.bodies_build {P : String → Prop} (hP : ∀ k ∈ ks, P k.body) :
    (build n ks).Bodies P := by
  refine build_induction (motive := fun _ ks t => (∀ k ∈ ks, P k.body) → t.Bodies P)
    ?leaf ?shared ?fork h hne hP
  case leaf =>
    intro n k _ hP
    exact hP k (by simp)
  case shared =>
    intro n ks c _ _ ih hP
    exact bodies_extend (ih (after_bodies hP c)) c
  case fork =>
    intro n ks _ _ _ ih hP
    refine Arms.bodies_ofList fun p hp => ?_
    obtain ⟨c, hc, rfl⟩ := List.mem_map.mp hp
    exact ih c hc (after_bodies hP c)

end

/-- No candidate is found where no character is left. -/
theorem bodyOf?_nil {n : Nat} {ks : List Candidate} (h : Distinct (n + 1) ks) :
    bodyOf? ks [] = none := by
  refine bodyOf?_eq_none fun k hk e => ?_
  have hlen := h.length k hk
  rw [e] at hlen
  simp at hlen

theorem bodyOf?_notMem {ks : List Candidate} {c : Char} (h : c ∉ heads ks) (cs : List Char) :
    bodyOf? ks (c :: cs) = none :=
  bodyOf?_eq_none fun k hk e => h (mem_heads.mpr ⟨k, hk, cs, e⟩)

/-- **The tree of candidates finds each of them, and nothing else.** -/
theorem Tree.find?_build {n : Nat} {ks : List Candidate} (h : Distinct n ks) (hne : ks ≠ [])
    (cs : List Char) : (build n ks).find? cs = bodyOf? ks cs := by
  refine build_induction (motive := fun _ ks t => ∀ cs, t.find? cs = bodyOf? ks cs)
    ?leaf ?shared ?fork h hne cs
  case leaf =>
    intro n k _ cs
    by_cases hk : cs = k.rest
    · simp [find?, bodyOf?, hk]
    · simp [find?, bodyOf?, hk, Ne.symm hk]
  case shared =>
    intro n ks d hks hd ih cs
    cases cs with
    | nil =>
      rw [bodyOf?_nil hks]
      exact find?_extend_of_ne _ _ (by simp)
    | cons c cs =>
      by_cases hc : c = d
      · rw [hc, find?_extend, ih, bodyOf?_after]
      · rw [find?_extend_of_ne _ _ (by simpa using hc), bodyOf?_notMem (by simpa [hd] using hc)]
  case fork =>
    intro n ks hks _ _ ih cs
    cases cs with
    | nil =>
      rw [bodyOf?_nil hks]
      rfl
    | cons c cs =>
      show (Arms.ofList _).find? c cs = _
      rw [Arms.find?_ofList]
      by_cases hc : c ∈ heads ks
      · rw [if_pos hc, ih c hc, bodyOf?_after]
      · rw [if_neg hc, bodyOf?_notMem hc]

end OverloadTables.Dispatch
