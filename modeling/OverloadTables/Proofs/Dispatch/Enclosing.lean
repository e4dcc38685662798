import OverloadTables.Dispatch.Lines
import Mathlib.Data.List.Perm.Basic

/-!
# What encloses a line

Lines are nested by their depth: the clause above a line that is less deep encloses it, and so do
the clauses that enclose this one.  Clauses of one depth, with nothing but deeper lines between
them, make a chain, which `if` begins and `elif` goes on with.

* `enclosing depth before`   the tests around a line, from the outside in;
* `guarded before ls`      the statements on lines, each with the tests around it;
* `chains ls`              the tests of each chain;
* `Block depth ls gs`      lines of one block, with the statements `gs` and with ascending chains;
* `block_statement`, `block_clauses`   a statement is a block, and a chain of clauses is one if what
                           they enclose are blocks.
-/

namespace OverloadTables.Dispatch

/-! ## statements -/

def Content.test? : Content → Option Test
  | .ifTest t | .elifTest t => some t
  | .statement _ => none

/-- The tests around a line at a depth, from the outside in; `before` are the lines before it, the
nearest one first. -/
def enclosing : Nat → List Line → List Test
  | _, [] => []
  | depth, l :: before =>
    if l.depth < depth then enclosing l.depth before ++ l.content.test?.toList
    else enclosing depth before

/-- A statement and the tests around it, from the outside in. -/
structure Guarded where
  tests : List Test
  body : String
  deriving DecidableEq, Repr

/-- The statements on lines that come after the lines `before`, of which the last is the first. -/
def guarded : List Line → List Line → List Guarded
  | _, [] => []
  | before, l :: ls =>
    match l.content with
    | .statement body => ⟨enclosing l.depth before, body⟩ :: guarded (l :: before) ls
    | _ => guarded (l :: before) ls

/-- The statement with further tests around it. -/
def Guarded.within (outer : List Test) (g : Guarded) : Guarded := ⟨outer ++ g.tests, g.body⟩

theorem within_nil (gs : List Guarded) : gs.map (·.within []) = gs := List.map_id gs

theorem within_append (a b : List Test) (gs : List Guarded) :
    gs.map (·.within (a ++ b)) = (gs.map (·.within b)).map (·.within a) := by
  rw [List.map_map]
  refine List.map_congr_left fun g _ => ?_
  show Guarded.mk (a ++ b ++ g.tests) g.body = ⟨a ++ (b ++ g.tests), g.body⟩
  rw [List.append_assoc]

/-- Lines as deep as a line or deeper do not enclose it. -/
theorem enclosing_append {depth : Nat} {ls : List Line} (h : ∀ l ∈ ls, depth ≤ l.depth)
    (before : List Line) : enclosing depth (ls ++ before) = enclosing depth before := by
  induction ls with
  | nil => rfl
  | cons l ls ih =>
    obtain ⟨hl, hls⟩ := List.forall_mem_cons.mp h
    rw [List.cons_append, enclosing, if_neg (Nat.not_lt.mpr hl), ih hls]

theorem guarded_append (before a b : List Line) :
    guarded before (a ++ b) = guarded before a ++ guarded (a.reverse ++ before) b := by
  induction a generalizing before with
  | nil => rfl
  | cons l a ih =>
    have hrest := ih (l :: before)
    rw [List.append_cons, ← List.reverse_cons] at hrest
    rw [List.cons_append, guarded, guarded]
    cases l.content with
    | statement body =>
      show _ :: guarded (l :: before) (a ++ b) = _ :: guarded (l :: before) a ++ _
      rw [hrest, List.cons_append]
    | ifTest t | elifTest t => exact hrest

/-! ## chains -/

/-- The tests of the clauses that go on with a chain at a depth. -/
def continued (depth : Nat) : List Line → List Test
  | [] => []
  | l :: ls =>
    if depth < l.depth then continued depth ls
    else match l.content with
      | .elifTest t => if l.depth = depth then t :: continued depth ls else []
      | _ => []

/-- The tests of each chain, in the order of the clauses that begin them. -/
def chains : List Line → List (List Test)
  | [] => []
  | l :: ls =>
    match l.content with
    | .ifTest t => (t :: continued l.depth ls) :: chains ls
    | _ => chains ls

/-- One clause may come before another in a chain: the lengths ascend, and so do the characters at
one position.  No other tests share a chain. -/
def Test.Precedes : Test → Test → Prop
  | .length m, .length n => m < n
  | .char p c, .char q d => p = q ∧ c < d
  | _, _ => False

/-- The tests on lines. -/
def testsOn (ls : List Line) : List Test := ls.filterMap (·.content.test?)

theorem testsOn_clause (depth : Nat) (opens : Bool) (t : Test) (ls : List Line) :
    testsOn (⟨depth, .test opens t⟩ :: ls) = t :: testsOn ls := by
  cases opens with
  | true => rfl
  | false => rfl

theorem testsOn_append (a b : List Line) : testsOn (a ++ b) = testsOn a ++ testsOn b :=
  List.filterMap_append

/-- What stands below deeper lines goes on with a chain as if these were not there. -/
theorem continued_deeper {depth : Nat} {ls : List Line} (h : ∀ l ∈ ls, depth < l.depth)
    (rest : List Line) : continued depth (ls ++ rest) = continued depth rest := by
  induction ls with
  | nil => rfl
  | cons l ls ih =>
    obtain ⟨hl, hls⟩ := List.forall_mem_cons.mp h
    rw [List.cons_append, continued, if_pos hl, ih hls]

/-- A line that is less deep ends a chain. -/
theorem continued_append {depth : Nat} (ls : List Line) {rest : List Line}
    (h : ∀ l ∈ rest.head?, l.depth < depth) :
    continued depth (ls ++ rest) = continued depth ls := by
  induction ls with
  | nil =>
    cases rest with
    | nil => rfl
    | cons l rest =>
      have hl : l.depth < depth := h l rfl
      show continued depth (l :: rest) = []
      rw [continued, if_neg (Nat.lt_asymm hl)]
      cases l.content with
      | elifTest t => exact if_neg (Nat.ne_of_lt hl)
      | ifTest t | statement body => rfl
  | cons l ls ih =>
    rw [List.cons_append, continued, continued, ih]

theorem chains_append {depth : Nat} {ls rest : List Line} (hls : ∀ l ∈ ls, depth < l.depth)
    (hrest : ∀ l ∈ rest.head?, l.depth ≤ depth) :
    chains (ls ++ rest) = chains ls ++ chains rest := by
  induction ls with
  | nil => rfl
  | cons l ls ih =>
    obtain ⟨hl, hls⟩ := List.forall_mem_cons.mp hls
    rw [List.cons_append, chains, chains]
    cases l.content with
    | ifTest t =>
      have hends : ∀ k ∈ rest.head?, k.depth < l.depth := fun k hk =>
        Nat.lt_of_le_of_lt (hrest k hk) hl
      show (t :: continued l.depth (ls ++ rest)) :: chains (ls ++ rest) = _
      rw [continued_append ls hends, ih hls]
      rfl
    | elifTest t | statement body => exact ih hls

/-! ## blocks -/

/-- The lines of one block: `gs` are the statements, with the tests that stand in the block. -/
structure Block (depth : Nat) (ls : List Line) (gs : List Guarded) : Prop where
  deep : ∀ l ∈ ls, depth ≤ l.depth
  statements : ∀ before, guarded before ls = gs.map (·.within (enclosing depth before))
  ascends : ∀ chain ∈ chains ls, chain.Pairwise Test.Precedes
  whole : (chains ls).flatten.Perm (testsOn ls)

theorem block_statement (depth : Nat) (body : String) :
    Block depth [⟨depth, .statement body⟩] [⟨[], body⟩] where
  deep := List.forall_mem_singleton.mpr (Nat.le_refl depth)
  statements before := by
    show [Guarded.mk (enclosing depth before) body] = [⟨enclosing depth before ++ [], body⟩]
    rw [List.append_nil]
  ascends := List.forall_mem_nil _
  whole := .nil

/-- A clause: its test, the lines it encloses, and the statements on them. -/
structure Clause where
  test : Test
  lines : List Line
  statements : List Guarded

/-- The lines of clauses; `opens` holds for the first one of a chain. -/
def clauseLines (depth : Nat) : Bool → List Clause → List Line
  | _, [] => []
  | opens, k :: ks => ⟨depth, .test opens k.test⟩ :: k.lines ++ clauseLines depth false ks

theorem clauseLines_head (depth : Nat) (opens : Bool) (ks : List Clause) :
    ∀ l ∈ (clauseLines depth opens ks).head?, l.depth ≤ depth := by
  cases ks with
  | nil => exact fun _ h => nomatch h
  | cons k ks =>
    intro l hl
    obtain rfl := Option.some.inj hl
    exact Nat.le_refl depth

section
variable {depth : Nat} {ks : List Clause}
  (h : ∀ k ∈ ks, Block (depth + 1) k.lines k.statements)
include h

theorem clauseLines_deep (opens : Bool) : ∀ l ∈ clauseLines depth opens ks, depth ≤ l.depth := by
  induction ks generalizing opens with
  | nil => exact List.forall_mem_nil _
  | cons k ks ih =>
    obtain ⟨hk, hks⟩ := List.forall_mem_cons.mp h
    rw [clauseLines, List.cons_append]
    refine List.forall_mem_cons.mpr ⟨Nat.le_refl depth, fun l hl => ?_⟩
    rcases List.mem_append.mp hl with hl | hl
    · exact Nat.le_of_succ_le (hk.deep l hl)
    · exact ih hks false l hl

theorem guarded_clauses (opens : Bool) (before : List Line) :
    guarded before (clauseLines depth opens ks)
      = (ks.flatMap fun k => k.statements.map (·.within [k.test])).map
          (·.within (enclosing depth before)) := by
  induction ks generalizing opens before with
  | nil => rfl
  | cons k ks ih =>
    obtain ⟨hk, hks⟩ := List.forall_mem_cons.mp h
    have hfirst (before : List Line) (ls : List Line) :
        guarded before (⟨depth, .test opens k.test⟩ :: ls)
          = guarded (⟨depth, .test opens k.test⟩ :: before) ls := by
      cases opens <;> rfl
    have htest : enclosing (depth + 1) (⟨depth, .test opens k.test⟩ :: before)
        = enclosing depth before ++ [k.test] := by
      rw [enclosing, if_pos (Nat.lt_succ_self depth)]
      cases opens <;> rfl
    have hpassed : enclosing depth (k.lines.reverse ++ ⟨depth, .test opens k.test⟩ :: before)
        = enclosing depth before := by
      rw [List.append_cons]
      refine enclosing_append (fun l hl => ?_) before
      rcases List.mem_append.mp hl with hl | hl
      · exact Nat.le_of_succ_le (hk.deep l (List.mem_reverse.mp hl))
      · obtain rfl := List.mem_singleton.mp hl
        exact Nat.le_refl depth
    rw [clauseLines, List.cons_append, hfirst, guarded_append, hk.statements, htest, ih hks, hpassed,
      within_append, List.flatMap_cons, List.map_append]

theorem continued_clauses : continued depth (clauseLines depth false ks) = ks.map (·.test) := by
  induction ks with
  | nil => rfl
  | cons k ks ih =>
    obtain ⟨hk, hks⟩ := List.forall_mem_cons.mp h
    rw [clauseLines, List.cons_append, continued, if_neg (Nat.lt_irrefl depth)]
    show (if depth = depth then k.test :: continued depth (k.lines ++ _) else []) = _
    rw [if_pos rfl, continued_deeper hk.deep, ih hks, List.map_cons]

theorem chains_continued :
    chains (clauseLines depth false ks) = ks.flatMap fun k => chains k.lines := by
  induction ks with
  | nil => rfl
  | cons k ks ih =>
    obtain ⟨hk, hks⟩ := List.forall_mem_cons.mp h
    rw [clauseLines, List.cons_append, List.flatMap_cons, ← ih hks]
    exact chains_append hk.deep (clauseLines_head depth false ks)

theorem testsOn_clauses (opens : Bool) :
    testsOn (clauseLines depth opens ks) = ks.flatMap fun k => k.test :: testsOn k.lines := by
  induction ks generalizing opens with
  | nil => rfl
  | cons k ks ih =>
    obtain ⟨-, hks⟩ := List.forall_mem_cons.mp h
    rw [clauseLines, testsOn_append, testsOn_clause, ih hks false, List.flatMap_cons]

end

/-- The chain of clauses comes first, and the chains of what they enclose after it. -/
theorem chains_clauses {depth : Nat} {k : Clause} {ks : List Clause}
    (h : ∀ c ∈ k :: ks, Block (depth + 1) c.lines c.statements) :
    chains (clauseLines depth true (k :: ks))
      = (k :: ks).map (·.test) :: (k :: ks).flatMap fun c => chains c.lines := by
  obtain ⟨hk, hks⟩ := List.forall_mem_cons.mp h
  have hchains : chains (k.lines ++ clauseLines depth false ks)
      = chains k.lines ++ chains (clauseLines depth false ks) :=
    chains_append hk.deep (clauseLines_head depth false ks)
  rw [clauseLines, List.cons_append]
  show (k.test :: continued depth (k.lines ++ _)) :: chains (k.lines ++ _) = _
  rw [continued_deeper hk.deep, continued_clauses hks, hchains, chains_continued hks, List.map_cons,
    List.flatMap_cons]

/-- **A chain of ascending clauses is a block if what the clauses enclose are blocks.** -/
theorem block_clauses {depth : Nat} {ks : List Clause}
    (h : ∀ k ∈ ks, Block (depth + 1) k.lines k.statements)
    (hascends : (ks.map (·.test)).Pairwise Test.Precedes) :
    Block depth (clauseLines depth true ks)
      (ks.flatMap fun k => k.statements.map (·.within [k.test])) := by
  refine ⟨clauseLines_deep h true, guarded_clauses h true, ?ascends, ?whole⟩
  case ascends =>
    cases ks with
    | nil => exact List.forall_mem_nil _
    | cons k ks =>
      rw [chains_clauses h]
      refine List.forall_mem_cons.mpr ⟨hascends, fun chain hchain => ?_⟩
      obtain ⟨c, hc, hmem⟩ := List.mem_flatMap.mp hchain
      exact (h c hc).ascends chain hmem
  case whole =>
    cases ks with
    | nil => exact .nil
    | cons k ks =>
      have hinner : ((k :: ks).flatMap fun c => chains c.lines).flatten
          = (k :: ks).flatMap fun c => (chains c.lines).flatten := by
        rw [List.flatMap_def, List.flatten_flatten, List.map_map]
        rfl
      rw [chains_clauses h, testsOn_clauses h, List.flatten_cons, hinner]
      have hwhole : ((k :: ks).flatMap fun c => (chains c.lines).flatten).Perm
          ((k :: ks).flatMap fun c => testsOn c.lines) :=
        List.Perm.flatMap_left _ fun c hc => (h c hc).whole
      exact (hwhole.append_left _).trans
        (List.map_append_flatMap_perm (k :: ks) (·.test) fun c => testsOn c.lines)

end OverloadTables.Dispatch
