import OverloadTables.Proofs.Dispatch.Code
import OverloadTables.Proofs.Dispatch.Enclosing
import OverloadTables.Proofs.Dispatch.Scan
import OverloadTables.Proofs.Distinct

/-!
# The paths of a decision tree

On the way to a statement, tests look at the characters of its string from the first to the last,
each at a stretch that begins where the one before it ends.

* `Inspects cs i ts`       the tests `ts` look at each character of `cs` from `i` on once, and
                           compare it with what it is;
* `Tree.paths`             the strings of a tree, each with the tests on the way to its statement;
* `Tree.inspects_paths`    these tests inspect what is left of the string;
* `Tree.leaves_build`, `Tree.ascends_build`   the tree of candidates has each of them once, and the
                           characters of its forks ascend;
* `Tree.block_lines`       the lines of a tree are a block with the statements of its paths.
-/

namespace OverloadTables.Dispatch

/-! ## stretches -/

/-- The stretch of positions that a test looks at in a subject with `n` characters. -/
def Test.stretch? (n : Nat) : Test → Option (Nat × Nat)
  | .length _ => none
  | .tail start _ => some (start, n)
  | .slice start stop _ => some (start, stop)
  | .char position _ => some (position, position + 1)

/-- What a test compares the stretch with. -/
def Test.expects : Test → List Char
  | .length _ => []
  | .tail _ text | .slice _ _ text => text
  | .char _ c => [c]

/-- The tests look at all characters from a position on, one stretch after the other, and compare
each stretch with what the string has there. -/
inductive Inspects (cs : List Char) : Nat → List Test → Prop where
  | done : Inspects cs cs.length []
  | test {t : Test} {start stop : Nat} {ts : List Test}
      (stretch : t.stretch? cs.length = some (start, stop)) (nonempty : start < stop)
      (part : t.expects = (cs.take stop).drop start) (rest : Inspects cs stop ts) :
      Inspects cs start (t :: ts)

/-! ## the strings of a tree -/

/-- A string of a tree, or what is left of it, with the tests on the way and the statement. -/
structure Path where
  rest : List Char
  tests : List Test
  body : String
  deriving DecidableEq, Repr

/-- The path behind one more test, of the characters `cs`. -/
def Path.under (cs : List Char) (t : Test) (p : Path) : Path := ⟨cs ++ p.rest, t :: p.tests, p.body⟩

def Path.candidate (p : Path) : Candidate := ⟨p.rest, p.body⟩

def Path.guarded (p : Path) : Guarded := ⟨p.tests, p.body⟩

mutual

/-- The strings of a tree whose tests start at a position. -/
def Tree.paths (position : Nat) : Tree → List Path
  | .leaf [] body => [⟨[], [], body⟩]
  | .leaf (c :: rest) body => [⟨c :: rest, [.tail position (c :: rest)], body⟩]
  | .fork [] arms => arms.paths position
  | .fork (c :: shared) arms =>
    (arms.paths (position + shared.length + 1)).map
      (·.under (c :: shared) (.slice position (position + shared.length + 1) (c :: shared)))

/-- The strings of branches. -/
def Arms.paths (position : Nat) : Arms → List Path
  | .nil => []
  | .cons c t more =>
    (t.paths (position + 1)).map (·.under [c] (.char position c)) ++ more.paths position

end

section
variable (s : List Char)

theorem lt_length_of_drop {position : Nat} {c : Char} {cs : List Char}
    (h : s.drop position = c :: cs) : position < s.length := by
  have hlen := congrArg List.length h
  rw [List.length_drop, List.length_cons] at hlen
  omega

mutual

/-- **The tests on the way to a statement inspect what is left of its string.** -/
theorem Tree.inspects_paths : ∀ {t : Tree} {position : Nat}, position ≤ s.length →
    ∀ p ∈ t.paths position, s.drop position = p.rest → Inspects s position p.tests
  | .leaf [] body, position, hle, p, hp, hs => by
    obtain rfl := List.mem_singleton.mp hp
    obtain rfl : position = s.length := Nat.le_antisymm hle (List.drop_eq_nil_iff.mp hs)
    exact .done
  | .leaf (c :: rest) body, position, _, p, hp, hs => by
    obtain rfl := List.mem_singleton.mp hp
    refine .test rfl (lt_length_of_drop s hs) ?_ .done
    rw [List.take_length, hs]
    rfl
  | .fork [] arms, position, hle, p, hp, hs => Arms.inspects_paths hle p hp hs
  | .fork (c :: shared) arms, position, hle, p, hp, hs => by
    obtain ⟨q, hq, rfl⟩ := List.mem_map.mp hp
    have hstop : s.drop (position + shared.length + 1) = q.rest := by
      rw [Nat.add_assoc, ← List.drop_drop, hs]
      exact List.drop_left
    have hin : position + shared.length + 1 ≤ s.length := by
      have hlen := congrArg List.length hs
      rw [List.length_drop, Path.under, List.length_append, List.length_cons] at hlen
      omega
    refine .test rfl (by omega) ?_ (Arms.inspects_paths hin q hq hstop)
    rw [Nat.add_assoc, slice_of_drop s hs]
    exact List.take_left.symm

theorem Arms.inspects_paths : ∀ {arms : Arms} {position : Nat}, position ≤ s.length →
    ∀ p ∈ arms.paths position, s.drop position = p.rest → Inspects s position p.tests
  | .nil, _, _, _, hp, _ => nomatch hp
  | .cons c t more, position, hle, p, hp, hs => by
    rw [Arms.paths, List.mem_append] at hp
    rcases hp with hp | hp
    · obtain ⟨q, hq, rfl⟩ := List.mem_map.mp hp
      have hs : s.drop position = c :: q.rest := hs
      refine .test rfl (Nat.lt_succ_self position) ?_
        (Tree.inspects_paths (lt_length_of_drop s hs) q hq (drop_succ_of_drop s hs))
      rw [slice_of_drop s hs]
      rfl
    · exact Arms.inspects_paths hle p hp hs

end

end

/-! ## the candidates of a tree -/

mutual

/-- The strings of a tree as candidates. -/
def Tree.leaves : Tree → List Candidate
  | .leaf rest body => [⟨rest, body⟩]
  | .fork shared arms => arms.leaves.map fun k => ⟨shared ++ k.rest, k.body⟩

def Arms.leaves : Arms → List Candidate
  | .nil => []
  | .cons c t more => t.leaves.map (·.push c) ++ more.leaves

end

mutual

theorem Tree.candidates_paths (position : Nat) : ∀ t : Tree,
    (t.paths position).map (·.candidate) = t.leaves
  | .leaf [] _ => rfl
  | .leaf (_ :: _) _ => rfl
  | .fork [] arms => by
    rw [Tree.paths, Arms.candidates_paths position arms, Tree.leaves]
    exact (List.map_id arms.leaves).symm
  | .fork (c :: shared) arms => by
    rw [Tree.paths, Tree.leaves, ← Arms.candidates_paths (position + shared.length + 1) arms,
      List.map_map, List.map_map]
    rfl

theorem Arms.candidates_paths (position : Nat) : ∀ arms : Arms,
    (arms.paths position).map (·.candidate) = arms.leaves
  | .nil => rfl
  | .cons c t more => by
    rw [Arms.paths, Arms.leaves, List.map_append, Arms.candidates_paths position more,
      ← Tree.candidates_paths (position + 1) t, List.map_map, List.map_map]
    rfl

end

theorem Tree.leaves_extend (t : Tree) (c : Char) :
    (t.extend c).leaves = t.leaves.map (·.push c) := by
  cases t with
  | leaf rest body => rfl
  | fork shared arms =>
    show arms.leaves.map _ = (arms.leaves.map _).map _
    rw [List.map_map]
    rfl

theorem Arms.leaves_ofList (f : Char → Tree) (cs : List Char) :
    (Arms.ofList (cs.map fun c => (c, f c))).leaves
      = cs.flatMap fun c => (f c).leaves.map (·.push c) := by
  induction cs with
  | nil => rfl
  | cons c cs ih => rw [List.map_cons, Arms.ofList, Arms.leaves, ih, List.flatMap_cons]

/-- The candidates after a character are those that go on with it. -/
theorem map_push_after_eq (c : Char) (ks : List Candidate) :
    (after c ks).map (·.push c) = ks.filter (·.rest.head? = some c) := by
  induction ks with
  | nil => rfl
  | cons k ks ih =>
    obtain ⟨rest, body⟩ := k
    rw [after_cons, List.map_append, ih]
    cases rest with
    | nil => rfl
    | cons d rest =>
      by_cases hd : d = c
      · simp [Candidate.after?, Candidate.push, hd]
      · simp [Candidate.after?, hd]

/-- **The tree of candidates has each of them once.** -/
theorem Tree.leaves_build {n : Nat} {ks : List Candidate} (h : Distinct n ks) (hne : ks ≠ []) :
    (build n ks).leaves.Perm ks := by
  refine build_induction (motive := fun _ ks t => t.leaves.Perm ks) ?leaf ?shared ?fork h hne
  case leaf =>
    intro n k _
    exact .refl _
  case shared =>
    intro n ks c hks hc ih
    rw [leaves_extend]
    have hpush := ih.map (·.push c)
    rwa [map_push_after hks hc] at hpush
  case fork =>
    intro n ks hks _ _ ih
    have hall : ∀ k ∈ ks, k.rest.head? ∈ (heads ks).map some := by
      intro k hk
      obtain ⟨c, rest, e⟩ := List.exists_cons_of_length_eq_add_one (hks.length k hk)
      rw [e]
      exact List.mem_map_of_mem (mem_heads.mpr ⟨k, hk, rest, e⟩)
    have hgroups := flatMap_filter_perm (fun k : Candidate => k.rest.head?)
      ((heads_nodup ks).map fun _ _ => Option.some.inj) hall
    rw [List.flatMap_map] at hgroups
    have hleaves : ((heads ks).flatMap fun c => (build n (after c ks)).leaves.map (·.push c)).Perm
        ((heads ks).flatMap fun c => ks.filter (·.rest.head? = some c)) := by
      refine List.Perm.flatMap_left _ fun c hc => ?_
      rw [← map_push_after_eq]
      exact (ih c hc).map _
    show ((Arms.ofList _).leaves.map fun k => ⟨k.rest, k.body⟩).Perm ks
    rw [Arms.leaves_ofList]
    have hsame : ∀ l : List Candidate, (l.map fun k => ⟨k.rest, k.body⟩) = l := List.map_id
    rw [hsame]
    exact hleaves.trans hgroups

/-! ## ascending branches -/

/-- The branches as a list. -/
def Arms.toList : Arms → List (Char × Tree)
  | .nil => []
  | .cons c t more => (c, t) :: more.toList

mutual

/-- The characters of every fork ascend. -/
def Tree.Ascends : Tree → Prop
  | .leaf _ _ => True
  | .fork _ arms => (arms.toList.map (·.1)).Pairwise (· < ·) ∧ arms.Ascends

def Arms.Ascends : Arms → Prop
  | .nil => True
  | .cons _ t more => t.Ascends ∧ more.Ascends

end

theorem Arms.toList_ofList (l : List (Char × Tree)) : (Arms.ofList l).toList = l := by
  induction l with
  | nil => rfl
  | cons p l ih => rw [Arms.ofList, Arms.toList, ih]

theorem Arms.ascends_ofList {l : List (Char × Tree)} (h : ∀ p ∈ l, p.2.Ascends) :
    (Arms.ofList l).Ascends := by
  induction l with
  | nil => trivial
  | cons p l ih =>
    obtain ⟨hp, hl⟩ := List.forall_mem_cons.mp h
    exact ⟨hp, ih hl⟩

theorem Tree.ascends_build {n : Nat} {ks : List Candidate} (h : Distinct n ks) (hne : ks ≠ []) :
    (build n ks).Ascends := by
  refine build_induction (motive := fun _ _ t => t.Ascends) ?leaf ?shared ?fork h hne
  case leaf =>
    intro n k _
    trivial
  case shared =>
    intro n ks c _ _ ih
    cases hbuild : build n (after c ks) with
    | leaf rest body => trivial
    | fork shared arms =>
      rw [hbuild] at ih
      exact ih
  case fork =>
    intro n ks _ _ _ ih
    constructor
    · rw [Arms.toList_ofList, List.map_map]
      have hheads : (heads ks).map ((·.1) ∘ fun c => (c, build n (after c ks))) = heads ks :=
        List.map_id _
      rw [hheads]
      exact ascending_lt _
    · refine Arms.ascends_ofList fun p hp => ?_
      obtain ⟨c, hc, rfl⟩ := List.mem_map.mp hp
      exact ih c hc

/-! ## the lines of a tree -/

/-- A branch as a clause. -/
def armClause (position depth : Nat) (arm : Char × Tree) : Clause :=
  ⟨.char position arm.1, arm.2.lines (position + 1) (depth + 1),
    (arm.2.paths (position + 1)).map (·.guarded)⟩

theorem Arms.lines_eq (position depth : Nat) : ∀ (opens : Bool) (arms : Arms),
    arms.lines position depth opens
      = clauseLines depth opens (arms.toList.map (armClause position depth))
  | _, .nil => rfl
  | _, .cons _ _ more => by
    rw [Arms.lines, Arms.lines_eq position depth false more]
    rfl

theorem Arms.guarded_paths (position depth : Nat) : ∀ arms : Arms,
    (arms.paths position).map (·.guarded)
      = (arms.toList.map (armClause position depth)).flatMap fun k =>
          k.statements.map (·.within [k.test])
  | .nil => rfl
  | .cons c t more => by
    rw [Arms.paths, List.map_append, Arms.guarded_paths position depth more, Arms.toList,
      List.map_cons, List.flatMap_cons, armClause, List.map_map, List.map_map]
    rfl

/-- A single clause is a chain. -/
theorem block_clause {depth : Nat} {k : Clause} (h : Block (depth + 1) k.lines k.statements) :
    Block depth (⟨depth, .ifTest k.test⟩ :: k.lines) (k.statements.map (·.within [k.test])) := by
  have hblock : Block depth (clauseLines depth true [k]) _ :=
    block_clauses (List.forall_mem_singleton.mpr h) (List.pairwise_singleton _ _)
  have hlines : clauseLines depth true [k] = ⟨depth, .ifTest k.test⟩ :: k.lines :=
    List.append_nil _
  rwa [hlines, List.flatMap_singleton] at hblock

/-- The branches of a fork, one chain of clauses. -/
theorem Arms.block_lines_of {position depth : Nat} {arms : Arms}
    (h : (arms.toList.map (·.1)).Pairwise (· < ·))
    (hblocks : ∀ a ∈ arms.toList, Block (depth + 1) (a.2.lines (position + 1) (depth + 1))
      ((a.2.paths (position + 1)).map (·.guarded))) :
    Block depth (arms.lines position depth true) ((arms.paths position).map (·.guarded)) := by
  rw [Arms.lines_eq, Arms.guarded_paths position depth]
  refine block_clauses (fun k hk => ?_) ?_
  · obtain ⟨a, ha, rfl⟩ := List.mem_map.mp hk
    exact hblocks a ha
  · rw [List.map_map, List.pairwise_map]
    rw [List.pairwise_map] at h
    exact h.imp fun hlt => ⟨rfl, hlt⟩

mutual

/-- **The lines of a tree are a block with the statements of its paths.** -/
theorem Tree.block_lines : ∀ {t : Tree}, t.Ascends → ∀ position depth : Nat,
    Block depth (t.lines position depth) ((t.paths position).map (·.guarded))
  | .leaf [] body, _, _, depth => block_statement depth body
  | .leaf (c :: rest) body, _, position, depth =>
    block_clause (k := ⟨.tail position (c :: rest), _, _⟩) (block_statement (depth + 1) body)
  | .fork [] _, h, position, depth =>
    Arms.block_lines_of h.1 (Arms.blocks_lines h.2 position depth)
  | .fork (c :: shared) arms, h, position, depth => by
    have harms := Arms.block_lines_of h.1
      (Arms.blocks_lines h.2 (position + shared.length + 1) (depth + 1))
    have hblock := block_clause (k := ⟨.slice position (position + shared.length + 1) (c :: shared),
      _, _⟩) harms
    rw [List.map_map] at hblock
    rw [Tree.paths, List.map_map]
    exact hblock

theorem Arms.blocks_lines : ∀ {arms : Arms}, arms.Ascends → ∀ position depth : Nat,
    ∀ a ∈ arms.toList, Block (depth + 1) (a.2.lines (position + 1) (depth + 1))
      ((a.2.paths (position + 1)).map (·.guarded))
  | .nil, _, _, _ => fun _ ha => nomatch ha
  | .cons c t more, h, position, depth => by
    intro a ha
    rcases List.mem_cons.mp ha with rfl | ha
    · exact Tree.block_lines h.1 (position + 1) (depth + 1)
    · exact Arms.blocks_lines h.2 position depth a ha

end

end OverloadTables.Dispatch
