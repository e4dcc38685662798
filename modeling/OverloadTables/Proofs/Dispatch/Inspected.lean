import OverloadTables.Proofs.Dispatch.Lines
import OverloadTables.Proofs.Dispatch.Paths

/-!
# A dispatch inspects every character once

The lines for pairwise different strings have one statement for each string.  Around it stand a
test of the length and then tests that look at each character of the string once.

* `Guards k g`             the tests around a statement that is the one of the case `k`;
* `Inspected cases ls`     the lines have the statements of the cases, and their chains ascend;
* `block_lengths`          the lines for all lengths are one block;
* `render_inspected`       lines for strings that come once each are inspected.
-/

namespace OverloadTables.Dispatch

/-- The statement of a case, behind a test of the length of its string and tests that inspect the
string from its first character to the last. -/
structure Guards (k : Case) (g : Guarded) : Prop where
  body : g.body = k.body
  tests : ∃ ts, g.tests = .length k.length :: ts ∧ Inspects k.text.toList 0 ts

/-- What the lines for strings that come once each look like.  Every test stands in one chain. -/
structure Inspected (cases : List Case) (ls : List Line) : Prop where
  statements : ∃ order : List Case, order.Perm cases ∧ List.Forall₂ Guards order (guarded [] ls)
  chains : ∀ chain ∈ chains ls, chain.Pairwise Test.Precedes
  whole : (Dispatch.chains ls).flatten.Perm (testsOn ls)

/-! ## the strings of all lengths -/

/-- The strings of a length, with the tests on the way to their statements. -/
def pathsOfLength (cases : List Case) (n : Nat) : List Path :=
  (Tree.build n (ofLength n cases)).paths 0

def Path.case (p : Path) : Case := ⟨String.ofList p.rest, p.body⟩

/-- The statement of a whole string. -/
def Path.statement (p : Path) : Guarded := ⟨.length p.rest.length :: p.tests, p.body⟩

/-- The strings of a length as a clause. -/
def lengthClause (cases : List Case) (n : Nat) : Clause :=
  ⟨.length n, (Tree.build n (ofLength n cases)).lines 0 1, (pathsOfLength cases n).map (·.guarded)⟩

theorem linesOfLengths_eq (cases : List Case) (opens : Bool) (ns : List Nat) :
    linesOfLengths cases opens ns = clauseLines 0 opens (ns.map (lengthClause cases)) := by
  induction ns generalizing opens with
  | nil => rfl
  | cons n ns ih =>
    rw [linesOfLengths, ih]
    rfl

theorem map_case_ofLength (cases : List Case) (n : Nat) :
    (ofLength n cases).map (fun k => Case.mk (String.ofList k.rest) k.body)
      = cases.filter (·.length = n) := by
  rw [ofLength, List.map_map]
  have hsame : ∀ l : List Case, l.map ((fun k : Candidate => Case.mk (String.ofList k.rest) k.body) ∘
      fun k => ⟨k.text.toList, k.body⟩) = l := by
    intro l
    refine (List.map_congr_left fun k _ => ?_).trans (List.map_id l)
    show Case.mk (String.ofList k.text.toList) k.body = k
    rw [String.ofList_toList]
  exact hsame _

section
variable {cases : List Case} (h : (cases.map (·.text)).Nodup)
include h

theorem paths_perm {n : Nat} (hn : n ∈ lengths cases) :
    ((pathsOfLength cases n).map (·.candidate)).Perm (ofLength n cases) := by
  rw [pathsOfLength, Tree.candidates_paths]
  exact Tree.leaves_build (distinct_ofLength h n) (ofLength_ne_nil hn)

/-- The strings of all lengths are those of the cases. -/
theorem cases_perm : (((lengths cases).flatMap (pathsOfLength cases)).map (·.case)).Perm cases := by
  have hlength : ∀ k ∈ cases, k.length ∈ lengths cases := fun k hk =>
    mem_ascending.mpr (List.mem_map_of_mem hk)
  have hgroups : ((lengths cases).flatMap fun n => cases.filter (·.length = n)).Perm cases :=
    flatMap_filter_perm Case.length (ascending_nodup _) hlength
  rw [List.map_flatMap]
  refine .trans (List.Perm.flatMap_left _ fun n hn => ?_) hgroups
  have hpaths := (paths_perm h hn).map fun k => Case.mk (String.ofList k.rest) k.body
  rwa [map_case_ofLength, List.map_map] at hpaths

/-- **The lines for all lengths are one block.** -/
theorem block_lengths : Block 0 (linesOfLengths cases true (lengths cases))
    (((lengths cases).flatMap (pathsOfLength cases)).map (·.statement)) := by
  have hblock : Block 0 (linesOfLengths cases true (lengths cases))
      (((lengths cases).map (lengthClause cases)).flatMap fun k =>
        k.statements.map (·.within [k.test])) := by
    rw [linesOfLengths_eq]
    refine block_clauses (fun k hk => ?_) ?_
    · obtain ⟨n, hn, rfl⟩ := List.mem_map.mp hk
      exact Tree.block_lines (Tree.ascends_build (distinct_ofLength h n) (ofLength_ne_nil hn)) 0 1
    · rw [List.map_map, List.pairwise_map]
      exact ascending_lt _
  have hstatements : (((lengths cases).map (lengthClause cases)).flatMap fun k =>
        k.statements.map (·.within [k.test]))
      = ((lengths cases).flatMap (pathsOfLength cases)).map (·.statement) := by
    rw [List.flatMap_map, List.map_flatMap]
    refine List.flatMap_congr fun n hn => ?_
    rw [lengthClause, List.map_map]
    refine List.map_congr_left fun p hp => ?_
    have hp : p.candidate ∈ ofLength n cases := (paths_perm h hn).subset (List.mem_map_of_mem hp)
    have hlen : p.rest.length = n := (distinct_ofLength h n).length _ hp
    rw [Path.statement, hlen]
    rfl
  rwa [hstatements] at hblock

theorem inspected_lines : Inspected cases (linesOfLengths cases true (lengths cases)) := by
  have hblock := block_lengths h
  refine ⟨⟨_, cases_perm h, ?_⟩, hblock.ascends, hblock.whole⟩
  rw [hblock.statements [], enclosing, within_nil, List.forall₂_map_left_iff,
    List.forall₂_map_right_iff, List.forall₂_same]
  intro p hp
  obtain ⟨n, -, hp⟩ := List.mem_flatMap.mp hp
  have htext : p.case.text.toList = p.rest := String.toList_ofList
  have hinspects : Inspects p.rest 0 p.tests :=
    Tree.inspects_paths p.rest (Nat.zero_le _) p hp List.drop_zero
  refine ⟨rfl, p.tests, ?_, htext ▸ hinspects⟩
  rw [Path.statement, Case.length, htext]

/-- **Every character is inspected once on the way to a statement.**  The lines for strings that
come once each have one statement a string, behind tests of its length and of its characters one
stretch after the other, and their chains ascend. -/
theorem render_inspected (n : Names) :
    ∃ ls, lines cases = .ok ls ∧ render n cases = .ok (ls.map (·.render n)) ∧
      Inspected cases ls := by
  refine ⟨linesOfLengths cases true (lengths cases), lines_eq_ok h, ?_, inspected_lines h⟩
  rw [render, lines_eq_ok h]
  rfl

end

/-- The empty string, a string alone at its length, strings that share what they begin with, and
strings that differ at once. -/
def branching : List Case :=
  [⟨"sqrt", "return 0"⟩, ⟨"", "return 1"⟩, ⟨"tan", "return 2"⟩, ⟨"atan2", "return 3"⟩,
    ⟨"cos", "return 4"⟩, ⟨"atanh", "return 5"⟩, ⟨"ceil", "return 6"⟩]

theorem render_inspected_branching : (branching.map (·.text)).Nodup ∧
    ∃ ls, lines branching = .ok ls ∧
      render ⟨"name", "n", "\t"⟩ branching = .ok (ls.map (·.render ⟨"name", "n", "\t"⟩)) ∧
      Inspected branching ls :=
  have h : (branching.map (·.text)).Nodup := by decide
  ⟨h, render_inspected h _⟩

/-- What `atan2` shares with `atanh` is tested at once, and the character after it decides. -/
example : (lines branching).toOption.map (fun ls => (guarded [] ls)[5]?) = some (some
    ⟨[.length 5, .slice 0 4 "atan".toList, .char 4 '2'], "return 3"⟩) := by cbv

end OverloadTables.Dispatch
