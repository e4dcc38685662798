import OverloadTables.Proofs.Dispatch.Inspected

/-!
# The order of the strings does not matter to a dispatch

Strings are sorted by length, and at every fork by the character there, so that the lines for the
same strings in another order are the same lines.

* `Tree.build_perm`        candidates in another order have the same tree;
* `lines_perm`             strings in another order have the same lines;
* `inOrder_lines`          the outermost tests are those of the lengths, and all chains ascend;
* `render_reordered`       strings in another order have the same text, which is in order.
-/

namespace OverloadTables.Dispatch

/-! ## candidates in another order -/

section
variable {ks ks' : List Candidate} (hperm : ks'.Perm ks)
include hperm

theorem Distinct.perm {n : Nat} (h : Distinct n ks) : Distinct n ks' where
  length k hk := h.length k (hperm.subset hk)
  nodup := (hperm.map (·.rest)).nodup_iff.mpr h.nodup

theorem heads_perm : heads ks' = heads ks := ascending_perm (hperm.filterMap _)

theorem after_perm (c : Char) : (after c ks').Perm (after c ks) := hperm.filterMap _

end

/-- **Candidates in another order have the same tree.** -/
theorem Tree.build_perm {n : Nat} {ks ks' : List Candidate} (hperm : ks'.Perm ks)
    (h : Distinct n ks) : build n ks' = build n ks := by
  induction n generalizing ks ks' with
  | zero =>
    by_cases hne : ks = []
    · rw [hne] at hperm ⊢
      rw [hperm.eq_nil]
    · obtain ⟨k, rfl⟩ := h.eq_singleton hne
      rw [List.perm_singleton.mp hperm]
  | succ n ih =>
    by_cases hne : ks = []
    · rw [hne] at hperm ⊢
      rw [hperm.eq_nil]
    have hne' : ks' ≠ [] := fun e => hne (hperm.symm.trans (e ▸ .refl _)).eq_nil
    have hheads := heads_perm hperm
    have hafter (c : Char) : build n (after c ks') = build n (after c ks) :=
      ih (after_perm hperm c) (h.after c)
    rcases build_cases h hne with ⟨k, rfl, -⟩ | ⟨m, hm, hshape⟩
    · rw [List.perm_singleton.mp hperm]
    rcases build_cases (h.perm hperm) hne' with ⟨k, rfl, -⟩ | ⟨m', hm', hshape'⟩
    · rw [List.perm_singleton.mp hperm.symm]
    obtain rfl : m = n := by omega
    obtain rfl : m' = m := by omega
    rw [hheads] at hshape'
    rcases hshape with ⟨c, hc, hbuild⟩ | ⟨hmany, hbuild⟩
    · rcases hshape' with ⟨c', hc', hbuild'⟩ | ⟨hmany', -⟩
      · obtain rfl : c = c' := by simpa [hc] using hc'
        rw [hbuild, hbuild', hafter]
      · exact absurd hc (hmany' c)
    · rcases hshape' with ⟨c', hc', -⟩ | ⟨-, hbuild'⟩
      · exact absurd hc' (hmany c')
      · rw [hbuild, hbuild']
        simp only [hafter]

/-! ## strings in another order -/

section
variable {cases cases' : List Case} (hperm : cases'.Perm cases)
  (h : (cases.map (·.text)).Nodup)
include hperm h

theorem linesOfLengths_perm (opens : Bool) (ns : List Nat) :
    linesOfLengths cases' opens ns = linesOfLengths cases opens ns := by
  induction ns generalizing opens with
  | nil => rfl
  | cons n ns ih =>
    have hof : (ofLength n cases').Perm (ofLength n cases) := (hperm.filter _).map _
    rw [linesOfLengths, linesOfLengths, Tree.build_perm hof (distinct_ofLength h n), ih]

/-- **Strings in another order have the same lines.** -/
theorem lines_perm : lines cases' = lines cases := by
  have h' : (cases'.map (·.text)).Nodup := (hperm.map (·.text)).nodup_iff.mpr h
  have hlengths : lengths cases' = lengths cases := ascending_perm (hperm.map (·.length))
  rw [lines_eq_ok h, lines_eq_ok h', hlengths, linesOfLengths_perm hperm h]

end

/-! ## the order of the lines -/

/-- The outermost lines of a chain of clauses are the clauses. -/
theorem testsOn_outermost {depth : Nat} {ks : List Clause}
    (h : ∀ k ∈ ks, Block (depth + 1) k.lines k.statements) (opens : Bool) :
    testsOn ((clauseLines depth opens ks).filter (·.depth = depth)) = ks.map (·.test) := by
  induction ks generalizing opens with
  | nil => rfl
  | cons k ks ih =>
    obtain ⟨hk, hks⟩ := List.forall_mem_cons.mp h
    have hinner : k.lines.filter (·.depth = depth) = [] := by
      rw [List.filter_eq_nil_iff]
      intro l hl e
      have hdeep := hk.deep l hl
      have hdepth : l.depth = depth := of_decide_eq_true e
      omega
    have houter (ls : List Line) :
        ((⟨depth, .test opens k.test⟩ :: ls : List Line).filter (·.depth = depth))
          = ⟨depth, .test opens k.test⟩ :: ls.filter (·.depth = depth) :=
      List.filter_cons_of_pos (decide_eq_true rfl)
    rw [clauseLines, List.cons_append, houter, testsOn_clause, List.filter_append, hinner,
      List.nil_append, ih hks false, List.map_cons]

/-- The lengths of the strings in increasing order, each once. -/
structure LengthsInOrder (cases : List Case) (ns : List Nat) : Prop where
  ascend : ns.Pairwise (· < ·)
  mem_iff : ∀ m, m ∈ ns ↔ ∃ k ∈ cases, k.length = m

theorem lengths_inOrder (cases : List Case) : LengthsInOrder cases (lengths cases) where
  ascend := ascending_lt _
  mem_iff m := by rw [lengths, mem_ascending, List.mem_map]

/-- What lines look like whose order is that of the strings' lengths and characters. -/
structure InOrder (cases : List Case) (ls : List Line) : Prop where
  /-- The outermost tests are those of the lengths. -/
  outermost : ∃ ns, LengthsInOrder cases ns ∧
    testsOn (ls.filter (·.depth = 0)) = ns.map .length
  /-- Lengths, or characters at one position, ascend in every chain. -/
  chains : ∀ chain ∈ chains ls, chain.Pairwise Test.Precedes
  /-- Every test stands in one chain. -/
  whole : (Dispatch.chains ls).flatten.Perm (testsOn ls)

theorem inOrder_lines {cases : List Case} (h : (cases.map (·.text)).Nodup) :
    InOrder cases (linesOfLengths cases true (lengths cases)) := by
  have hblock := block_lengths h
  refine ⟨⟨lengths cases, lengths_inOrder cases, ?_⟩, hblock.ascends, hblock.whole⟩
  rw [linesOfLengths_eq, testsOn_outermost fun k hk => ?_, List.map_map]
  · rfl
  · obtain ⟨n, hn, rfl⟩ := List.mem_map.mp hk
    exact Tree.block_lines (Tree.ascends_build (distinct_ofLength h n) (ofLength_ne_nil hn)) 0 1

/-- **The lines for pairwise different strings are the same in whatever order these come**: lengths
increase, and so do the characters of every fork. -/
theorem render_reordered (n : Names) {cases cases' : List Case} (hperm : cases'.Perm cases)
    (h : (cases.map (·.text)).Nodup) :
    render n cases' = render n cases ∧
      ∃ ls, lines cases = .ok ls ∧ render n cases = .ok (ls.map (·.render n)) ∧
        InOrder cases ls := by
  refine ⟨?_, linesOfLengths cases true (lengths cases), lines_eq_ok h, ?_, inOrder_lines h⟩
  · rw [render, render, lines_perm hperm h]
  · rw [render, lines_eq_ok h]
    rfl

theorem render_reordered_branching :
    branching.reverse.Perm branching ∧ (branching.map (·.text)).Nodup ∧
      render ⟨"name", "n", ""⟩ branching.reverse = render ⟨"name", "n", ""⟩ branching ∧
      ∃ ls, lines branching = .ok ls ∧
        render ⟨"name", "n", ""⟩ branching = .ok (ls.map (·.render ⟨"name", "n", ""⟩)) ∧
        InOrder branching ls :=
  have hperm : branching.reverse.Perm branching := branching.reverse_perm
  have h : (branching.map (·.text)).Nodup := by decide
  ⟨hperm, h, render_reordered _ hperm h⟩

end OverloadTables.Dispatch
