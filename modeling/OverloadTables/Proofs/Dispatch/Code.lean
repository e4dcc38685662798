import OverloadTables.Proofs.Dispatch.Tree
import OverloadTables.Proofs.Script.Dispatcher

/-!
# The lines of a decision tree do what the tree says

* `Tree.code`              the program of a tree;
* `Tree.reads_lines`       the lines of a tree are read as its program;
* `Tree.run_code`          the program runs the statement that the tree finds.
-/

namespace OverloadTables.Dispatch

open Script

section
variable {σ : Type} (mean : String → σ)

mutual

/-- The program of a tree whose tests start at a position. -/
def Tree.code (position : Nat) : Tree → Code Condition σ
  | .leaf [] body => .step (mean body) .pass
  | .leaf (c :: rest) body =>
    .fork (.tail position (c :: rest)) (.step (mean body) .pass) .pass .pass
  | .fork [] arms => arms.code position
  | .fork (c :: shared) arms =>
    .fork (.slice position (position + shared.length + 1) (c :: shared))
      (arms.code (position + shared.length + 1)) .pass .pass

/-- The program of the branches of a fork. -/
def Arms.code (position : Nat) : Arms → Code Condition σ
  | .nil => .pass
  | .cons c t more => .fork (.item position [c]) (t.code (position + 1)) (more.code position) .pass

end

/-- The branches as clauses that go on with a chain. -/
def Arms.chain (position : Nat) : Arms → Option (Code Condition σ)
  | .nil => none
  | arms => some (arms.code mean position)

theorem Arms.chain_getD (position : Nat) (arms : Arms) :
    (arms.chain mean position).getD .pass = arms.code mean position := by
  cases arms <;> rfl

/-! ## reading -/

mutual

theorem Tree.lines_bodies {P : String → Prop} {position depth : Nat} : ∀ {t : Tree}, t.Bodies P →
    ∀ l ∈ t.lines position depth, ∀ body, l.content = .statement body → P body
  | .leaf [] body, h => by
    intro l hl b e
    obtain rfl := List.mem_singleton.mp hl
    cases e
    exact h
  | .leaf (c :: rest) body, h => by
    intro l hl b e
    rcases List.mem_cons.mp hl with rfl | hl
    · exact nomatch e
    · obtain rfl := List.mem_singleton.mp hl
      cases e
      exact h
  | .fork [] _, h => fun l hl => Arms.lines_bodies h l hl
  | .fork (c :: shared) arms, h => by
    intro l hl b e
    rcases List.mem_cons.mp hl with rfl | hl
    · exact nomatch e
    · exact Arms.lines_bodies h l hl b e

theorem Arms.lines_bodies {P : String → Prop} {position depth : Nat} {opens : Bool} :
    ∀ {arms : Arms}, arms.Bodies P →
      ∀ l ∈ arms.lines position depth opens, ∀ body, l.content = .statement body → P body
  | .nil, _ => fun _ hl => nomatch hl
  | .cons c t more, h => by
    intro l hl b e
    rw [Arms.lines, List.cons_append, List.mem_cons, List.mem_append] at hl
    rcases hl with rfl | hl | hl
    · cases opens <;> exact nomatch e
    · exact Tree.lines_bodies h.1 l hl b e
    · exact Arms.lines_bodies h.2 l hl b e

end

mutual

theorem Tree.reads_lines (indent position depth : Nat) {n : Nat} :
    ∀ {t : Tree}, t.Fits n →
      Reads (indent + depth) ((t.lines position depth).map (ofLine indent mean))
        (t.code mean position)
  | .leaf [] _, _ => reads_statement _ _
  | .leaf (_ :: _) _, _ => reads_clause (reads_statement _ _) _
  | .fork [] _, h => (Arms.reads_lines indent position depth h.2.2).2 h.2.1
  | .fork (_ :: _) _, h =>
    reads_clause ((Arms.reads_lines indent _ (depth + 1) h.2.2).2 h.2.1) _

theorem Arms.reads_lines (indent position depth : Nat) {n : Nat} :
    ∀ {arms : Arms}, arms.Fits n →
      (∀ L L' code, atDepth (indent + depth) L = some (⟨indent + depth, none, code⟩, L') →
        ∃ M, readOnto ((arms.lines position depth false).map (ofLine indent mean)) L = some M ∧
          atDepth (indent + depth) M
            = some (⟨indent + depth, arms.chain mean position, code⟩, L')) ∧
      (arms ≠ .nil → Reads (indent + depth)
        ((arms.lines position depth true).map (ofLine indent mean)) (arms.code mean position))
  | .nil, _ => ⟨fun L L' code hL => ⟨L, rfl, hL⟩, fun h => absurd rfl h⟩
  | .cons c t more, h => by
    have hbody := Tree.reads_lines indent (position + 1) (depth + 1) h.1
    have hmore := (Arms.reads_lines indent position depth h.2).1
    constructor
    · intro L L' code hL
      obtain ⟨M, hM, hat⟩ := hmore L L' code hL
      have := readOnto_continues hbody (.item position [c]) hM hat
      rw [Arms.chain_getD] at this
      refine ⟨⟨indent + depth, (Arms.cons c t more).chain mean position, code⟩ :: L', ?_,
        atDepth_cons _ L'⟩
      rw [Arms.lines, List.map_append, List.map_cons]
      exact this
    · intro _ L hL
      obtain ⟨M, hM, hat⟩ := hmore L L .pass (atDepth_of_shallower hL)
      have := readOnto_opens hbody (.item position [c]) hM hat
      rw [Arms.chain_getD] at this
      rw [Arms.lines, List.map_append, List.map_cons]
      exact this

end

/-! ## running -/

section
variable {α : Type} (perform : σ → Step (Option α))

/-- What comes of a statement that was found, or of none. -/
def outcome : Option String → Step (Option α)
  | none => pure none
  | some body => perform (mean body)

variable (s : List Char)

/-- What stands from a position on, in parts. -/
theorem getElem?_of_drop {position : Nat} {c : Char} {cs : List Char}
    (h : s.drop position = c :: cs) : s[position]? = some c := by
  rw [← List.head?_drop, h]
  rfl

theorem drop_succ_of_drop {position : Nat} {c : Char} {cs : List Char}
    (h : s.drop position = c :: cs) : s.drop (position + 1) = cs := by
  rw [← List.drop_drop, h]
  rfl

theorem slice_of_drop {position k : Nat} {cs : List Char} (h : s.drop position = cs) :
    (s.take (position + k)).drop position = cs.take k := by
  rw [List.drop_take, h, Nat.add_sub_cancel_left]

mutual

/-- **The program of a tree runs the statement that the tree finds.** -/
theorem Tree.run_code {n : Nat} : ∀ {t : Tree}, t.Fits n → ∀ {position : Nat} {cs : List Char},
    s.drop position = cs → cs.length = n →
    (t.code mean position).run (holds s) perform = outcome mean perform (t.find? cs)
  | .leaf [] body, h, position, cs, _, hlen => by
    have hcs : cs = [] := List.length_eq_zero_iff.mp (hlen.trans h.symm)
    rw [Tree.find?, if_pos hcs]
    exact run_step _
  | .leaf (c :: rest) body, _, position, cs, hs, _ => by
    have htest : holds s (.tail position (c :: rest)) = pure (decide (cs = c :: rest)) := by
      rw [holds, hs]
    rw [Tree.code, run_fork htest, Tree.find?]
    by_cases hcs : cs = c :: rest
    · rw [decide_eq_true hcs, if_pos hcs]
      exact run_step _
    · rw [decide_eq_false hcs, if_neg hcs]
      rfl
  | .fork [] arms, h, position, cs, hs, hlen => by
    obtain ⟨c, cs, rfl⟩ := List.exists_cons_of_length_pos (hlen ▸ h.1)
    exact Arms.run_code h.2.2 hs (by simpa using Nat.eq_sub_of_add_eq hlen)
  | .fork (c :: shared) arms, h, position, cs, hs, hlen => by
    have htest : holds s (.slice position (position + shared.length + 1) (c :: shared))
        = pure (decide (cs.take (shared.length + 1) = c :: shared)) := by
      rw [holds, Nat.add_assoc, slice_of_drop s hs]
    rw [Tree.code, run_fork htest, Tree.find?, List.length_cons]
    by_cases hcs : cs.take (shared.length + 1) = c :: shared
    · have hlt : shared.length + 1 < cs.length := hlen ▸ h.1
      have hrest : 0 < (cs.drop (shared.length + 1)).length := by
        rw [List.length_drop]
        omega
      obtain ⟨d, ds, hds⟩ := List.exists_cons_of_length_pos hrest
      have hs' : s.drop (position + shared.length + 1) = d :: ds := by
        rw [Nat.add_assoc, ← List.drop_drop, hs, hds]
      have hlen' : ds.length = n - (c :: shared).length - 1 := by
        have := congrArg List.length hds
        rw [List.length_drop, List.length_cons, hlen] at this
        rw [List.length_cons]
        omega
      rw [decide_eq_true hcs, if_pos hcs, hds]
      exact Arms.run_code h.2.2 hs' hlen'
    · rw [decide_eq_false hcs, if_neg hcs]
      rfl

theorem Arms.run_code {n : Nat} : ∀ {arms : Arms}, arms.Fits n →
    ∀ {position : Nat} {c : Char} {cs : List Char}, s.drop position = c :: cs → cs.length = n →
    (arms.code mean position).run (holds s) perform = outcome mean perform (arms.find? c cs)
  | .nil, _, _, _, _, _, _ => rfl
  | .cons d t more, h, position, c, cs, hs, hlen => by
    have htest : holds s (.item position [d]) = pure (decide (c = d)) := by
      rw [holds, getElem?_of_drop s hs]
      simp
    rw [Arms.code, run_fork htest, Arms.find?]
    by_cases hcd : c = d
    · rw [decide_eq_true hcd, if_pos hcd]
      exact Tree.run_code h.1 (drop_succ_of_drop s hs) hlen
    · rw [decide_eq_false hcd, if_neg hcd]
      exact Arms.run_code h.2 hs hlen

end

end

end

end OverloadTables.Dispatch
