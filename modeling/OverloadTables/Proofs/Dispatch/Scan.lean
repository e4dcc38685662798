import OverloadTables.Proofs.Dispatch.Tree

/-!
# A decision tree forks where its candidates first differ

Candidates of one length, no two alike, differ at some position, and the first such position is
where they are told apart; each group behind it has fewer characters left.

* `FirstDifference ks i`   the candidates agree before `i` and differ there;
* `Scans n ks t`           the tree comes of scanning a group for its first difference and going on
                           with every group behind it, down to single candidates;
* `scans_build`            this ends for candidates with `n` characters left, and gives their tree.
-/

namespace OverloadTables.Dispatch

/-- Two candidates differ at a position. -/
def Differ (ks : List Candidate) (i : Nat) : Prop := ∃ a ∈ ks, ∃ b ∈ ks, a.rest[i]? ≠ b.rest[i]?

structure FirstDifference (ks : List Candidate) (i : Nat) : Prop where
  agree : ∀ j < i, ¬ Differ ks j
  differ : Differ ks i

/-- Candidates without their first `i` characters. -/
def beyond (i : Nat) (ks : List Candidate) : List Candidate :=
  ks.map fun k => ⟨k.rest.drop i, k.body⟩

/-- A tree as it comes of scanning: a single candidate is a leaf; other candidates fork at their
first difference, behind the characters they share. -/
inductive Scans : Nat → List Candidate → Tree → Prop where
  | single {n : Nat} {k : Candidate} (length : k.rest.length = n) :
      Scans n [k] (.leaf k.rest k.body)
  | fork {n i : Nat} {ks : List Candidate} {shared : List Char} {branch : Char → Tree}
      (first : FirstDifference ks i) (inside : i < n) (length : shared.length = i)
      (shares : ∀ k ∈ ks, k.rest.take i = shared)
      (branches : ∀ c ∈ heads (beyond i ks),
        Scans (n - i - 1) (after c (beyond i ks)) (branch c)) :
      Scans n ks (.fork shared (.ofList ((heads (beyond i ks)).map fun c => (c, branch c))))

theorem beyond_zero (ks : List Candidate) : beyond 0 ks = ks :=
  List.map_id ks

/-! ## a character in front of all -/

/-- The candidate with one more character in front. -/
def Candidate.push (c : Char) (k : Candidate) : Candidate := ⟨c :: k.rest, k.body⟩

theorem beyond_push (c : Char) (i : Nat) (ks : List Candidate) :
    beyond (i + 1) (ks.map (·.push c)) = beyond i ks := by
  rw [beyond, beyond, List.map_map]
  rfl

theorem differ_push {c : Char} {ks : List Candidate} {i : Nat} :
    Differ (ks.map (·.push c)) (i + 1) ↔ Differ ks i := by
  simp [Differ, Candidate.push]

theorem not_differ_push (c : Char) (ks : List Candidate) : ¬ Differ (ks.map (·.push c)) 0 := by
  rintro ⟨a, ha, b, hb, hab⟩
  obtain ⟨k, -, rfl⟩ := List.mem_map.mp ha
  obtain ⟨l, -, rfl⟩ := List.mem_map.mp hb
  exact hab rfl

theorem FirstDifference.push {ks : List Candidate} {i : Nat} (h : FirstDifference ks i) (c : Char) :
    FirstDifference (ks.map (·.push c)) (i + 1) := by
  refine ⟨fun j hj hd => ?_, differ_push.mpr h.differ⟩
  cases j with
  | zero => exact not_differ_push c ks hd
  | succ j => exact h.agree j (by omega) (differ_push.mp hd)

theorem Scans.extend {n : Nat} {ks : List Candidate} {t : Tree} (h : Scans n ks t) (c : Char) :
    Scans (n + 1) (ks.map (·.push c)) (t.extend c) := by
  cases h with
  | single hlen =>
    rename_i k
    have hlen' : (k.push c).rest.length = n + 1 := congrArg (· + 1) hlen
    exact .single hlen'
  | fork hfirst hin hlen hshares hbranches =>
    rename_i i shared branch
    rw [Tree.extend, ← beyond_push c i ks]
    refine .fork (hfirst.push c) (by omega) (congrArg (· + 1) hlen) ?_ fun d hd => ?_
    · intro k hk
      obtain ⟨l, hl, rfl⟩ := List.mem_map.mp hk
      exact congrArg (c :: ·) (hshares l hl)
    · have hleft : n + 1 - (i + 1) - 1 = n - i - 1 := by omega
      rw [beyond_push] at hd ⊢
      rw [hleft]
      exact hbranches d hd

/-- Candidates that all go on with one character. -/
theorem map_push_after {n : Nat} {ks : List Candidate} {c : Char} (h : Distinct (n + 1) ks)
    (hc : heads ks = [c]) : (after c ks).map (·.push c) = ks := by
  have hall : ∀ k ∈ ks, ∃ rest, k.rest = c :: rest := by
    intro k hk
    obtain ⟨d, rest, e⟩ := List.exists_cons_of_length_eq_add_one (h.length k hk)
    have hd : d ∈ heads ks := mem_heads.mpr ⟨k, hk, rest, e⟩
    obtain rfl : d = c := by simpa [hc] using hd
    exact ⟨rest, e⟩
  clear h hc
  induction ks with
  | nil => rfl
  | cons k ks ih =>
    obtain ⟨⟨rest, hk⟩, hks⟩ := List.forall_mem_cons.mp hall
    have hafter : k.after? c = some ⟨rest, k.body⟩ := after?_eq_some.mpr ⟨hk, rfl⟩
    have hpush : Candidate.push c ⟨rest, k.body⟩ = k := by
      rw [Candidate.push, ← hk]
    rw [after_cons, hafter, Option.toList_some, List.singleton_append, List.map_cons, hpush, ih hks]

/-! ## the tree of candidates -/

theorem heads_nodup (ks : List Candidate) : (heads ks).Nodup := ascending_nodup _

/-- Candidates that go on with several characters differ at once. -/
theorem firstDifference_zero {ks : List Candidate} (hne : heads ks ≠ [])
    (hmany : ∀ c, heads ks ≠ [c]) : FirstDifference ks 0 := by
  refine ⟨fun j hj => absurd hj (Nat.not_lt_zero j), ?_⟩
  obtain ⟨c, rest, hc⟩ := List.exists_cons_of_ne_nil hne
  have hrest : rest ≠ [] := fun e => hmany c (e ▸ hc)
  obtain ⟨d, rest, rfl⟩ := List.exists_cons_of_ne_nil hrest
  have hcd : c ≠ d := by
    have := heads_nodup ks
    rw [hc] at this
    exact fun e => (List.nodup_cons.mp this).1 (e ▸ List.mem_cons_self)
  obtain ⟨a, ha, as, ea⟩ := mem_heads.mp (show c ∈ heads ks by simp [hc])
  obtain ⟨b, hb, bs, eb⟩ := mem_heads.mp (show d ∈ heads ks by simp [hc])
  refine ⟨a, ha, b, hb, ?_⟩
  rw [ea, eb]
  exact fun e => hcd (Option.some.inj e)

/-- **Scanning ends for candidates of one length, no two alike, and gives their tree.** -/
theorem scans_build {n : Nat} {ks : List Candidate} (h : Distinct n ks) (hne : ks ≠ []) :
    Scans n ks (Tree.build n ks) := by
  refine Tree.build_induction (motive := Scans) ?leaf ?shared ?fork h hne
  case leaf =>
    intro n k hk
    exact .single (hk.length k (by simp))
  case shared =>
    intro n ks c hks hc ih
    have := ih.extend c
    rwa [map_push_after hks hc] at this
  case fork =>
    intro n ks hks hheads hmany ih
    have hfork : Scans (n + 1) ks (.fork [] (.ofList ((heads (beyond 0 ks)).map fun c =>
        (c, Tree.build n (after c ks))))) := by
      refine .fork (firstDifference_zero hheads hmany) (Nat.succ_pos n) rfl
        (fun _ _ => List.take_zero) fun c hc => ?_
      rw [beyond_zero] at hc ⊢
      exact ih c hc
    rwa [beyond_zero] at hfork

end OverloadTables.Dispatch
