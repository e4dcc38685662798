import OverloadTables.Text.Identifier

/-!
# Identifiers behind a prefix

* `Ranges.covers`          one table of ranges holds another;
* `continue_of_start`      what starts an identifier may go on with one;
* `isIdentifier_append`    so an identifier stays one behind another.
-/

namespace OverloadTables.Text

namespace Ranges

/-- Every range of the second table lies in one of the first. -/
def covers : Ranges → Ranges → Bool
  | [], small => small.isEmpty
  | (lo, hi) :: rs, small =>
    let rest := small.dropWhile fun r => lo ≤ r.1 && r.2 ≤ hi
    rest.head?.all (fun r => decide (lo ≤ r.1)) && covers rs rest

theorem contains_dropWhile {small : Ranges} (lo hi : Nat) {n : Nat}
    (h : small.contains n = true) :
    lo ≤ n ∧ n ≤ hi ∨
      Ranges.contains (small.dropWhile fun r => lo ≤ r.1 && r.2 ≤ hi) n = true := by
  induction small with
  | nil => cases h
  | cons r small ih =>
    rw [List.dropWhile_cons]
    by_cases hr : lo ≤ r.1 ∧ r.2 ≤ hi
    · have hdrop : (decide (lo ≤ r.1) && decide (r.2 ≤ hi)) = true := by simp [hr]
      rw [if_pos hdrop]
      simp only [contains, Bool.and_eq_true, decide_eq_true_eq, Bool.or_eq_true] at h
      obtain ⟨hlo, hhi | hrest⟩ := h
      · omega
      · exact ih hrest
    · have hkeep : ¬ (decide (lo ≤ r.1) && decide (r.2 ≤ hi)) = true := by simp [hr]
      rw [if_neg hkeep]
      exact .inr h

theorem contains_of_covers {big small : Ranges} {n : Nat} (hc : covers big small = true)
    (h : small.contains n = true) : big.contains n = true := by
  induction big generalizing small with
  | nil =>
    obtain rfl := List.isEmpty_iff.mp hc
    exact h
  | cons r big ih =>
    obtain ⟨lo, hi⟩ := r
    rw [covers, Bool.and_eq_true] at hc
    obtain ⟨hhead, hrest⟩ := hc
    simp only [contains, Bool.and_eq_true, decide_eq_true_eq, Bool.or_eq_true]
    rcases contains_dropWhile lo hi h with ⟨hlo, hhi⟩ | hmore
    · exact ⟨hlo, .inl hhi⟩
    · refine ⟨?_, .inr (ih hrest hmore)⟩
      -- the number is no less than the first range that was left
      cases hdrop : small.dropWhile fun r => lo ≤ r.1 && r.2 ≤ hi with
      | nil =>
        rw [hdrop] at hmore
        cases hmore
      | cons r rest =>
        rw [hdrop] at hhead hmore
        simp only [contains, Bool.and_eq_true, decide_eq_true_eq] at hmore
        have hlo : lo ≤ r.1 := by simpa using hhead
        omega

end Ranges

set_option maxRecDepth 8000 in
theorem covers_start : identifierContinueRanges.covers identifierStartRanges = true := by
  decide +kernel

theorem continue_of_start {c : Char} (h : isIdentifierStart c = true) :
    isIdentifierContinue c = true := by
  rw [isIdentifierStart, Bool.or_eq_true] at h
  rcases h with h | h
  · obtain rfl : c = '_' := by simpa using h
    decide
  · exact Ranges.contains_of_covers covers_start h

/-- All of an identifier may go on with one. -/
theorem continue_of_mem {s : String} (h : isIdentifier s = true) :
    ∀ c ∈ s.toList, isIdentifierContinue c = true := by
  rw [isIdentifier] at h
  cases hs : s.toList with
  | nil => exact fun c hc => absurd hc List.not_mem_nil
  | cons c cs =>
    rw [hs, isIdentifierChars, Bool.and_eq_true, List.all_eq_true] at h
    exact List.forall_mem_cons.mpr ⟨continue_of_start h.1, h.2⟩

theorem identifier_notMem {name : String} (h : isIdentifier name = true) {c : Char}
    (hc : isIdentifierContinue c = false) : c ∉ name.toList := fun hmem =>
  Bool.false_ne_true (hc.symm.trans (continue_of_mem h c hmem))

theorem isIdentifier_append {a b : String} (ha : isIdentifier a = true)
    (hb : isIdentifier b = true) : isIdentifier (a ++ b) = true := by
  have hrest := continue_of_mem hb
  rw [isIdentifier] at ha ⊢
  rw [String.toList_append]
  cases hcs : a.toList with
  | nil =>
    rw [hcs] at ha
    cases ha
  | cons c cs =>
    rw [hcs, isIdentifierChars, Bool.and_eq_true] at ha
    rw [List.cons_append, isIdentifierChars, List.all_append, ha.1, ha.2,
      List.all_eq_true.mpr hrest]
    rfl

end OverloadTables.Text
