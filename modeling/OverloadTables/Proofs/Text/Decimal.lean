import OverloadTables.Text.Decimal

/-!
# Decimal numbers by their characters

* `toList_toString_nat`, `toList_toString_negSucc`   the characters of a number;
* `isDigit_of_mem_nat`, `isDigit_of_mem_int`   they are digits, behind a minus perhaps;
* `withinLimit_iff`   the integers within the limit.
-/

namespace OverloadTables.Text

theorem toList_toString_nat (n : Nat) : (toString n).toList = Nat.toDigits 10 n := Nat.toList_repr

theorem toList_toString_negSucc (n : Nat) :
    (toString (Int.negSucc n)).toList = '-' :: (toString (n + 1)).toList :=
  String.toList_append

theorem isDigit_of_mem_nat {n : Nat} {c : Char} (h : c ∈ (toString n).toList) :
    c.isDigit = true := by
  rw [toList_toString_nat] at h
  exact Nat.isDigit_of_mem_toDigits (by omega) (by omega) h

theorem isDigit_of_mem_int {n : Int} {c : Char} (h : c ∈ (toString n).toList) :
    c = '-' ∨ c.isDigit = true := by
  cases n with
  | ofNat n => exact .inr (isDigit_of_mem_nat h)
  | negSucc n =>
    rw [toList_toString_negSucc] at h
    rcases List.mem_cons.mp h with hc | hc
    · exact .inl hc
    · exact .inr (isDigit_of_mem_nat hc)

/-! ## the limit -/

/-- The integers within the limit are those below the power of ten that first has more digits. -/
theorem withinLimit_iff {n : Int} : withinLimit n = true ↔ n.natAbs < Nat.pow 10 digitLimit := by
  have hpow (k : Nat) : Nat.pow 10 k = 10 ^ k := rfl
  have hpos : 0 < digitLimit := by decide
  rw [withinLimit, decide_eq_true_eq, hpow, Nat.length_toDigits_le_iff (by decide) hpos]

theorem withinLimit_neg (n : Int) : withinLimit (-n) = withinLimit n := by
  rw [withinLimit, Int.natAbs_neg, withinLimit]

/-- The first integer beyond the limit. -/
theorem withinLimit_first : withinLimit (Nat.pow 10 digitLimit : Nat) = false := by
  rw [Bool.eq_false_iff, ne_eq, withinLimit_iff, Int.natAbs_natCast]
  exact Nat.lt_irrefl _

end OverloadTables.Text
