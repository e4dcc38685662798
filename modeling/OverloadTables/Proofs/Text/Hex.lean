import OverloadTables.Text.Hex

/-!
# Hexadecimal digits read back

* `hexValue?_digitChar`    a written digit has its value;
* `hexValue4?_digits`      so have the four digits of a number below 65536.
-/

namespace OverloadTables.Text

theorem hexValue?_digitChar {d : Nat} (h : d < 16) : hexValue? (Nat.digitChar d) = some d := by
  have hall : ∀ d < 16, hexValue? (Nat.digitChar d) = some d := by decide
  exact hall d h

theorem hexDigits_four (n : Nat) : hexDigits 4 n
    = [Nat.digitChar (n / 16 / 16 / 16 % 16), Nat.digitChar (n / 16 / 16 % 16),
      Nat.digitChar (n / 16 % 16), Nat.digitChar (n % 16)] := rfl

theorem hexValue4?_digits {n : Nat} (h : n < 0x10000) :
    hexValue4? (Nat.digitChar (n / 16 / 16 / 16 % 16)) (Nat.digitChar (n / 16 / 16 % 16))
      (Nat.digitChar (n / 16 % 16)) (Nat.digitChar (n % 16)) = some n := by
  have hdigit (m : Nat) : hexValue? (Nat.digitChar (m % 16)) = some (m % 16) :=
    hexValue?_digitChar (Nat.mod_lt _ (by omega))
  have hvalue : ((n / 16 / 16 / 16 % 16 * 16 + n / 16 / 16 % 16) * 16 + n / 16 % 16) * 16 + n % 16
      = n := by omega
  rw [hexValue4?, hdigit, hdigit, hdigit, hdigit]
  show some (((n / 16 / 16 / 16 % 16 * 16 + n / 16 / 16 % 16) * 16 + n / 16 % 16) * 16 + n % 16)
    = some n
  rw [hvalue]

end OverloadTables.Text
