import OverloadTables.Text.Loose

/-!
# UTF-16 units

A character beyond U+FFFF is two units, a high and a low surrogate; every other character is one.

* `utf16Units c`       the units of a character;
* `unitPoint`, `pairedUnits`   the code point of a unit, and the character of two of them.
-/

namespace OverloadTables.Text

def utf16Units (c : Char) : List Nat :=
  if c.toNat < 0x10000 then [c.toNat]
  else [0xD800 + (c.toNat - 0x10000) / 0x400, 0xDC00 + (c.toNat - 0x10000) % 0x400]

def isHighSurrogate (u : Nat) : Bool := 0xD800 ≤ u && u ≤ 0xDBFF

def isLowSurrogate (u : Nat) : Bool := 0xDC00 ≤ u && u ≤ 0xDFFF

/-- The code point of a unit that stands alone. -/
def unitPoint (u : Nat) : Point :=
  if isHighSurrogate u || isLowSurrogate u then .lone (Fin.ofNat 0x800 (u - 0xD800))
  else .char (Char.ofNat u)

/-- The character of a pair of surrogates. -/
def pairedUnits (u v : Nat) : Char := Char.ofNat (0x10000 + (u - 0xD800) * 0x400 + (v - 0xDC00))

end OverloadTables.Text
