/-!
# Integers in decimal

An interpreter neither writes nor reads an integer of more digits than a limit that it is set to.

* `digitLimit`         the limit it is set to from the start;
* `withinLimit n`      the integer has no more digits.
-/

namespace OverloadTables.Text

def digitLimit : Nat := 4300

/-- The integer has no more than `digitLimit` digits, the sign not counted. -/
def withinLimit (n : Int) : Bool := (Nat.toDigits 10 n.natAbs).length ≤ digitLimit

/-- What is told of an integer that has more digits. -/
def digitMessage : String :=
  "Exceeds the limit (4300 digits) for integer string conversion; "
    ++ "use sys.set_int_max_str_digits() to increase the limit"

end OverloadTables.Text
