import OverloadTables.Text.Loose

/-!
# JSON values

Integers are unbounded.  A number written with a fraction or an exponent is kept as the decimal it
spells, apart from the integers.  Objects keep their members in the order of first mention.  Texts
and keys may hold lone surrogates, which a document can spell.

* `Decimal.isZero`     the decimal rounds to zero in double precision;
* `Members.get?`       the value of a key;
* `Members.set`        a key given a value, the last one given wins.
-/

namespace OverloadTables

/-- A number that is not written as an integer. -/
inductive Decimal where
  /-- `digits * 10 ^ exponent`, with a sign. -/
  | finite (negative : Bool) (digits : Nat) (exponent : Int)
  | infinite (negative : Bool)
  | nan
  deriving BEq, DecidableEq, Repr, Inhabited

namespace Decimal

/-- Whether the decimal rounds to zero in double precision, that is, lies no further from zero than
half the least positive double, `2 ^ -1075`.  A bound by the count of digits settles all but the
decimals of that magnitude. -/
def isZero : Decimal → Bool
  | .finite _ 0 _ => true
  | .finite _ digits exponent =>
    let size := exponent + (Nat.toDigits 10 digits).length
    if size < -323 then true
    else if size > -323 then false
    else digits * Nat.pow 2 1075 ≤ Nat.pow 10 exponent.natAbs
  | _ => false

end Decimal

/-- A JSON value. -/
inductive Json where
  | null
  | bool (b : Bool)
  | int (n : Int)
  | real (x : Decimal)
  | str (s : LooseText)
  | arr (items : List Json)
  | obj (members : List (LooseText × Json))
  deriving BEq, Repr, Inhabited

/-- The members of an object, in the order of first mention. -/
abbrev Members := List (LooseText × Json)

namespace Members

def get? (key : LooseText) : Members → Option Json
  | [] => none
  | (k, v) :: ms => if k = key then some v else get? key ms

/-- Gives a key a value: in its place if it is present, at the end if it is new. -/
def set (key : LooseText) (value : Json) : Members → Members
  | [] => [(key, value)]
  | (k, v) :: ms => if k = key then (k, value) :: ms else (k, v) :: set key value ms

end Members
end OverloadTables
