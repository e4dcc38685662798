import OverloadTables.Json.Writer
import OverloadTables.Text.Decimal

/-!
# The bytes of a JSON value

A value has canonical bytes if its integers are within the limit and no lone surrogate is in it.

* `digitsFit v`        every integer is within the limit;
* `lone? v`            the first lone surrogate in the order of writing;
* `canonicalBytes v`   the canonical text in UTF-8;
* `canonicalBytesWithin frames v`   the same, where only so many calls may be nested.
-/

namespace OverloadTables

namespace LooseText

/-- The first lone surrogate. -/
def lone? : LooseText → Option Surrogate
  | .text _ => none
  | .lone _ u _ => some u

end LooseText

namespace Json

mutual

/-- Every integer in the value is within the limit. -/
def digitsFit : Json → Bool
  | .int n => Text.withinLimit n
  | .arr vs => digitsFitItems vs
  | .obj ms => digitsFitMembers ms
  | _ => true

def digitsFitItems : List Json → Bool
  | [] => true
  | v :: vs => digitsFit v && digitsFitItems vs

def digitsFitMembers : List (LooseText × Json) → Bool
  | [] => true
  | (_, v) :: ms => digitsFit v && digitsFitMembers ms

end

mutual

/-- The first lone surrogate in the order of writing. -/
def lone? : Json → Option Surrogate
  | .str t => t.lone?
  | .arr vs => loneItems? vs
  | .obj ms => loneMembers? ms
  | _ => none

def loneItems? : List Json → Option Surrogate
  | [] => none
  | v :: vs => (lone? v).or (loneItems? vs)

def loneMembers? : List (LooseText × Json) → Option Surrogate
  | [] => none
  | (k, v) :: ms => (k.lone?.or (lone? v)).or (loneMembers? ms)

end

/-- Why a value has no bytes. -/
inductive WriteFault where
  | tooManyDigits
  /-- The text has lone surrogates at `place`, `count` in a row, of which `first` is the first. -/
  | surrogates (first : Surrogate) (place count : Nat)
  deriving DecidableEq, Repr

def WriteFault.message : WriteFault → String
  | .tooManyDigits => Text.digitMessage
  | .surrogates first place count =>
    if count = 1 then
      "'utf-8' codec can't encode character '" ++ String.ofList (Text.codePointEscape first.code)
        ++ "' in position " ++ toString place ++ ": surrogates not allowed"
    else
      "'utf-8' codec can't encode characters in position " ++ toString place ++ "-"
        ++ toString (place + count - 1) ++ ": surrogates not allowed"

/-- The fault of a text with lone surrogates, of which `first` is the first. -/
def surrogateFault (text : List Char) (first : Surrogate) : WriteFault :=
  .surrogates first (text.takeWhile (· ≠ standIn)).length
    ((text.dropWhile (· ≠ standIn)).takeWhile (· = standIn)).length

/-- The canonical text in UTF-8. -/
def canonicalBytes (v : Json) : Except WriteFault ByteArray :=
  if digitsFit v then
    match lone? (sorted v) with
    | none => .ok (canonical v).toUTF8
    | some u => .error (surrogateFault (canonical v).toList u)
  else .error .tooManyDigits

/-! ## nesting -/

/-- Why a value has no bytes where only so many calls may be nested. -/
inductive EncodeFault where
  /-- Arrays and objects are nested too deep. -/
  | tooDeep
  | write (e : WriteFault)
  deriving DecidableEq, Repr

def EncodeFault.message : EncodeFault → String
  | .tooDeep => "maximum recursion depth exceeded while encoding a JSON object"
  | .write e => e.message

mutual

/-- What the writer stops at first; an array or object takes a call. -/
def stop? (frames : Nat) : Json → Option EncodeFault
  | .int n => if Text.withinLimit n then none else some (.write .tooManyDigits)
  | .arr vs => if frames = 0 then some .tooDeep else stopItems? (frames - 1) vs
  | .obj ms => if frames = 0 then some .tooDeep else stopMembers? (frames - 1) ms
  | _ => none

def stopItems? (frames : Nat) : List Json → Option EncodeFault
  | [] => none
  | v :: vs => (stop? frames v).or (stopItems? frames vs)

def stopMembers? (frames : Nat) : List (LooseText × Json) → Option EncodeFault
  | [] => none
  | (_, v) :: ms => (stop? frames v).or (stopMembers? frames ms)

end

/-- The canonical text in UTF-8, where only so many calls may be nested. -/
def canonicalBytesWithin (frames : Nat) (v : Json) : Except EncodeFault ByteArray :=
  match stop? frames (sorted v) with
  | some e => .error e
  | none => (canonicalBytes v).mapError .write

end Json
end OverloadTables
