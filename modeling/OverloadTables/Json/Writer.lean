import OverloadTables.Json.Basic
import OverloadTables.Sorting
import OverloadTables.Text.Hex
import OverloadTables.Text.Utf16

/-!
# Writing JSON

One writer, and a record of what a layout decides: the text between items, the text after a colon,
the step of indentation, and whether characters beyond printable ASCII are escaped.

* `Layout.compact`     no blanks; the form that is hashed;
* `Layout.indented`    one item or member a line, two blanks a level;
* `Layout.report`      one line of ASCII;
* `sorted v`           the value with the keys of every object in ascending order;
* `render`             a value as text;
* `canonical v`        sorted and compact.
-/

namespace OverloadTables.Json

/-- What a layout decides. -/
structure Layout where
  /-- Blanks a level; with none, arrays and objects stay on one line. -/
  indent : Option Nat
  afterComma : List Char
  afterColon : List Char
  /-- Characters beyond printable ASCII, and lone surrogates, are written as UTF-16 units. -/
  ascii : Bool

namespace Layout

/-- No blanks at all. -/
def compact : Layout := ⟨none, [], [], false⟩

/-- One item or member a line, two blanks a level. -/
def indented : Layout := ⟨some 2, [], [' '], false⟩

/-- One line of ASCII, with a blank after commas and colons. -/
def report : Layout := ⟨none, [' '], [' '], true⟩

/-- What stands before the first item of a filled array or object, or after its last, at a
depth. -/
def edge (l : Layout) (depth : Nat) : List Char :=
  match l.indent with
  | none => []
  | some n => '\n' :: List.replicate (n * depth) ' '

/-- What stands between two items at a depth. -/
def between (l : Layout) (depth : Nat) : List Char := ',' :: l.afterComma ++ l.edge depth

end Layout

def unitEscape (u : Nat) : List Char := '\\' :: 'u' :: Text.hexDigits 4 u

def writeChar (ascii : Bool) (c : Char) : List Char :=
  if c = '"' then ['\\', '"']
  else if c = '\\' then ['\\', '\\']
  else if c = '\n' then ['\\', 'n']
  else if c = '\r' then ['\\', 'r']
  else if c = '\t' then ['\\', 't']
  else if c = '\x08' then ['\\', 'b']
  else if c = '\x0C' then ['\\', 'f']
  else if c.toNat < 0x20 then unitEscape c.toNat
  else if ascii && 0x7F ≤ c.toNat then (Text.utf16Units c).flatMap unitEscape
  else [c]

/-- What stands for a lone surrogate where it cannot be escaped: a character that is in no other
written text. -/
def standIn : Char := '\x00'

def writePoint (ascii : Bool) : Point → List Char
  | .char c => writeChar ascii c
  | .lone u => if ascii then unitEscape u.code else [standIn]

def writeText (ascii : Bool) (t : LooseText) : List Char :=
  '"' :: t.points.flatMap (writePoint ascii) ++ ['"']

def writeInt : Int → List Char
  | .ofNat n => Nat.toDigits 10 n
  | .negSucc n => '-' :: Nat.toDigits 10 (n + 1)

def writeDecimal : Decimal → List Char
  | .finite negative digits exponent =>
    (if negative then ['-'] else []) ++ Nat.toDigits 10 digits ++ 'e' :: writeInt exponent
  | .infinite negative => (if negative then ['-'] else []) ++ "Infinity".toList
  | .nan => "NaN".toList

mutual

def write (l : Layout) (depth : Nat) : Json → List Char
  | .null => "null".toList
  | .bool true => "true".toList
  | .bool false => "false".toList
  | .int n => writeInt n
  | .real x => writeDecimal x
  | .str s => writeText l.ascii s
  | .arr [] => ['[', ']']
  | .arr (v :: vs) =>
    '[' :: l.edge (depth + 1) ++ write l (depth + 1) v ++ writeItems l (depth + 1) vs
      ++ l.edge depth ++ [']']
  | .obj [] => ['{', '}']
  | .obj ((k, v) :: ms) =>
    '{' :: l.edge (depth + 1) ++ writeText l.ascii k ++ ':' :: l.afterColon
      ++ write l (depth + 1) v ++ writeMembers l (depth + 1) ms ++ l.edge depth ++ ['}']

def writeItems (l : Layout) (depth : Nat) : List Json → List Char
  | [] => []
  | v :: vs => l.between depth ++ write l depth v ++ writeItems l depth vs

def writeMembers (l : Layout) (depth : Nat) : List (LooseText × Json) → List Char
  | [] => []
  | (k, v) :: ms =>
    l.between depth ++ writeText l.ascii k ++ ':' :: l.afterColon ++ write l depth v
      ++ writeMembers l depth ms

end

def render (l : Layout) (v : Json) : String := String.ofList (write l 0 v)

/-- Members in ascending order of their keys. -/
def sortMembers (ms : Members) : Members := sortBy (fun a b => decide (a.1 ≤ b.1)) ms

mutual

/-- The value with the keys of every object in ascending order. -/
def sorted : Json → Json
  | .arr vs => .arr (sortedItems vs)
  | .obj ms => .obj (sortMembers (sortedMembers ms))
  | v => v

def sortedItems : List Json → List Json
  | [] => []
  | v :: vs => sorted v :: sortedItems vs

def sortedMembers : List (LooseText × Json) → List (LooseText × Json)
  | [] => []
  | (k, v) :: ms => (k, sorted v) :: sortedMembers ms

end

def canonical (v : Json) : String := render .compact (sorted v)

end OverloadTables.Json
