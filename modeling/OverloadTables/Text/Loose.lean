import OverloadTables.Text.Identifier
import OverloadTables.Text.Quoted

/-!
# Texts with lone surrogates

A text is a run of code points.  A surrogate may be one of them, though no encoding has bytes for it.
Such a text is kept as strings with lone surrogates between them; a text without any is one string.

* `Surrogate`              a surrogate, counted from U+D800;
* `LooseText`              a text, which may hold lone surrogates;
* `LooseText.points`       its code points, and `ofPoints` the text of code points;
* `LooseText.join`         texts one after the other;
* `LooseText.shown`        the string with an escape for each lone surrogate.
-/

namespace OverloadTables

/-- A surrogate, counted from U+D800. -/
abbrev Surrogate := Fin 0x800

def Surrogate.code (u : Surrogate) : Nat := 0xD800 + u.val

/-- A code point. -/
inductive Point where
  | char (c : Char)
  | lone (u : Surrogate)
  deriving DecidableEq, Repr

def Point.code : Point → Nat
  | .char c => c.toNat
  | .lone u => u.code

/-- A text whose code points may be surrogates. -/
inductive LooseText where
  | text (s : String)
  /-- A string up to the first lone surrogate, and what follows it. -/
  | lone (before : String) (u : Surrogate) (rest : LooseText)
  deriving DecidableEq, Repr

instance : Coe String LooseText := ⟨.text⟩

namespace LooseText

def append : LooseText → LooseText → LooseText
  | .text s, .text t => .text (s ++ t)
  | .text s, .lone before u rest => .lone (s ++ before) u rest
  | .lone before u rest, t => .lone before u (append rest t)

instance : Append LooseText := ⟨append⟩

/-- Texts one after the other. -/
def join : List LooseText → LooseText
  | [] => .text ""
  | t :: ts => t ++ join ts

/-! ## code points -/

def points : LooseText → List Point
  | .text s => s.toList.map .char
  | .lone before u rest => before.toList.map .char ++ .lone u :: rest.points

/-- The characters in front of the first lone surrogate, and what stands from it on. -/
def cutPoints : List Point → List Char × Option (Surrogate × LooseText)
  | [] => ([], none)
  | .char c :: ps =>
    let (cs, more) := cutPoints ps
    (c :: cs, more)
  | .lone u :: ps =>
    match cutPoints ps with
    | (cs, none) => ([], some (u, .text (String.ofList cs)))
    | (cs, some (v, rest)) => ([], some (u, .lone (String.ofList cs) v rest))

def ofPoints (ps : List Point) : LooseText :=
  match cutPoints ps with
  | (cs, none) => .text (String.ofList cs)
  | (cs, some (u, rest)) => .lone (String.ofList cs) u rest

def codes (t : LooseText) : List Nat := t.points.map Point.code

/-- Texts are ordered by their code points. -/
instance : LE LooseText := ⟨fun s t => List.le s.codes t.codes⟩

instance (s t : LooseText) : Decidable (s ≤ t) := List.decidableLE s.codes t.codes

/-! ## strings -/

/-- The text without its lone surrogates. -/
def plain : LooseText → String
  | .text s => s
  | .lone before _ rest => before ++ rest.plain

/-- What stands after the last lone surrogate. -/
def last : LooseText → String
  | .text s => s
  | .lone _ _ rest => rest.last

/-- The text with an escape for each lone surrogate, as it goes to the error output. -/
def shown : LooseText → String
  | .text s => s
  | .lone before u rest => before ++ String.ofList (Text.codePointEscape u.code) ++ rest.shown

/-! ## kinds of texts -/

/-- A surrogate is in no identifier. -/
def isIdentifier : LooseText → Bool
  | .text s => Text.isIdentifier s
  | .lone _ _ _ => false

/-- A surrogate is not printable. -/
def allPrintable : LooseText → Bool
  | .text s => Text.allPrintable s
  | .lone _ _ _ => false

/-- A code point inside a literal with the quote `q`. -/
def quotedPoint (q : Char) : Point → List Char
  | .char c => Text.quotedChar q c
  | .lone u => Text.codePointEscape u.code

/-- The literal of a text, in which lone surrogates are escaped. -/
def quote (t : LooseText) : String :=
  let q := Text.quoteMark t.plain.toList
  String.ofList (q :: t.points.flatMap (quotedPoint q) ++ [q])

end LooseText
end OverloadTables
