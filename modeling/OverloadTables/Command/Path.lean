/-!
# Paths

A path is kept as its components, without empty ones and single points; a component `..` is kept.
Two slashes at the start, not one nor three, are a root of their own.

* `Path.ofString`      the path of a text;
* `Path.toString`      its normal form; a path without components is a point;
* `Path.parent`        without the last component;
* `Path.hasNull`       a null character in a component.
-/

namespace OverloadTables.Command

/-- Where a path starts. -/
inductive Anchor where
  | here
  | root
  | doubleRoot
  deriving DecidableEq, Repr

/-- A path by its components. -/
structure Path where
  anchor : Anchor
  parts : List String
  deriving DecidableEq, Repr

/-- The pieces of a text between slashes. -/
def splitSlashes : List Char → List (List Char)
  | [] => [[]]
  | c :: cs =>
    if c = '/' then [] :: splitSlashes cs
    else match splitSlashes cs with
      | [] => [[c]]
      | piece :: pieces => (c :: piece) :: pieces

def Anchor.text : Anchor → String
  | .here => ""
  | .root => "/"
  | .doubleRoot => "//"

namespace Path

/-- The anchor of a text that starts with so many slashes. -/
def anchorOf : Nat → Anchor
  | 0 => .here
  | 2 => .doubleRoot
  | _ => .root

def ofString (s : String) : Path :=
  let cs := s.toList
  ⟨anchorOf (cs.takeWhile (· == '/')).length,
    ((splitSlashes cs).map String.ofList).filter fun p => p ≠ "" && p ≠ "."⟩

/-- The normal form of a path. -/
def toString (p : Path) : String :=
  let s := p.anchor.text ++ "/".intercalate p.parts
  if s = "" then "." else s

def hasNull (p : Path) : Bool := p.parts.any fun part => part.toList.contains '\x00'

def parent (p : Path) : Path := { p with parts := p.parts.dropLast }

end Path
end OverloadTables.Command
