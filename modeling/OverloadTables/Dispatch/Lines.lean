import OverloadTables.Dispatch.Tree
import OverloadTables.Text.Quoted

/-!
# Dispatch on a string as lines of source

Strings are told apart by length first and then by a decision tree.  The source is a list of lines,
each with its depth and either a test that opens a deeper block or a statement.

* `Line`               a line before it is written out;
* `lines cases`        the lines that run the statement of a string, none for an unknown one;
* `Line.render`        a line as text.
-/

namespace OverloadTables.Dispatch

/-- A test of the subject. -/
inductive Test where
  /-- The subject has this length. -/
  | length (n : Nat)
  /-- From `start` on, the subject is `text`. -/
  | tail (start : Nat) (text : List Char)
  /-- From `start` up to `stop`, the subject is `text`. -/
  | slice (start stop : Nat) (text : List Char)
  /-- At `position`, the subject has the character `c`. -/
  | char (position : Nat) (c : Char)
  deriving DecidableEq, Repr

/-- What stands on a line. -/
inductive Content where
  /-- The first test of a chain. -/
  | ifTest (t : Test)
  /-- A further test of a chain. -/
  | elifTest (t : Test)
  | statement (body : String)
  deriving DecidableEq, Repr

/-- A line and how deep it stands. -/
structure Line where
  depth : Nat
  content : Content
  deriving DecidableEq, Repr

/-- A test that opens a chain, or goes on with it. -/
def Content.test (opens : Bool) (t : Test) : Content := if opens then .ifTest t else .elifTest t

mutual

/-- The lines of a tree whose tests start at a position. -/
def Tree.lines (position depth : Nat) : Tree → List Line
  | .leaf [] body => [⟨depth, .statement body⟩]
  | .leaf (c :: rest) body =>
    [⟨depth, .ifTest (.tail position (c :: rest))⟩, ⟨depth + 1, .statement body⟩]
  | .fork [] arms => arms.lines position depth true
  | .fork (c :: shared) arms =>
    ⟨depth, .ifTest (.slice position (position + shared.length + 1) (c :: shared))⟩
      :: arms.lines (position + shared.length + 1) (depth + 1) true

/-- The lines of the branches of a fork; `opens` holds for the first one. -/
def Arms.lines (position depth : Nat) (opens : Bool) : Arms → List Line
  | .nil => []
  | .cons c t more =>
    ⟨depth, .test opens (.char position c)⟩ :: t.lines (position + 1) (depth + 1)
      ++ more.lines position depth false

end

/-- A string and the statement to run for it. -/
structure Case where
  text : String
  body : String
  deriving DecidableEq, Repr

def Case.length (k : Case) : Nat := k.text.toList.length

/-- The first string that is among those before it, of which `seen` are given. -/
def firstRepeated? : List String → List Case → Option String
  | _, [] => none
  | seen, k :: ks => if k.text ∈ seen then some k.text else firstRepeated? (k.text :: seen) ks

/-- The cases of one length as candidates. -/
def ofLength (n : Nat) (cases : List Case) : List Candidate :=
  (cases.filter (·.length = n)).map fun k => ⟨k.text.toList, k.body⟩

/-- The lengths of the cases, ascending, each once. -/
def lengths (cases : List Case) : List Nat :=
  ascending (fun a b => decide (a < b)) (cases.map (·.length))

/-- The lines for the given lengths; `opens` holds for the first one. -/
def linesOfLengths (cases : List Case) : Bool → List Nat → List Line
  | _, [] => []
  | opens, n :: ns =>
    ⟨0, .test opens (.length n)⟩ :: (Tree.build n (ofLength n cases)).lines 0 1
      ++ linesOfLengths cases false ns

/-- A string comes twice. -/
structure Repeated where
  text : String
  deriving DecidableEq, Repr

def Repeated.message (r : Repeated) : String := s!"duplicate string '{r.text}' in matcher"

/-- The lines that run the statement of the subject. -/
def lines (cases : List Case) : Except Repeated (List Line) :=
  match firstRepeated? [] cases with
  | some text => .error ⟨text⟩
  | none => .ok (linesOfLengths cases true (lengths cases))

/-- How the subject and its length are called, and what stands before every line. -/
structure Names where
  subject : String
  length : String
  indent : String
  deriving DecidableEq, Repr

def literal (cs : List Char) : String := String.ofList (Text.quoteChars cs)

def Test.render (n : Names) : Test → String
  | .length k => n.length ++ " == " ++ toString k
  | .tail start text => n.subject ++ "[" ++ toString start ++ ":] == " ++ literal text
  | .slice start stop text =>
    n.subject ++ "[" ++ toString start ++ ":" ++ toString stop ++ "] == " ++ literal text
  | .char position c => n.subject ++ "[" ++ toString position ++ "] == " ++ literal [c]

def Content.render (n : Names) : Content → String
  | .ifTest t => "if " ++ t.render n ++ ":"
  | .elifTest t => "elif " ++ t.render n ++ ":"
  | .statement body => body

/-- A line as text, a tab for each step of depth. -/
def Line.render (n : Names) (l : Line) : String :=
  n.indent ++ String.ofList (List.replicate l.depth '\t') ++ l.content.render n

def render (n : Names) (cases : List Case) : Except Repeated (List String) :=
  (lines cases).map fun ls => ls.map (·.render n)

end OverloadTables.Dispatch
