import OverloadTables.Sorting

/-!
# Decision trees over strings

Candidates of one length are told apart character by character.  Where all that remain agree, the
run they share is tested as a whole; where they differ, the tree forks.  A single candidate is
tested by all that is left of it.

* `Tree.build n ks`    the tree of candidates with `n` characters left;
* `Tree.find? t cs`    the statement the tree has for a string.
-/

namespace OverloadTables.Dispatch

/-- What is left of a string, and its statement. -/
structure Candidate where
  rest : List Char
  body : String
  deriving DecidableEq, Repr

mutual

/-- Tests from one position on. -/
inductive Tree where
  /-- The rest of the string is `rest`. -/
  | leaf (rest : List Char) (body : String)
  /-- The next characters are `shared`, and the one after them decides. -/
  | fork (shared : List Char) (arms : Arms)

/-- The branches of a fork. -/
inductive Arms where
  | nil
  | cons (c : Char) (branch : Tree) (more : Arms)

end

namespace Arms

def ofList : List (Char × Tree) → Arms
  | [] => .nil
  | (c, t) :: rest => .cons c t (ofList rest)

end Arms

/-- The characters that candidates go on with, ascending, each once. -/
def heads (ks : List Candidate) : List Char :=
  ascending (fun a b => decide (a < b)) (ks.filterMap (·.rest.head?))

/-- A candidate after the character `c`, if it goes on with it. -/
def Candidate.after? (c : Char) (k : Candidate) : Option Candidate :=
  match k.rest with
  | [] => none
  | d :: rest => if d = c then some ⟨rest, k.body⟩ else none

/-- The candidates that go on with `c`, after it. -/
def after (c : Char) (ks : List Candidate) : List Candidate := ks.filterMap (·.after? c)

namespace Tree

/-- The tree with one more character in front of its first test. -/
def extend (c : Char) : Tree → Tree
  | .leaf rest body => .leaf (c :: rest) body
  | .fork shared arms => .fork (c :: shared) arms

/-- The tree of candidates that have `n` characters left. -/
def build : Nat → List Candidate → Tree
  | _, [] => .fork [] .nil
  | _, [k] => .leaf k.rest k.body
  | 0, k :: _ => .leaf k.rest k.body
  | n + 1, ks =>
    match heads ks with
    | [c] => (build n (after c ks)).extend c
    | cs => .fork [] (.ofList (cs.map fun c => (c, build n (after c ks))))

end Tree

mutual

/-- The statement of the string whose remaining characters are given. -/
def Tree.find? : Tree → List Char → Option String
  | .leaf rest body, cs => if cs = rest then some body else none
  | .fork shared arms, cs =>
    if cs.take shared.length = shared then
      match cs.drop shared.length with
      | [] => none
      | c :: cs => arms.find? c cs
    else none

def Arms.find? : Arms → Char → List Char → Option String
  | .nil, _, _ => none
  | .cons c' t more, c, cs => if c = c' then t.find? cs else more.find? c cs

end

end OverloadTables.Dispatch
