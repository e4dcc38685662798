import OverloadTables.Trie

/-!
# Index of blocks

A builtin's overloads stand together in the overload table.  The index gives for each name where
its block starts, counted from one, and how many rows it has; start and count zero mean that the
name is none of a builtin.

* `BlockIndex.ofBlocks`    blocks as given, refused if one is not positive or a name comes twice;
* `BlockIndex.ofSizes`     blocks one after the other;
* `BlockIndex.lookup`      start and count of a name.
-/

namespace OverloadTables

/-- Start, counted from one, and count of rows. -/
structure Extent where
  start : Int
  count : Int
  deriving DecidableEq, Repr

/-- A name and its rows. -/
structure Block where
  name : String
  extent : Extent
  deriving DecidableEq, Repr

/-- The blocks in order, and a trie of their names. -/
structure BlockIndex where
  blocks : List Block
  names : Trie Char Extent

namespace BlockIndex

/-- The answer for a name that is none of a builtin. -/
def absent : Extent := ⟨0, 0⟩

/-- Why blocks make no index. -/
inductive Invalid where
  | extent (b : Block)
  | repeated (name : String)
  deriving DecidableEq, Repr

def Invalid.message : Invalid → String
  | .extent b => s!"invalid block for builtin '{b.name}': ({b.extent.start}, {b.extent.count})"
  | .repeated name => s!"builtin '{name}' has more than one block"

/-- The trie with one more block. -/
def addName (names : Trie Char Extent) (b : Block) : Except Invalid (Trie Char Extent) :=
  if b.extent.start < 1 ∨ b.extent.count < 1 then .error (.extent b)
  else if (names.find? b.name.toList).isSome then .error (.repeated b.name)
  else .ok (names.insert b.name.toList b.extent)

def ofBlocks (blocks : List Block) : Except Invalid BlockIndex :=
  return ⟨blocks, ← blocks.foldlM addName .empty⟩

/-- Blocks one after the other, the first from `start` on. -/
def layOut : Int → List (String × Int) → List Block
  | _, [] => []
  | start, (name, count) :: rest => ⟨name, ⟨start, count⟩⟩ :: layOut (start + count) rest

/-- The index of names with their counts of rows. -/
def ofSizes (sizes : List (String × Int)) : Except Invalid BlockIndex :=
  ofBlocks (layOut 1 sizes)

def lookup (ix : BlockIndex) (name : String) : Extent :=
  (ix.names.find? name.toList).getD absent

/-- The name is one of a builtin. -/
def contains (ix : BlockIndex) (name : String) : Bool := ix.lookup name != absent

end BlockIndex
end OverloadTables
