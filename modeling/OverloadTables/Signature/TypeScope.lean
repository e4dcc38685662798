import OverloadTables.Catalog.Basic
import OverloadTables.Catalog.Fault
import OverloadTables.Signature.Descriptor

/-!
# Types in scope

The base types of a catalog, numbered in the order of first mention, and a descriptor for the key
of every declared type.  Types of one base agree on the concrete type; a key may be declared again
only with the same fields.

What is known of a base (its name, its concrete type, the type that brought it in) is one record, at
the place of its number, and what is known of a key (its declaration and its descriptor) is one
record as well.  The parts of a record become known together, in one declaration, and none of them
changes later.  Five accumulators for the five parts (numbers by name, concrete types and owners by
number, declarations and descriptors by key) would have the same length in two groups, and the same
keys, after every declaration.

* `TypeScope.declare`      one declaration more;
* `TypeScope.ofDeclared`   declarations in order, up to the first conflict;
* `TypeScope.descriptor?`  the descriptor of a key.
-/

namespace OverloadTables

/-- A base type and the concrete type it stands for, in texts of some kind; an abstract base has
none. -/
structure BaseType (τ : Type := String) where
  name : τ
  concrete : Option τ
  deriving DecidableEq, Repr

def BaseType.map {τ σ : Type} (f : τ → σ) (b : BaseType τ) : BaseType σ :=
  ⟨f b.name, b.concrete.map f⟩

/-- A base type with the key of the type that brought it in. -/
structure OwnedBase where
  base : BaseType LooseText
  owner : LooseText
  deriving DecidableEq, Repr

/-- A declared type with its descriptor. -/
structure Entry where
  source : Located DeclaredType
  descriptor : Descriptor
  deriving DecidableEq, Repr

/-- The base types by number, and the declared types. -/
structure TypeScope where
  owned : List OwnedBase
  entries : List Entry
  deriving DecidableEq, Repr

namespace TypeScope

def empty : TypeScope := ⟨[], []⟩

def bases (s : TypeScope) : List (BaseType LooseText) := s.owned.map (·.base)

def entry? (s : TypeScope) (key : LooseText) : Option Entry :=
  s.entries.find? (·.source.value.key = key)

def descriptor? (s : TypeScope) (key : LooseText) : Option Descriptor :=
  (s.entry? key).map (·.descriptor)

/-- The number of a base name and what is known of it; `i` is the number of the first one. -/
def findBase? (name : LooseText) : Nat → List OwnedBase → Option (Nat × OwnedBase)
  | _, [] => none
  | i, b :: bs => if b.base.name = name then some (i, b) else findBase? name (i + 1) bs

/-- The entry of a declaration whose base has the number `i`. -/
def entryOf (d : Located DeclaredType) (i : Nat) : Entry :=
  ⟨d, ⟨i, d.value.width, d.value.space, d.value.pointer⟩⟩

/-- A type with a new key: its base is known and must agree, or is numbered next. -/
def add (s : TypeScope) (d : Located DeclaredType) : Except Rejection TypeScope :=
  match findBase? d.value.name 0 s.owned with
  | none =>
    .ok ⟨s.owned ++ [⟨⟨d.value.name, d.value.concrete⟩, d.value.key⟩],
      s.entries ++ [entryOf d s.owned.length]⟩
  | some (i, b) =>
    if b.base.concrete = d.value.concrete then .ok { s with entries := s.entries ++ [entryOf d i] }
    else .error ⟨.concreteConflict d.value.name b.base.concrete d.value.concrete b.owner,
      d.place.member "qual_type"⟩

/-- One declaration more: the name, the width, the key and the concrete type are checked in this
order. -/
def declare (s : TypeScope) (d : Located DeclaredType) : Except Rejection TypeScope :=
  if !d.value.name.isIdentifier then
    .error ⟨.invalidTypeName d.value.name, d.place.member "name"⟩
  else if d.value.width < 0 then
    .error ⟨.negativeWidth d.value.key d.value.width, d.place.member "vec_width"⟩
  else match s.entry? d.value.key with
    | some e =>
      if e.source.value = d.value then .ok s
      else .error ⟨.typeConflict d.value.key e.source.place, d.place⟩
    | none => s.add d

/-- The types in scope after declarations in order. -/
def ofDeclared (ds : List (Located DeclaredType)) : Except Rejection TypeScope :=
  ds.foldlM declare empty

end TypeScope
end OverloadTables
