import OverloadTables.AddressSpace
import OverloadTables.Place
import OverloadTables.Text.Loose

/-!
# Catalogs

A catalog declares versions, types and overloads of builtin functions, in order.  Declarations
refer to one another by key.  Where a declaration stands in its document is kept beside it and is
no part of what it says.  The texts of a declaration may hold lone surrogates.

* `Located`            a declaration with its place;
* `Catalog.content`    the declarations without their places.
-/

namespace OverloadTables

/-- A declaration with the place it stands at. -/
structure Located (α : Type) where
  value : α
  place : Place
  deriving DecidableEq, Repr

/-- A language version, such as `CL20` with the number 200. -/
structure Version where
  key : LooseText
  number : Int
  deriving DecidableEq, Repr

/-- A type that signatures may mention.  Several types may share one base name, as a scalar and its
vectors do. -/
structure DeclaredType where
  key : LooseText
  name : LooseText
  /-- Zero for a scalar. -/
  width : Int
  space : AddressSpace
  pointer : Bool
  /-- The concrete type the base stands for; an abstract base has none. -/
  concrete : Option LooseText
  deriving DecidableEq, Repr

/-- One overload of a builtin function. -/
structure Overload where
  name : LooseText
  /-- Type keys: the return type, then the parameters. -/
  signature : List LooseText
  /-- The key of the version that introduced it. -/
  version : Option LooseText
  extension : LooseText
  deriving DecidableEq, Repr

/-- Declarations in order. -/
structure Content where
  types : List DeclaredType
  overloads : List Overload
  versions : List Version
  label : Option LooseText
  deriving DecidableEq, Repr

/-- Declarations with their places, in order. -/
structure Catalog where
  types : List (Located DeclaredType)
  overloads : List (Located Overload)
  versions : List (Located Version)
  label : Option LooseText
  file : Option String
  deriving DecidableEq, Repr

/-- The declarations without their places. -/
def Catalog.content (c : Catalog) : Content :=
  ⟨c.types.map (·.value), c.overloads.map (·.value), c.versions.map (·.value), c.label⟩

end OverloadTables
