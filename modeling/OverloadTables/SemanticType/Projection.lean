import OverloadTables.SemanticType.Table
import OverloadTables.Signature.Descriptor

/-!
# From descriptors to semantic types

A descriptor is projected by asking a supplier for types, in a fixed order: void, the concrete type
of the base if it has one, a vector if the width is positive, and for a pointer the qualified type
and the pointer to it.

* `TypeSupplier`         what can be asked for;
* `project`              the type of a descriptor, by any supplier;
* `TypeTable.supplier`   a table of types as a supplier.
-/

namespace OverloadTables

/-- A supplier of types; `m` is what happens while it is asked, `τ` is how it names types. -/
structure TypeSupplier (m : Type → Type) (τ : Type) where
  void : m τ
  builtin : String → m τ
  vector : τ → Int → m τ
  qualify : τ → AddressSpace → m τ
  pointer : τ → m τ

/-- The concrete type of a base; an abstract base and a number out of range have none. -/
def concreteOf (concretes : List (Option String)) (base : Int) : Option String :=
  if base < 0 then none else (concretes[base.toNat]?).join

/-- The type of a descriptor. -/
def project {m : Type → Type} {τ : Type} [Monad m] (supply : TypeSupplier m τ)
    (concretes : List (Option String)) (d : Descriptor) : m τ := do
  let t ← supply.void
  let t ← match concreteOf concretes d.base with
    | none => pure t
    | some name => supply.builtin name
  let t ← if d.width > 0 then supply.vector t d.width else pure t
  if d.pointer then
    let t ← supply.qualify t d.space
    supply.pointer t
  else pure t

namespace TypeTable

/-- A supplier that is asked with requests. -/
def supplierOf {m : Type → Type} (ask : Request → m Int) : TypeSupplier m Int where
  void := ask .void
  builtin name := ask (.builtin name)
  vector element width := ask (.vector element width)
  qualify inner space := ask (.qualify inner space)
  pointer pointee := ask (.pointer pointee)

/-- Questions to a table of types, which grows with the answers. -/
abbrev Asking := StateT TypeTable (Except TypeFault)

def ask (r : Request) : Asking Int := fun t => t.request r

def supplier : TypeSupplier Asking Int := supplierOf ask

end TypeTable
end OverloadTables
