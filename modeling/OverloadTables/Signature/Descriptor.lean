import OverloadTables.AddressSpace

/-!
# Type descriptors

* `Descriptor`         one entry of the signature table;
* `Signature`          the descriptors of an overload, the return type first.
-/

namespace OverloadTables

/-- A type in a signature: a base type by number, made a vector if the width is not zero, and a
pointer into an address space if it is one. -/
structure Descriptor where
  base : Int
  width : Int
  space : AddressSpace
  pointer : Bool
  deriving DecidableEq, Repr

/-- The return type, then the parameters. -/
abbrev Signature := List Descriptor

end OverloadTables
