/-!
# Address spaces

The memory regions a pointer type may be qualified with.

* `AddressSpace.spelling`      the name in catalogs and documents;
* `AddressSpace.memberName`    the name in the emitted module;
* `AddressSpace.ofName?`       a bare or qualified name; what follows the last `::` counts.
-/

namespace OverloadTables

/-- A memory region. -/
inductive AddressSpace where
  | default
  | openclGlobal
  | openclLocal
  | openclConstant
  | openclPrivate
  | openclGeneric
  deriving DecidableEq, Repr, Inhabited

namespace AddressSpace

def all : List AddressSpace :=
  [.default, .openclGlobal, .openclLocal, .openclConstant, .openclPrivate, .openclGeneric]

/-- The name in catalogs and documents. -/
def spelling : AddressSpace → String
  | .default => "Default"
  | .openclGlobal => "opencl_global"
  | .openclLocal => "opencl_local"
  | .openclConstant => "opencl_constant"
  | .openclPrivate => "opencl_private"
  | .openclGeneric => "opencl_generic"

/-- The name in the emitted module. -/
def memberName : AddressSpace → String
  | .default => "DEFAULT"
  | .openclGlobal => "OPENCL_GLOBAL"
  | .openclLocal => "OPENCL_LOCAL"
  | .openclConstant => "OPENCL_CONSTANT"
  | .openclPrivate => "OPENCL_PRIVATE"
  | .openclGeneric => "OPENCL_GENERIC"

/-- The address space of a bare name. -/
def ofSpelling? (s : String) : Option AddressSpace := all.find? (·.spelling = s)

/-- The characters before the first two colons in a row. -/
def beforeColons : List Char → List Char
  | [] => []
  | ':' :: ':' :: _ => []
  | c :: cs => c :: beforeColons cs

/-- The part of a qualified name after its last two colons in a row. -/
def lastComponent (s : String) : String := String.ofList (beforeColons s.toList.reverse).reverse

/-- The address space of a bare or qualified name. -/
def ofName? (name : String) : Option AddressSpace := ofSpelling? (lastComponent name)

end AddressSpace
end OverloadTables
