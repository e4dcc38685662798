import OverloadTables.Dispatch.Lines
import OverloadTables.Tables.Basic
import OverloadTables.Text.Lines

/-!
# The tables as a Python module

The module imports `AddressSpace` and holds the base types as an enumeration, the record types, the
signature table with a mark before every run, the overload table with the name before every block,
a dispatcher from a name to its block, and a projector from descriptors to semantic types.

* `Source.lines t`     the lines of the module;
* `Source.render t`    its text.
-/

namespace OverloadTables.Source

/-- What keeps tables from being written.  Neither happens to tables built from a catalog. -/
inductive Failure where
  /-- A descriptor has no base type. -/
  | unknownBase (base : Int)
  | dispatch (r : Dispatch.Repeated)
  deriving DecidableEq, Repr

def member (name : String) : String := "T_" ++ name

/-- The label, if there is one that is not empty. -/
def labelLine : Option String → List String
  | none => []
  | some label => if label = "" then [] else ["# catalog: " ++ label]

/-- Where the module comes from, and its imports. -/
def header (t : Tables) : List String :=
  ["# Builtin overload tables. Autogenerated by builtin_tablegen; do not edit."]
    ++ labelLine t.label
    ++ ["# catalog sha256: " ++ t.fingerprint,
      "",
      "from __future__ import annotations",
      "",
      "from enum import IntEnum",
      "from typing import Any, NamedTuple, Tuple",
      "",
      "from builtin_tablegen.core.types_core import AddressSpace",
      ""]

/-- The members of the enumeration, of which the first has the number `i`. -/
def memberLines : Nat → List BaseType → List String
  | _, [] => []
  | i, b :: bs => ("\t" ++ member b.name ++ " = " ++ toString i) :: memberLines (i + 1) bs

def enumeration (bases : List BaseType) : List String :=
  ["", "class TypeID(IntEnum):"] ++ (if bases.isEmpty then ["\tpass"] else memberLines 0 bases)

def recordTypes : List String :=
  ["",
    "",
    "class SignatureType(NamedTuple):",
    "\t\"\"\"Type used in a prototype of a builtin function.\"\"\"",
    "",
    "\t# A type (e.g. float, int, ...)",
    "\ttype_id: TypeID",
    "\t# Size of vector (if applicable)",
    "\tvector_width: int",
    "\t# Address space of the pointer (if applicable)",
    "\taddr_space: AddressSpace",
    "\t# Whether the type is a pointer",
    "\tis_pointer: bool",
    "",
    "",
    "class BuiltinDecl(NamedTuple):",
    "\t\"\"\"One overload of a builtin function.\"\"\"",
    "",
    "\t# Number of types in the signature (return type included)",
    "\tnum_types: int",
    "\t# Index in SIGNATURE_TABLE of the return type",
    "\tsig_index: int",
    "\t# Extension to which it belongs (e.g. cl_khr_subgroups)",
    "\textension: str",
    "\t# Version in which it was introduced (e.g. 200)",
    "\tversion: int",
    ""]

def truth (b : Bool) : String := if b then "True" else "False"

def baseName? (bases : List BaseType) (base : Int) : Option String :=
  if base < 0 then none else (bases[base.toNat]?).map (·.name)

def descriptorLine (bases : List BaseType) (d : Descriptor) : Except Failure String :=
  match baseName? bases d.base with
  | none => .error (.unknownBase d.base)
  | some name => .ok ("\tSignatureType(TypeID." ++ member name ++ ", " ++ toString d.width
      ++ ", AddressSpace." ++ d.space.memberName ++ ", " ++ truth d.pointer ++ "),")

/-- A run of the signature table after its mark. -/
def runLines (t : Tables) (r : Run) : Except Failure (List String) :=
  return ("\t# " ++ toString r.start) :: (← (t.run r).mapM (descriptorLine t.bases))

/-- The signature table, run by run. -/
def signatureTable (t : Tables) : Except Failure (List String) :=
  return ["", "SIGNATURE_TABLE: Tuple[SignatureType, ...] = ("]
    ++ (← t.runs.mapM (runLines t)).flatten ++ [")", ""]

def rowLine (r : Row) : String :=
  "\tBuiltinDecl(" ++ toString r.length ++ ", " ++ toString r.start ++ ", "
    ++ Text.quote r.extension ++ ", " ++ toString r.version ++ "),"

/-- A block of the overload table after its name. -/
def blockLines (t : Tables) (b : Block) : List String :=
  ("\t# " ++ b.name) :: (t.rowsAt b.extent).map rowLine

/-- The overload table, block by block. -/
def overloadTable (t : Tables) : List String :=
  ["", "BUILTIN_TABLE: Tuple[BuiltinDecl, ...] = ("] ++ t.index.blocks.flatMap (blockLines t)
    ++ [")", ""]

/-- The statement that answers with an extent. -/
def answer (e : Extent) : String :=
  "return (" ++ toString e.start ++ ", " ++ toString e.count ++ ")"

def dispatchCases (ix : BlockIndex) : List Dispatch.Case :=
  ix.blocks.map fun b => ⟨b.name, answer b.extent⟩

/-- How the dispatcher calls the name it is asked for. -/
def dispatchNames : Dispatch.Names := ⟨"name", "length", "\t"⟩

/-- The body of the dispatcher before its last answer. -/
def dispatchBody (ix : BlockIndex) : Except Failure (List String) :=
  if ix.blocks.isEmpty then .ok []
  else return ["\tif not isinstance(name, str):", "\t\treturn (0, 0)", "\tlength = len(name)"]
    ++ (← (Dispatch.render dispatchNames (dispatchCases ix)).mapError .dispatch)

def dispatcher (ix : BlockIndex) : Except Failure (List String) :=
  return ["",
      "def is_builtin(name: str) -> Tuple[int, int]:",
      "\t\"\"\"",
      "\tReturn (0, 0) if `name` is not a recognized builtin, else (start, count)",
      "\twhere BUILTIN_TABLE[start - 1 : start - 1 + count] are its overloads.",
      "\t\"\"\""]
    ++ (← dispatchBody ix) ++ ["\treturn (0, 0)", ""]

/-- The chain from a base type to its concrete type; abstract bases are left out, and `opens` holds
before the first branch. -/
def concreteChain : Bool → List BaseType → List String
  | _, [] => []
  | opens, b :: bs =>
    match b.concrete with
    | none => concreteChain opens bs
    | some concrete =>
      ("\t" ++ (if opens then "if" else "elif") ++ " ty.type_id == TypeID." ++ member b.name ++ ":")
        :: ("\t\trt = ctx.ensure_builtin(" ++ Text.quote concrete ++ ")") :: concreteChain false bs

/-- The projector from descriptors to semantic types. -/
def projector (bases : List BaseType) : List String :=
  ["",
      "def project_type(ctx: Any, ty: SignatureType) -> Any:",
      "\t\"\"\"Return the semantic type `ctx` associates with a SignatureType entry.\"\"\"",
      "\trt = ctx.ensure_void()"]
    ++ concreteChain true bases
    ++ ["",
      "\tif ty.vector_width > 0:",
      "\t\trt = ctx.ensure_ext_vector(rt, ty.vector_width)",
      "",
      "\tif ty.is_pointer:",
      "\t\trt = ctx.ensure_addr_space_qual(rt, ty.addr_space)",
      "\t\trt = ctx.ensure_pointer(rt)",
      "",
      "\treturn rt"]

def lines (t : Tables) : Except Failure (List String) :=
  return header t ++ enumeration t.bases ++ recordTypes ++ (← signatureTable t)
    ++ overloadTable t ++ (← dispatcher t.index) ++ projector t.bases

def render (t : Tables) : Except Failure String :=
  return Text.joinLines (← lines t) ++ "\n"

end OverloadTables.Source
