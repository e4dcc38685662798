import OverloadTables.Diagnostic
import OverloadTables.Json.Reader
import OverloadTables.Text.Quoted

/-!
# Faults of a catalog

Everything a catalog can be refused for, as causes; the code, the wording and the notes of each are
functions of the cause.

* `Fault`              the causes, those of one record before those across records;
* `Fault.message`      what is told of a cause, if every integer in it can be written;
* `Rejection`          a cause with the place of the culprit;
* `Rejection.diagnostic`   what is told of it.
-/

namespace OverloadTables

/-- Why a catalog is refused. -/
inductive Fault where
  /-- The file is not JSON. -/
  | syntaxError (e : Json.SyntaxError)
  | notAnObject
  | unsupportedHeader
  | labelNotText
  | sectionNotList (key : String)
  | entryNotObject (key : String)
  | expectedNonEmptyText (key : String)
  | expectedText (key : String)
  | expectedInteger (key : String)
  | expectedBoolean (key : String)
  | missingNumber
  | unknownAddressSpace (name : LooseText)
  | invalidConcreteType
  | unprintableName (name : LooseText)
  | missingSignature (name : LooseText)
  | invalidTypeReference
  | invalidVersionReference
  /-- A type name that is no identifier. -/
  | invalidTypeName (name : LooseText)
  | negativeWidth (key : LooseText) (width : Int)
  /-- A key declared again with other fields; `first` is the earlier place. -/
  | typeConflict (key : LooseText) (first : Place)
  /-- A base name with two concrete types; `owner` is the key that gave the first. -/
  | concreteConflict (name : LooseText) (first second : Option LooseText) (owner : LooseText)
  | versionConflict (key : LooseText) (first second : Int)
  | invalidName (name : LooseText)
  | emptySignature (name : LooseText)
  | undeclaredType (name key : LooseText)
  | missingVersion (name : LooseText)
  | undeclaredVersion (name key : LooseText)
  deriving DecidableEq, Repr

namespace Fault

def code : Fault → String
  | .syntaxError _ | .notAnObject | .unsupportedHeader => "E-CATALOG-FORMAT"
  | .unknownAddressSpace _ => "E-TYPE-ADDRSPACE"
  | .typeConflict _ _ => "E-TYPE-DUP"
  | .concreteConflict _ _ _ _ => "E-TYPE-QUAL"
  | .versionConflict _ _ _ => "E-VERSION-DUP"
  | .emptySignature _ => "E-SIG-EMPTY"
  | .undeclaredType _ _ => "E-TYPE-UNDECLARED"
  | .missingVersion _ | .undeclaredVersion _ _ => "E-VERSION-MISSING"
  | _ => "E-CATALOG-FIELD"

def phase : Fault → String
  | .versionConflict _ _ _ | .invalidName _ | .emptySignature _ | .undeclaredType _ _
  | .missingVersion _ | .undeclaredVersion _ _ => "tables"
  | _ => "catalog"

/-- A concrete type as messages show it. -/
def showConcrete : Option LooseText → LooseText
  | none => "null"
  | some t => if t = "" then "null" else t

def message : Fault → LooseText
  | .syntaxError e =>
    "catalog is not valid JSON: " ++ e.fault.message ++ " (line " ++ toString e.line ++ ")"
  | .notAnObject => "catalog must be a JSON object"
  | .unsupportedHeader => "unsupported catalog format/version"
  | .labelNotText => "catalog name must be a string"
  | .sectionNotList key => "catalog '" ++ key ++ "' must be a list"
  | .entryNotObject key => "'" ++ key ++ "' entries must be JSON objects"
  | .expectedNonEmptyText key => "missing or invalid '" ++ key ++ "' (expected non-empty string)"
  | .expectedText key => "invalid '" ++ key ++ "' (expected string)"
  | .expectedInteger key => "invalid '" ++ key ++ "' (expected integer)"
  | .expectedBoolean key => "invalid '" ++ key ++ "' (expected boolean)"
  | .missingNumber => "missing 'version'"
  | .unknownAddressSpace name => "unknown address space '" ++ name ++ "'"
  | .invalidConcreteType => "invalid 'qual_type' (expected type name or \"null\")"
  | .unprintableName name => "builtin name " ++ name.quote ++ " contains non-printable characters"
  | .missingSignature name => "builtin '" ++ name ++ "' is missing its signature list"
  | .invalidTypeReference => "signature entries must be type record names"
  | .invalidVersionReference => "invalid 'version' (expected version record name)"
  | .invalidTypeName name => "type name '" ++ name ++ "' is not a valid identifier"
  | .negativeWidth key width => "type '" ++ key ++ "' has negative vector width " ++ toString width
  | .typeConflict key _ => "type '" ++ key ++ "' is declared twice with different fields"
  | .concreteConflict name first second _ =>
    "type name '" ++ name ++ "' maps to both '" ++ showConcrete first ++ "' and '"
      ++ showConcrete second ++ "'"
  | .versionConflict key first second =>
    "version '" ++ key ++ "' is declared as both " ++ toString first ++ " and " ++ toString second
  | .invalidName name => "builtin name " ++ name.quote ++ " must be a non-empty printable string"
  | .emptySignature name =>
    "builtin '" ++ name ++ "' has an empty signature (a return type is required)"
  | .undeclaredType name key => "builtin '" ++ name ++ "' references undeclared type '" ++ key ++ "'"
  | .missingVersion name => "builtin '" ++ name ++ "' has no version reference"
  | .undeclaredVersion name key =>
    "builtin '" ++ name ++ "' references undeclared version '" ++ key ++ "'"

def notes : Fault → List LooseText
  | .unsupportedHeader => ["expected format 'builtin-catalog' version 0"]
  | .typeConflict _ first => ["first declared at " ++ first.text]
  | .concreteConflict _ _ _ owner => ["first mapping from type '" ++ owner ++ "'"]
  | _ => []

/-- The integers that the message writes. -/
def integers : Fault → List Int
  | .negativeWidth _ width => [width]
  | .versionConflict _ first second => [first, second]
  | _ => []

/-- The message can be written. -/
def Writable (f : Fault) : Prop := ∀ n ∈ f.integers, Text.withinLimit n = true

instance (f : Fault) : Decidable f.Writable :=
  inferInstanceAs (Decidable (∀ n ∈ f.integers, Text.withinLimit n = true))

end Fault

/-- A fault and the place of its culprit. -/
structure Rejection where
  fault : Fault
  place : Place
  deriving DecidableEq, Repr

def Rejection.diagnostic (r : Rejection) : Diagnostic :=
  ⟨r.fault.message, some r.fault.code, some r.fault.phase, "error", r.place, r.fault.notes⟩

end OverloadTables
