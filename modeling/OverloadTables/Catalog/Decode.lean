import OverloadTables.Catalog.Basic
import OverloadTables.Catalog.Fault
import OverloadTables.Text.Lines

/-!
# Reading a catalog

A JSON document is checked record by record and turned into declarations.  References between
records are not looked at here.

* `Catalog.ofJson`     a decoded document;
* `Catalog.ofText`     the text of a file;
* `Catalog.ofBytes`    the bytes of a file, which must be UTF-8.
-/

namespace OverloadTables

/-- Reading stops at the first fault. -/
abbrev Decoded (α : Type) := Except Rejection α

namespace Catalog

/-- A member that must be a text that is not empty. -/
def requiredText (ms : Members) (key : String) (place : Place) : Decoded LooseText :=
  match ms.get? key with
  | some (.str s) =>
    if s = "" then .error ⟨.expectedNonEmptyText key, place.member key⟩ else .ok s
  | _ => .error ⟨.expectedNonEmptyText key, place.member key⟩

/-- A text that may be left out. -/
def optionalText (ms : Members) (key : String) (place : Place) (absent : LooseText) :
    Decoded LooseText :=
  match ms.get? key with
  | none => .ok absent
  | some (.str s) => .ok s
  | some _ => .error ⟨.expectedText key, place.member key⟩

def optionalInteger (ms : Members) (key : String) (place : Place) (absent : Int) : Decoded Int :=
  match ms.get? key with
  | none => .ok absent
  | some (.int n) => .ok n
  | some _ => .error ⟨.expectedInteger key, place.member key⟩

def optionalBoolean (ms : Members) (key : String) (place : Place) (absent : Bool) : Decoded Bool :=
  match ms.get? key with
  | none => .ok absent
  | some (.bool b) => .ok b
  | some _ => .error ⟨.expectedBoolean key, place.member key⟩

def versionOfJson (ms : Members) (place : Place) : Decoded Version := do
  let key ← requiredText ms "def" place
  if (ms.get? "version").isNone then throw ⟨.missingNumber, place.member "version"⟩
  let number ← optionalInteger ms "version" place 0
  return ⟨key, number⟩

/-- The address space of a name.  Two colons in a row stand between texts without lone surrogates, so
what follows the last lone surrogate is a name if there are such colons in it. -/
def spaceOf? : LooseText → Option AddressSpace
  | .text s => AddressSpace.ofName? s
  | .lone _ _ rest =>
    if AddressSpace.lastComponent rest.last = rest.last then none
    else AddressSpace.ofName? rest.last

/-- The concrete type of a type record: absent, null and the text `null` all mean none. -/
def concreteOfJson (ms : Members) (place : Place) : Decoded (Option LooseText) :=
  match ms.get? "qual_type" with
  | none | some .null => .ok none
  | some (.str s) =>
    if s = "null" then .ok none
    else if s = "" then .error ⟨.invalidConcreteType, place.member "qual_type"⟩
    else .ok (some s)
  | some _ => .error ⟨.invalidConcreteType, place.member "qual_type"⟩

def typeOfJson (ms : Members) (place : Place) : Decoded DeclaredType := do
  let key ← requiredText ms "def" place
  let name ← requiredText ms "name" place
  let width ← optionalInteger ms "vec_width" place 0
  let spaceName ← optionalText ms "addr_space" place AddressSpace.default.spelling
  let space ← match spaceOf? spaceName with
    | some space => pure space
    | none => throw ⟨.unknownAddressSpace spaceName, place.member "addr_space"⟩
  let pointer ← optionalBoolean ms "is_pointer" place false
  let concrete ← concreteOfJson ms place
  return ⟨key, name, width, space, pointer, concrete⟩

/-- The type references of a signature, of which the first is item `i`. -/
def referencesOfJson (place : Place) : Nat → List Json → Decoded (List LooseText)
  | _, [] => .ok []
  | i, .str s :: vs =>
    if s = "" then .error ⟨.invalidTypeReference, (place.member "signature").item i⟩
    else return s :: (← referencesOfJson place (i + 1) vs)
  | i, _ :: _ => .error ⟨.invalidTypeReference, (place.member "signature").item i⟩

def overloadOfJson (ms : Members) (place : Place) : Decoded Overload := do
  let name ← requiredText ms "name" place
  if !name.allPrintable then throw ⟨.unprintableName name, place.member "name"⟩
  let signature ← match ms.get? "signature" with
    | some (.arr vs) => referencesOfJson place 0 vs
    | _ => throw ⟨.missingSignature name, place.member "signature"⟩
  let version ← match ms.get? "version" with
    | none | some .null => pure none
    | some (.str s) => pure (some s)
    | some _ => throw ⟨.invalidVersionReference, place.member "version"⟩
  let extension ← optionalText ms "extension" place ""
  return ⟨name, signature, version, extension⟩

/-- The entries of a section, of which the first is item `i`; every one must be an object. -/
def entriesFrom (key : String) (place : Place) : Nat → List Json → Decoded (List (Located Members))
  | _, [] => .ok []
  | i, .obj ms :: vs => return ⟨ms, place.item i⟩ :: (← entriesFrom key place (i + 1) vs)
  | i, _ :: _ => .error ⟨.entryNotObject key, place.item i⟩

/-- The entries of a section that may be left out. -/
def entries (ms : Members) (key : String) (root : Place) : Decoded (List (Located Members)) :=
  match ms.get? key with
  | none => .ok []
  | some (.arr vs) => entriesFrom key (root.member key) 0 vs
  | some _ => .error ⟨.sectionNotList key, root.member key⟩

/-- The records of a section.  All entries are checked to be objects before one is read. -/
def records {α : Type} (ofJson : Members → Place → Decoded α) (ms : Members) (key : String)
    (root : Place) : Decoded (List (Located α)) := do
  (← entries ms key root).mapM fun e => return ⟨← ofJson e.value e.place, e.place⟩

/-- The value equals zero: a number of either kind, or false. -/
def isZero : Json → Bool
  | .int n => n = 0
  | .real x => x.isZero
  | .bool b => !b
  | _ => false

def supported (ms : Members) : Bool :=
  (match ms.get? "format" with
    | some (.str s) => s = "builtin-catalog"
    | _ => false) && ((ms.get? "version").any isZero)

def labelOfJson (ms : Members) (root : Place) : Decoded (Option LooseText) :=
  match ms.get? "name" with
  | none | some .null => .ok none
  | some (.str s) => .ok (some s)
  | some _ => .error ⟨.labelNotText, root.member "name"⟩

/-- The catalog of a decoded document. -/
def ofJson (file : Option String) (v : Json) : Decoded Catalog := do
  let root := Place.root file
  let .obj ms := v | throw ⟨.notAnObject, root⟩
  if !supported ms then throw ⟨.unsupportedHeader, root⟩
  let label ← labelOfJson ms root
  let versions ← records versionOfJson ms "versions" root
  let types ← records typeOfJson ms "types" root
  let overloads ← records overloadOfJson ms "builtins" root
  return ⟨types, overloads, versions, label, file⟩

/-- Why a file gives no catalog. -/
inductive LoadError where
  /-- The bytes are not UTF-8. -/
  | notUtf8
  /-- An integer has so many digits, more than are read. -/
  | longInteger (digits : Nat)
  | rejected (r : Rejection)
  deriving DecidableEq, Repr

/-- An integer that is not read is no fault of the JSON. -/
def LoadError.ofSyntax (file : String) (e : Json.SyntaxError) : LoadError :=
  match e.fault with
  | .longInteger digits => .longInteger digits
  | _ => .rejected ⟨.syntaxError e, Place.root (some file)⟩

/-- The catalog of a file's text.  Every line end is read as a line feed. -/
def ofText (file : String) (text : String) : Except LoadError Catalog := do
  let v ← (Json.parseLimited (Text.unifyLineEnds text.toList)).mapError (.ofSyntax file)
  (ofJson (some file) v).mapError .rejected

def ofBytes (file : String) (bytes : ByteArray) : Except LoadError Catalog :=
  match String.fromUTF8? bytes with
  | none => .error .notUtf8
  | some text => ofText file text

end Catalog
end OverloadTables
