import OverloadTables.Catalog.Encode
import OverloadTables.Grouping
import OverloadTables.Tables.Basic

/-!
# From a catalog to its tables

Signatures are stored in the order of declaration; the rows are then grouped by name.  The
fingerprint comes last.  Only there a lone surrogate in a text of the catalog comes to light, so
the texts of the tables, made before, go without.

* `versionsOf`         the numbers of the versions by key;
* `makeRow`            the row of an overload, its signature stored;
* `Tables.build`       the tables of a catalog, or the first fault.
-/

namespace OverloadTables

/-- Why a catalog has no tables.  The second and the third do not happen. -/
inductive BuildFailure where
  | rejected (r : Rejection)
  | signature (e : SignaturePool.Invalid)
  | index (e : BlockIndex.Invalid)
  /-- The canonical bytes or a message cannot be written. -/
  | unwritten (e : Json.WriteFault)
  deriving DecidableEq, Repr

/-- A rejection is told in a message, which needs its integers written. -/
def BuildFailure.ofRejection (r : Rejection) : BuildFailure :=
  if r.fault.Writable then .rejected r else .unwritten .tooManyDigits

def findVersion? (key : LooseText) (vs : List Version) : Option Version :=
  vs.find? (·.key = key)

/-- One version more: a key may come again only with the same number. -/
def addVersion (vs : List Version) (v : Located Version) :
    Except Rejection (List Version) :=
  match findVersion? v.value.key vs with
  | none => .ok (vs ++ [v.value])
  | some first =>
    if first.number = v.value.number then .ok vs
    else .error ⟨.versionConflict v.value.key first.number v.value.number, v.place⟩

/-- The versions with each key once. -/
def versionsOf (vs : List (Located Version)) : Except Rejection (List Version) :=
  vs.foldlM addVersion []

/-- The descriptors of type references, of which the first is item `i` of the signature. -/
def resolve (scope : TypeScope) (o : Located Overload) :
    Nat → List LooseText → Except Rejection Signature
  | _, [] => .ok []
  | i, key :: keys =>
    match scope.descriptor? key with
    | none => .error ⟨.undeclaredType o.value.name key, (o.place.member "signature").item i⟩
    | some d => return d :: (← resolve scope o (i + 1) keys)

/-- The number of the version that an overload refers to. -/
def versionNumber (vs : List Version) (o : Located Overload) : Except Rejection Int :=
  match o.value.version with
  | none => .error ⟨.missingVersion o.value.name, o.place.member "version"⟩
  | some key =>
    match findVersion? key vs with
    | none => .error ⟨.undeclaredVersion o.value.name key, o.place.member "version"⟩
    | some v => .ok v.number

/-- The signature and the version of an overload.  The name, the signature and the version are
checked in this order. -/
def checkOverload (scope : TypeScope) (vs : List Version) (o : Located Overload) :
    Except Rejection (Signature × Int) := do
  if o.value.name = "" ∨ o.value.name.allPrintable = false then
    throw ⟨.invalidName o.value.name, o.place.member "name"⟩
  if o.value.signature = [] then
    throw ⟨.emptySignature o.value.name, o.place.member "signature"⟩
  let signature ← resolve scope o 0 o.value.signature
  let version ← versionNumber vs o
  return (signature, version)

/-- The row of an overload, and the pool with its signature stored. -/
def makeRow (scope : TypeScope) (vs : List Version) (p : SignaturePool) (o : Located Overload) :
    Except BuildFailure (Row × SignaturePool) := do
  let (signature, version) ← (checkOverload scope vs o).mapError .ofRejection
  let (start, p) ← (p.intern signature).mapError .signature
  return (⟨o.value.name.plain, start, signature.length, o.value.extension.plain, version⟩, p)

def makeRows (scope : TypeScope) (vs : List Version) :
    SignaturePool → List (Located Overload) → Except BuildFailure (List Row × SignaturePool)
  | p, [] => .ok ([], p)
  | p, o :: os => do
    let (row, p) ← makeRow scope vs p o
    let (rows, p) ← makeRows scope vs p os
    return (row :: rows, p)

def Tables.build (c : Catalog) : Except BuildFailure Tables := do
  let scope ← (TypeScope.ofDeclared c.types).mapError .ofRejection
  let vs ← (versionsOf c.versions).mapError .ofRejection
  let (rows, pool) ← makeRows scope vs .empty c.overloads
  let groups := group (·.name) rows
  let index ← (BlockIndex.ofSizes (groups.map fun g => (g.1, g.2.length))).mapError .index
  let fingerprint ← c.content.fingerprint.mapError .unwritten
  return {
    label := c.label.map (·.plain)
    fingerprint
    bases := scope.bases.map (·.map LooseText.plain)
    signatureTable := pool.table
    runs := pool.runs
    rows := groups.flatMap (·.2)
    index := index }

end OverloadTables
