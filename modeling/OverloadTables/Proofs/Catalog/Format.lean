import OverloadTables.Catalog.Decode
import OverloadTables.Proofs.Catalog.Space
import OverloadTables.Proofs.Json.Decimal
import OverloadTables.Proofs.Violation

/-!
# The format of a catalog

* `VersionForm`, `TypeForm`, `OverloadForm`   what the members of a record must be;
* `WellFormed v`           `v` is a document in the format;
* `flaws file v`           all that is wrong with a document, in the order it is read in: the whole,
                           the header, the label, and then one section after the other;
* `flaws_eq_nil`           nothing is wrong exactly with well-formed documents.
-/

namespace OverloadTables

/-! ## kinds of values -/

namespace Json

def isNull : Json → Bool
  | .null => true
  | _ => false

def isText : Json → Bool
  | .str _ => true
  | _ => false

def isInteger : Json → Bool
  | .int _ => true
  | _ => false

def isBoolean : Json → Bool
  | .bool _ => true
  | _ => false

def isList : Json → Bool
  | .arr _ => true
  | _ => false

def isObject : Json → Bool
  | .obj _ => true
  | _ => false

/-- A text that is not empty. -/
def isName : Json → Bool
  | .str s => s ≠ ""
  | _ => false

def isPrintableName : Json → Bool
  | .str s => s ≠ "" && s.allPrintable
  | _ => false

/-- The name of an address space. -/
def isSpelling : Json → Bool
  | .str s => AddressSpace.all.any fun m => s.Spells m
  | _ => false

def isListOf (p : Json → Bool) : Json → Bool
  | .arr vs => vs.all p
  | _ => false

/-- Zero as an integer, as a decimal that rounds to it, or as the boolean that counts as zero. -/
def EqualsZero : Json → Prop
  | .int n => n = 0
  | .bool b => b = false
  | .real x => x.RoundsToZero
  | _ => False

end Json

namespace Members

/-- There is a member of this key and kind. -/
def requires (ms : Members) (key : String) (p : Json → Bool) : Bool := (ms.get? key).any p

/-- The member of this key is of the kind if there is one. -/
def allows (ms : Members) (key : String) (p : Json → Bool) : Bool := (ms.get? key).all p

/-- The items of a list; what is no list has none. -/
def items (ms : Members) (key : String) : List Json :=
  match ms.get? key with
  | some (.arr vs) => vs
  | _ => []

end Members

namespace Catalog
open Json

/-! ## the format -/

structure VersionForm (ms : Members) : Prop where
  key : ms.requires "def" isName
  number : ms.requires "version" isInteger

structure TypeForm (ms : Members) : Prop where
  key : ms.requires "def" isName
  name : ms.requires "name" isName
  width : ms.allows "vec_width" isInteger
  space : ms.allows "addr_space" isSpelling
  pointer : ms.allows "is_pointer" isBoolean
  concrete : ms.allows "qual_type" fun x => x.isNull || x.isName

structure OverloadForm (ms : Members) : Prop where
  name : ms.requires "name" isPrintableName
  signature : ms.requires "signature" (isListOf isName)
  version : ms.allows "version" fun x => x.isNull || x.isText
  extension : ms.allows "extension" isText

/-- A section is left out, or is a list of objects with the members they must have. -/
def SectionForm (Form : Members → Prop) (ms : Members) (kind : String) : Prop :=
  ∀ x, ms.get? kind = some x →
    ∃ vs, x = .arr vs ∧ ∀ v ∈ vs, ∃ entry, v = .obj entry ∧ Form entry

structure DocumentForm (ms : Members) : Prop where
  format : ms.get? "format" = some (.str "builtin-catalog")
  version : ∃ x, ms.get? "version" = some x ∧ x.EqualsZero
  label : ms.allows "name" fun x => x.isNull || x.isText
  versions : SectionForm VersionForm ms "versions"
  types : SectionForm TypeForm ms "types"
  overloads : SectionForm OverloadForm ms "builtins"

/-- A document in the format of catalogs. -/
def WellFormed (v : Json) : Prop := ∃ ms, v = .obj ms ∧ DocumentForm ms

/-! ## what is wrong -/

/-- A value that is not of its kind. -/
def misfit (fits : Bool) (place : Place) : List Violation := breach fits "E-CATALOG-FIELD" place

def versionFlaws (ms : Members) (place : Place) : List Violation :=
  misfit (ms.requires "def" isName) (place.member "def")
    ++ misfit (ms.requires "version" isInteger) (place.member "version")

/-- The name of an address space is looked at if it is a text. -/
def typeFlaws (ms : Members) (place : Place) : List Violation :=
  misfit (ms.requires "def" isName) (place.member "def")
    ++ (misfit (ms.requires "name" isName) (place.member "name")
    ++ (misfit (ms.allows "vec_width" isInteger) (place.member "vec_width")
    ++ (misfit (ms.allows "addr_space" isText) (place.member "addr_space")
    ++ (breach (ms.allows "addr_space" fun x => !x.isText || x.isSpelling) "E-TYPE-ADDRSPACE"
      (place.member "addr_space")
    ++ (misfit (ms.allows "is_pointer" isBoolean) (place.member "is_pointer")
    ++ misfit (ms.allows "qual_type" fun x => x.isNull || x.isName) (place.member "qual_type"))))))

/-- The items of a list that are wrong, the first of them item `i`. -/
def itemFlaws (flaws : Json → Place → List Violation) (place : Place) (vs : List Json) (i : Nat) :
    List Violation :=
  (vs.zipIdx i).flatMap fun x => flaws x.1 (place.item x.2)

def overloadFlaws (ms : Members) (place : Place) : List Violation :=
  misfit (ms.requires "name" isPrintableName) (place.member "name")
    ++ ((misfit (ms.requires "signature" isList) (place.member "signature")
    ++ itemFlaws (fun x => misfit x.isName) (place.member "signature") (ms.items "signature") 0)
    ++ (misfit (ms.allows "version" fun x => x.isNull || x.isText) (place.member "version")
    ++ misfit (ms.allows "extension" isText) (place.member "extension")))

/-- What is wrong with a record; what is no object is no record. -/
def recordFlaws (flaws : Members → Place → List Violation) : Json → Place → List Violation
  | .obj ms, place => flaws ms place
  | _, _ => []

/-- The list, then all its entries as objects, and then one record after the other. -/
def sectionFlaws (flaws : Members → Place → List Violation) (ms : Members) (kind : String)
    (root : Place) : List Violation :=
  misfit (ms.allows kind isList) (root.member kind)
    ++ (itemFlaws (fun x => misfit x.isObject) (root.member kind) (ms.items kind) 0
    ++ itemFlaws (recordFlaws flaws) (root.member kind) (ms.items kind) 0)

def documentFlaws (ms : Members) (root : Place) : List Violation :=
  breach (supported ms) "E-CATALOG-FORMAT" root
    ++ (misfit (ms.allows "name" fun x => x.isNull || x.isText) (root.member "name")
    ++ (sectionFlaws versionFlaws ms "versions" root
    ++ (sectionFlaws typeFlaws ms "types" root
    ++ sectionFlaws overloadFlaws ms "builtins" root)))

/-- All that is wrong with a document. -/
def flaws (file : Option String) : Json → List Violation
  | .obj ms => documentFlaws ms (.root file)
  | _ => [⟨"E-CATALOG-FORMAT", .root file, []⟩]

/-! ## nothing wrong -/

theorem misfit_eq_nil {fits : Bool} {place : Place} : misfit fits place = [] ↔ fits = true :=
  breach_eq_nil

theorem itemFlaws_eq_nil {flaws : Json → Place → List Violation} {Fits : Json → Prop}
    (h : ∀ x place, flaws x place = [] ↔ Fits x) (place : Place) (vs : List Json) (i : Nat) :
    itemFlaws flaws place vs i = [] ↔ ∀ x ∈ vs, Fits x := by
  induction vs generalizing i with
  | nil => exact iff_of_true rfl (List.forall_mem_nil _)
  | cons x vs ih =>
    have hrest := ih (i + 1)
    rw [itemFlaws] at hrest ⊢
    rw [List.zipIdx_cons, List.flatMap_cons, List.append_eq_nil_iff, h, hrest,
      List.forall_mem_cons]

theorem misfits_eq_nil {p : Json → Bool} {place : Place} {vs : List Json} {i : Nat} :
    itemFlaws (fun x => misfit (p x)) place vs i = [] ↔ ∀ x ∈ vs, p x = true := by
  have h (x : Json) (place : Place) : misfit (p x) place = [] ↔ p x = true := misfit_eq_nil
  exact itemFlaws_eq_nil h place vs i

section
variable (ms : Members) (place : Place)

theorem versionFlaws_eq_nil : versionFlaws ms place = [] ↔ VersionForm ms := by
  rw [versionFlaws, List.append_eq_nil_iff, misfit_eq_nil, misfit_eq_nil]
  exact ⟨fun ⟨hkey, hnumber⟩ => ⟨hkey, hnumber⟩, fun h => ⟨h.key, h.number⟩⟩

theorem isText_of_isSpelling {x : Json} (h : x.isSpelling = true) : x.isText = true := by
  cases x with
  | str s => rfl
  | _ => exact nomatch h

theorem allows_spelling (key : String) : (ms.allows key isText = true ∧
    ms.allows key (fun x => !x.isText || x.isSpelling) = true) ↔ ms.allows key isSpelling = true := by
  unfold Members.allows
  cases ms.get? key with
  | none => exact iff_of_true ⟨rfl, rfl⟩ rfl
  | some x =>
    rw [Option.all_some, Option.all_some, Option.all_some]
    constructor
    · rintro ⟨htext, h⟩
      rwa [htext] at h
    · intro h
      exact ⟨isText_of_isSpelling h, by rw [h, Bool.or_true]⟩

theorem typeFlaws_eq_nil : typeFlaws ms place = [] ↔ TypeForm ms := by
  simp only [typeFlaws, List.append_eq_nil_iff, misfit_eq_nil, breach_eq_nil]
  constructor
  · rintro ⟨hkey, hname, hwidth, htext, hspace, hpointer, hconcrete⟩
    exact ⟨hkey, hname, hwidth, (allows_spelling ms _).mp ⟨htext, hspace⟩, hpointer, hconcrete⟩
  · intro h
    obtain ⟨htext, hspace⟩ := (allows_spelling ms _).mpr h.space
    exact ⟨h.key, h.name, h.width, htext, hspace, h.pointer, h.concrete⟩

theorem requires_listOf (key : String) (p : Json → Bool) : (ms.requires key isList = true ∧
    ∀ x ∈ ms.items key, p x = true) ↔ ms.requires key (isListOf p) = true := by
  unfold Members.requires Members.items
  cases ms.get? key with
  | none => exact ⟨And.left, nofun⟩
  | some x =>
    cases x with
    | arr vs => exact (and_iff_right rfl).trans List.all_eq_true.symm
    | _ => exact ⟨And.left, nofun⟩

theorem overloadFlaws_eq_nil : overloadFlaws ms place = [] ↔ OverloadForm ms := by
  simp only [overloadFlaws, List.append_eq_nil_iff, misfit_eq_nil, misfits_eq_nil]
  rw [requires_listOf]
  exact ⟨fun ⟨hname, hsignature, hversion, hextension⟩ =>
    ⟨hname, hsignature, hversion, hextension⟩,
    fun h => ⟨h.name, h.signature, h.version, h.extension⟩⟩

end

/-! ## sections and documents -/

theorem isObject_iff {x : Json} : x.isObject = true ↔ ∃ ms, x = .obj ms := by
  cases x with
  | obj ms => exact iff_of_true rfl ⟨ms, rfl⟩
  | _ => exact ⟨nofun, nofun⟩

theorem isList_iff {x : Json} : x.isList = true ↔ ∃ vs, x = .arr vs := by
  cases x with
  | arr vs => exact iff_of_true rfl ⟨vs, rfl⟩
  | _ => exact ⟨nofun, nofun⟩

theorem recordFlaws_eq_nil {flaws : Members → Place → List Violation} {Form : Members → Prop}
    (h : ∀ ms place, flaws ms place = [] ↔ Form ms) (x : Json) (place : Place) :
    recordFlaws flaws x place = [] ↔ ∀ ms, x = .obj ms → Form ms := by
  cases x with
  | obj ms =>
    rw [recordFlaws, h]
    exact ⟨fun hms _ e => Json.obj.inj e ▸ hms, fun hms => hms ms rfl⟩
  | _ => exact iff_of_true rfl nofun

theorem sectionFlaws_eq_nil {flaws : Members → Place → List Violation} {Form : Members → Prop}
    (h : ∀ ms place, flaws ms place = [] ↔ Form ms) (ms : Members) (kind : String) (root : Place) :
    sectionFlaws flaws ms kind root = [] ↔ SectionForm Form ms kind := by
  simp only [sectionFlaws, List.append_eq_nil_iff, misfit_eq_nil, misfits_eq_nil, isObject_iff,
    itemFlaws_eq_nil (recordFlaws_eq_nil h)]
  unfold Members.allows Members.items SectionForm
  cases ms.get? kind with
  | none => exact iff_of_true ⟨rfl, List.forall_mem_nil _, List.forall_mem_nil _⟩ nofun
  | some x =>
    rw [Option.all_some, isList_iff]
    constructor
    · rintro ⟨⟨vs, rfl⟩, hobjects, hforms⟩ y hy
      refine ⟨vs, (Option.some.inj hy).symm, fun v hv => ?_⟩
      obtain ⟨entry, rfl⟩ := hobjects v hv
      exact ⟨entry, rfl, hforms _ hv entry rfl⟩
    · intro hsection
      obtain ⟨vs, rfl, hvs⟩ := hsection x rfl
      refine ⟨⟨vs, rfl⟩, fun v hv => ?_, fun v hv entry hentry => ?_⟩
      · obtain ⟨entry, hentry, -⟩ := hvs v hv
        exact ⟨entry, hentry⟩
      · obtain ⟨entry', hentry', hform⟩ := hvs v hv
        rw [hentry] at hentry'
        exact Json.obj.inj hentry' ▸ hform

theorem isZero_iff {x : Json} : isZero x = true ↔ x.EqualsZero := by
  cases x with
  | int n => exact decide_eq_true_iff
  | bool b => exact Bool.not_eq_true' b ▸ Iff.rfl
  | real x => exact x.isZero_iff
  | _ => exact ⟨nofun, nofun⟩

theorem supported_iff {ms : Members} : supported ms = true ↔
    ms.get? "format" = some (.str "builtin-catalog") ∧
      ∃ x, ms.get? "version" = some x ∧ x.EqualsZero := by
  rw [supported, Bool.and_eq_true, Option.any_eq_true]
  refine and_congr ?_ (exists_congr fun x => and_congr_right fun _ => isZero_iff)
  cases ms.get? "format" with
  | none => exact ⟨nofun, nofun⟩
  | some x =>
    cases x with
    | str s => rw [decide_eq_true_eq, Option.some.injEq, Json.str.injEq]
    | _ => exact ⟨nofun, nofun⟩

/-- **Nothing is wrong exactly with documents in the format.** -/
theorem flaws_eq_nil (file : Option String) (v : Json) : flaws file v = [] ↔ WellFormed v := by
  cases v with
  | obj ms =>
    simp only [flaws, documentFlaws, List.append_eq_nil_iff, breach_eq_nil, misfit_eq_nil,
      supported_iff, sectionFlaws_eq_nil versionFlaws_eq_nil,
      sectionFlaws_eq_nil typeFlaws_eq_nil,
      sectionFlaws_eq_nil overloadFlaws_eq_nil]
    constructor
    · rintro ⟨⟨hformat, hversion⟩, hlabel, hversions, htypes, hoverloads⟩
      exact ⟨ms, rfl, hformat, hversion, hlabel, hversions, htypes, hoverloads⟩
    · rintro ⟨ms', e, h⟩
      obtain rfl := Json.obj.inj e
      exact ⟨⟨h.format, h.version⟩, h.label, h.versions, h.types, h.overloads⟩
  | _ => exact ⟨nofun, nofun⟩

end Catalog
end OverloadTables
