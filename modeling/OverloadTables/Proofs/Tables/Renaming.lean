import OverloadTables.Proofs.Tables.Accepted
import OverloadTables.Proofs.Tables.Verdict
import Mathlib.Data.List.Find

/-!
# Keys are only names

Types and versions are referred to by keys.  New keys, different for different old ones, change
nothing but the fingerprint: not what is rejected, where and with which code, and not the tables.
Nor does the order of the versions.

* `Renaming`               new keys;
* `Catalog.rename`         the declarations and the references of a catalog under new keys;
* `Content.Renames`        the same with the versions in any order;
* `Catalog.violations_rename`   the same rules are broken at the same places;
* `Content.Renames.meaning`   overloads mean the same;
* `Tables.build_renamed`   a catalog under new keys is accepted and rejected alike, and has the same
                           tables.
-/

namespace OverloadTables

/-! ## new keys -/

/-- New keys of types and of versions. -/
structure Renaming where
  type : LooseText → LooseText
  version : LooseText → LooseText

namespace Renaming

variable (ρ : Renaming)

def typeOf (d : DeclaredType) : DeclaredType := { d with key := ρ.type d.key }

def versionOf (v : Version) : Version := { v with key := ρ.version v.key }

/-- References get the new keys too, whether anything is declared under them or not. -/
def overloadOf (o : Overload) : Overload :=
  { o with signature := o.signature.map ρ.type, version := o.version.map ρ.version }

end Renaming

/-- Another declaration at the same place. -/
def Located.map {α β : Type} (f : α → β) (l : Located α) : Located β := ⟨f l.value, l.place⟩

def Catalog.rename (ρ : Renaming) (c : Catalog) : Catalog where
  types := c.types.map (Located.map ρ.typeOf)
  overloads := c.overloads.map (Located.map ρ.overloadOf)
  versions := c.versions.map (Located.map ρ.versionOf)
  label := c.label
  file := c.file

namespace Content

def rename (ρ : Renaming) (c : Content) : Content :=
  ⟨c.types.map ρ.typeOf, c.overloads.map ρ.overloadOf, c.versions.map ρ.versionOf, c.label⟩

/-- `c'` has the declarations of `c` under new keys, the versions in any order. -/
structure Renames (ρ : Renaming) (c c' : Content) : Prop where
  types : c'.types = c.types.map ρ.typeOf
  overloads : c'.overloads = c.overloads.map ρ.overloadOf
  versions : c'.versions.Perm (c.versions.map ρ.versionOf)
  label : c'.label = c.label

/-- The keys of types that occur, in declarations and in references. -/
def typeKeys (c : Content) : List LooseText :=
  c.types.map (·.key) ++ c.overloads.flatMap (·.signature)

def versionKeys (c : Content) : List LooseText :=
  c.versions.map (·.key) ++ c.overloads.filterMap (·.version)

end Content

/-- Different keys of a catalog stay different. -/
structure Renaming.KeepsApart (ρ : Renaming) (c : Content) : Prop where
  type : ∀ a ∈ c.typeKeys, ∀ b ∈ c.typeKeys, ρ.type a = ρ.type b → a = b
  version : ∀ a ∈ c.versionKeys, ∀ b ∈ c.versionKeys, ρ.version a = ρ.version b → a = b

theorem map_value_map {α β : Type} (f : α → β) (l : List (Located α)) :
    (l.map (Located.map f)).map (·.value) = (l.map (·.value)).map f := by
  rw [List.map_map, List.map_map]
  rfl

theorem Catalog.content_rename (ρ : Renaming) (c : Catalog) :
    (c.rename ρ).content = c.content.rename ρ := by
  rw [content, rename, Content.rename]
  simp only [map_value_map]
  rfl

namespace Content

variable {c : Content}

theorem mem_typeKeys_of_type {d : DeclaredType} (hd : d ∈ c.types) : d.key ∈ c.typeKeys :=
  List.mem_append_left _ (List.mem_map.mpr ⟨d, hd, rfl⟩)

theorem mem_typeKeys_of_reference {o : Overload} {key : LooseText} (ho : o ∈ c.overloads)
    (hkey : key ∈ o.signature) : key ∈ c.typeKeys :=
  List.mem_append_right _ (List.mem_flatMap.mpr ⟨o, ho, hkey⟩)

theorem mem_versionKeys_of_version {v : Version} (hv : v ∈ c.versions) : v.key ∈ c.versionKeys :=
  List.mem_append_left _ (List.mem_map.mpr ⟨v, hv, rfl⟩)

theorem mem_versionKeys_of_reference {o : Overload} {key : LooseText} (ho : o ∈ c.overloads)
    (hkey : o.version = some key) : key ∈ c.versionKeys :=
  List.mem_append_right _ (List.mem_filterMap.mpr ⟨o, ho, hkey⟩)

end Content

/-! ## what is wrong -/

section
variable {α β : Type}

theorem all_map_congr {f : α → β} {p : β → Prop} {q : α → Prop} [DecidablePred p] [DecidablePred q]
    {l : List α} (h : ∀ a ∈ l, p (f a) ↔ q a) :
    ((l.map f).all fun b => decide (p b)) = l.all fun a => decide (q a) := by
  rw [List.all_map, Bool.eq_iff_iff, List.all_eq_true, List.all_eq_true]
  refine forall₂_congr fun a ha => ?_
  rw [Function.comp_apply, decide_eq_true_eq, decide_eq_true_eq, h a ha]

theorem any_map_congr {f : α → β} {p : β → Prop} {q : α → Prop} [DecidablePred p] [DecidablePred q]
    {l : List α} (h : ∀ a ∈ l, p (f a) ↔ q a) :
    ((l.map f).any fun b => decide (p b)) = l.any fun a => decide (q a) := by
  rw [List.any_map, Bool.eq_iff_iff, List.any_eq_true, List.any_eq_true]
  refine exists_congr fun a => and_congr_right fun ha => ?_
  rw [Function.comp_apply, decide_eq_true_eq, decide_eq_true_eq, h a ha]

/-- Members under another form are judged alike if they are so one by one. -/
theorem inOrder_map {f : α → α} {viol : List α → α → List Violation} {P : α → Prop}
    (h : ∀ done a, (∀ b ∈ done, P b) → P a → viol (done.map f) (f a) = viol done a)
    {done l : List α} (hdone : ∀ b ∈ done, P b) (hl : ∀ a ∈ l, P a) :
    inOrder viol (done.map f) (l.map f) = inOrder viol done l := by
  induction l generalizing done with
  | nil => rfl
  | cons a l ih =>
    obtain ⟨ha, hl⟩ := List.forall_mem_cons.mp hl
    have hstep : ∀ b ∈ done ++ [a], P b := by
      intro b hb
      rcases List.mem_append.mp hb with hb | hb
      · exact hdone b hb
      · exact List.mem_singleton.mp hb ▸ ha
    have hrest := ih hstep hl
    rw [List.map_append, List.map_singleton] at hrest
    rw [List.map_cons, inOrder, inOrder, h done a hdone ha, hrest]

end

section
variable {ρ : Renaming} {c : Content} (hρ : ρ.KeepsApart c)
include hρ

theorem typeViolations_rename {done : List (Located DeclaredType)} {d : Located DeclaredType}
    (hdone : ∀ b ∈ done, b.value ∈ c.types) (hd : d.value ∈ c.types) :
    typeViolations (done.map (Located.map ρ.typeOf)) (d.map ρ.typeOf) = typeViolations done d := by
  have hkey {b : Located DeclaredType} (hb : b ∈ done) :
      (ρ.typeOf b.value).key = (ρ.typeOf d.value).key ↔ b.value.key = d.value.key :=
    ⟨hρ.type _ (Content.mem_typeKeys_of_type (hdone b hb)) _ (Content.mem_typeKeys_of_type hd),
      congrArg ρ.type⟩
  have hfields {b : Located DeclaredType} (hk : b.value.key = d.value.key) :
      ρ.typeOf b.value = ρ.typeOf d.value ↔ b.value = d.value := by
    obtain ⟨⟨_, _, _, _, _, _⟩, _⟩ := b
    obtain ⟨⟨_, _, _, _, _, _⟩, _⟩ := d
    obtain rfl := hk
    simp [Renaming.typeOf]
  have hsame : ((done.map (Located.map ρ.typeOf)).all fun b =>
      b.value.key = (ρ.typeOf d.value).key → b.value = ρ.typeOf d.value)
        = done.all fun b => b.value.key = d.value.key → b.value = d.value :=
    all_map_congr fun b hb => imp_congr_ctx (hkey hb) hfields
  have hconcrete : ((done.map (Located.map ρ.typeOf)).all fun b =>
      b.value.name = d.value.name → b.value.concrete = d.value.concrete)
        = done.all fun b => b.value.name = d.value.name → b.value.concrete = d.value.concrete :=
    all_map_congr fun _ _ => Iff.rfl
  exact congrArg₂ (fun same concrete => _ ++ (_ ++ (breach same _ _ ++ breach concrete _ _)))
    hsame hconcrete

theorem versionViolations_rename {done : List (Located Version)} {v : Located Version}
    (hdone : ∀ w ∈ done, w.value ∈ c.versions) (hv : v.value ∈ c.versions) :
    versionViolations (done.map (Located.map ρ.versionOf)) (v.map ρ.versionOf)
      = versionViolations done v := by
  have hkey {w : Located Version} (hw : w ∈ done) :
      (ρ.versionOf w.value).key = (ρ.versionOf v.value).key ↔ w.value.key = v.value.key :=
    ⟨hρ.version _ (Content.mem_versionKeys_of_version (hdone w hw)) _
      (Content.mem_versionKeys_of_version hv), congrArg ρ.version⟩
  have hsame : ((done.map (Located.map ρ.versionOf)).all fun w =>
      w.value.key = (ρ.versionOf v.value).key → w.value.number = v.value.number)
        = done.all fun w => w.value.key = v.value.key → w.value.number = v.value.number :=
    all_map_congr fun w hw => imp_congr_left (hkey hw)
  have hfirst : firstNumber (ρ.versionOf v.value).key (done.map (Located.map ρ.versionOf))
      = firstNumber v.value.key done := by
    have hfind : done.find? ((fun w => decide (w.value.key = (ρ.versionOf v.value).key))
        ∘ Located.map ρ.versionOf) = done.find? fun w => decide (w.value.key = v.value.key) :=
      List.find?_congr fun w hw => decide_eq_decide.mpr (hkey hw)
    rw [firstNumber, List.find?_map, hfind, Option.map_map]
    rfl
  exact congrArg₂ (fun same integers => breach same _ _ (integers ++ [v.value.number])) hsame hfirst

theorem referenceViolations_rename (place : Place) (keys : List LooseText) (i : Nat)
    (hkeys : ∀ key ∈ keys, key ∈ c.typeKeys) :
    referenceViolations (c.types.map ρ.typeOf) place (keys.map ρ.type) i
      = referenceViolations c.types place keys i := by
  induction keys generalizing i with
  | nil => rfl
  | cons key keys ih =>
    obtain ⟨hkey, hkeys⟩ := List.forall_mem_cons.mp hkeys
    have hdeclared : (c.types.map ρ.typeOf).any (·.key = ρ.type key) = c.types.any (·.key = key) :=
      any_map_congr fun d hd =>
        ⟨hρ.type _ (Content.mem_typeKeys_of_type hd) _ hkey, congrArg ρ.type⟩
    have hrest := ih (i + 1) hkeys
    unfold referenceViolations at hrest ⊢
    rw [List.map_cons, List.zipIdx_cons, List.zipIdx_cons, List.flatMap_cons, List.flatMap_cons,
      hrest, hdeclared]

theorem overloadViolations_rename {o : Located Overload} (ho : o.value ∈ c.overloads) :
    overloadViolations (c.rename ρ) (o.map ρ.overloadOf) = overloadViolations c o := by
  have hnil : (o.value.signature.map ρ.type ≠ []) ↔ o.value.signature ≠ [] :=
    not_congr List.map_eq_nil_iff
  have hversion : (c.versions.map ρ.versionOf).any (fun v =>
      o.value.version.map ρ.version = some v.key)
        = c.versions.any fun v => o.value.version = some v.key := by
    refine any_map_congr fun v hv => ?_
    cases hkey : o.value.version with
    | none => exact ⟨nofun, nofun⟩
    | some key =>
      rw [Option.map_some, Option.some.injEq, Option.some.injEq]
      exact ⟨hρ.version _ (Content.mem_versionKeys_of_reference ho hkey) _
        (Content.mem_versionKeys_of_version hv), congrArg ρ.version⟩
  have hreferences := referenceViolations_rename hρ (o.place.member "signature") o.value.signature 0
    fun key hkey => Content.mem_typeKeys_of_reference ho hkey
  show breach _ _ _ ++ (breach (decide (o.value.signature.map ρ.type ≠ [])) _ _
    ++ (referenceViolations (c.types.map ρ.typeOf) _ (o.value.signature.map ρ.type) 0
    ++ breach ((c.versions.map ρ.versionOf).any fun v =>
      o.value.version.map ρ.version = some v.key) _ _)) = _
  rw [overloadViolations, decide_eq_decide.mpr hnil, hversion]
  exact congrArg (fun vs => _ ++ (_ ++ (vs ++ _))) hreferences

end

/-- **The same rules are broken at the same places.** -/
theorem Catalog.violations_rename {ρ : Renaming} {c : Catalog} (hρ : ρ.KeepsApart c.content) :
    (c.rename ρ).violations = c.violations := by
  have hmem {α : Type} {l : List (Located α)} : ∀ a ∈ l, a.value ∈ l.map (·.value) :=
    fun a ha => List.mem_map.mpr ⟨a, ha, rfl⟩
  have htypes := inOrder_map (fun _ _ hdone hd => typeViolations_rename hρ hdone hd)
    (List.forall_mem_nil _) (hmem (l := c.types))
  have hversions := inOrder_map (fun _ _ hdone hv => versionViolations_rename hρ hdone hv)
    (List.forall_mem_nil _) (hmem (l := c.versions))
  have hoverloads : (c.rename ρ).overloads.flatMap (overloadViolations (c.rename ρ).content)
      = c.overloads.flatMap (overloadViolations c.content) := by
    rw [content_rename]
    show (c.overloads.map _).flatMap _ = _
    rw [List.flatMap_map]
    exact List.flatMap_congr fun o ho => overloadViolations_rename hρ (hmem o ho)
  show inOrder _ [] (c.types.map _) ++ (inOrder _ [] (c.versions.map _) ++ _) = _
  rw [hoverloads, violations]
  exact congrArg₂ (fun types versions => types ++ (versions ++ _)) htypes hversions

/-! ## what the overloads mean -/

theorem baseNames_rename (ρ : Renaming) (ds : List DeclaredType) :
    baseNames (ds.map ρ.typeOf) = baseNames ds := by
  rw [baseNames, List.map_map]
  rfl

namespace Content.Renames

variable {ρ : Renaming} {c c' : Content} (h : c.Renames ρ c') (hc : c.Acceptable)
  (hc' : c'.Acceptable)
include h

theorem baseNames_eq : baseNames c'.types = baseNames c.types := by
  rw [h.types, baseNames_rename]

/-- The same integers. -/
theorem withinLimits : c'.WithinLimits ↔ c.WithinLimits := by
  have hnumbers := h.versions.map (·.number)
  rw [List.map_map] at hnumbers
  have hwidths : c'.types.map (·.width) = c.types.map (·.width) := by
    rw [h.types, List.map_map]
    rfl
  have hperm : c'.integers.Perm c.integers := by
    rw [integers, integers, hwidths]
    exact hnumbers.append_right _
  exact ⟨fun hc n hn => hc n (hperm.mem_iff.mpr hn), fun hc n hn => hc n (hperm.mem_iff.mp hn)⟩

theorem mem_types {d : DeclaredType} (hd : d ∈ c.types) : ρ.typeOf d ∈ c'.types := by
  rw [h.types]
  exact List.mem_map_of_mem hd

theorem mem_versions {v : Version} (hv : v ∈ c.versions) : ρ.versionOf v ∈ c'.versions :=
  h.versions.mem_iff.mpr (List.mem_map_of_mem hv)

include hc hc'

/-- **Under new keys the overloads mean the same.** -/
theorem meaning {o : Overload} (ho : o ∈ c.overloads) :
    c'.meaning (ρ.overloadOf o) = c.meaning o := by
  have hsignature : (o.signature.map ρ.type).filterMap c'.descriptor?
      = o.signature.filterMap c.descriptor? := by
    rw [List.filterMap_map]
    refine List.filterMap_congr fun key hkey => ?_
    obtain ⟨d, hd, rfl⟩ := hc.references o ho key hkey
    have hnew : c'.descriptor? (ρ.type d.key) = _ := hc'.descriptor?_of_mem (h.mem_types hd)
    rw [Function.comp_apply, hnew, hc.descriptor?_of_mem hd, h.baseNames_eq]
    rfl
  have hversion : (o.version.map ρ.version).bind c'.number? = o.version.bind c.number? := by
    obtain ⟨v, hv, hkey⟩ := hc.introduced o ho
    have hnew : c'.number? (ρ.version v.key) = _ := hc'.number?_of_mem (h.mem_versions hv)
    rw [hkey, Option.map_some, Option.bind_some, Option.bind_some, hnew, hc.number?_of_mem hv]
    rfl
  show (⟨o.name, (o.signature.map ρ.type).filterMap c'.descriptor?, o.extension,
    (o.version.map ρ.version).bind c'.number?⟩ : Meaning) = _
  rw [hsignature, hversion]
  rfl

theorem meanings : c'.overloads.map c'.meaning = c.overloads.map c.meaning := by
  rw [h.overloads, List.map_map]
  exact List.map_congr_left fun o ho => h.meaning hc hc' ho

theorem bases : (baseNames c'.types).map (fun n => (⟨n, concreteIn c'.types n⟩ : BaseType LooseText))
    = (baseNames c.types).map fun n => ⟨n, concreteIn c.types n⟩ := by
  rw [h.baseNames_eq]
  refine List.map_congr_left fun n hn => ?_
  rw [hc.concreteIn_eq hc' (fun d hd => ⟨ρ.typeOf d, h.mem_types hd, rfl, rfl⟩) hn]

end Content.Renames

/-- A renamed catalog keeps the rules exactly if the catalog does. -/
theorem Catalog.acceptable_renames {ρ : Renaming} {c : Catalog} {c' : Content}
    (hρ : ρ.KeepsApart c.content) (h : c.content.Renames ρ c') :
    c'.Acceptable ↔ c.content.Acceptable := by
  have hsame : (c.content.rename ρ).Acceptable ↔ c.content.Acceptable := by
    rw [← content_rename, ← violations_eq_nil, violations_rename hρ, violations_eq_nil]
  have ht (d : DeclaredType) : d ∈ c'.types ↔ d ∈ (c.content.rename ρ).types := by
    rw [h.types]
    rfl
  have ho (o : Overload) : o ∈ c'.overloads ↔ o ∈ (c.content.rename ρ).overloads := by
    rw [h.overloads]
    rfl
  have hv (v : Version) : v ∈ c'.versions ↔ v ∈ (c.content.rename ρ).versions :=
    h.versions.mem_iff
  rw [← hsame]
  exact ⟨fun h => h.of_mem (fun d => (ht d).symm) (fun o => (ho o).symm) (fun v => (hv v).symm),
    fun h => h.of_mem ht ho hv⟩

theorem Catalog.renames_rename (ρ : Renaming) (c : Catalog) :
    c.content.Renames ρ (c.rename ρ).content := by
  rw [content_rename]
  exact ⟨rfl, rfl, List.Perm.refl _, rfl⟩

/-! ## tables -/

namespace Tables

variable {ρ : Renaming} {c c' : Catalog}

theorem eq_of_renames (hc' : c.content.Renames ρ c'.content) {t t' : Tables}
    (h : Tables.build c = .ok t) (h' : Tables.build c' = .ok t') :
    t' = { t with fingerprint := t'.fingerprint } := by
  have hold := acceptable_of_build h
  have hnew := acceptable_of_build h'
  obtain ⟨htable, hruns, hrows, hindex⟩ := build_meanings h' h (hc'.meanings hold hnew)
  refine Tables.ext ?_ rfl ?_ htable hruns hrows hindex
  · refine Option.map_injective LooseText.text_injective ?_
    rw [← (build_label h').1, hc'.label, (build_label h).1]
  · refine List.map_injective_iff.mpr BaseType.text_injective ?_
    rw [build_bases h', hc'.bases hold hnew]
    exact (build_bases h).symm

/-- Under new keys a catalog is rejected with the same code at the same place. -/
theorem build_rename_rejected (hρ : ρ.KeepsApart c.content) {r : Rejection}
    (h : Tables.build c = .error (.rejected r)) :
    ∃ r', Tables.build (c.rename ρ) = .error (.rejected r') ∧
      r'.fault.code = r.fault.code ∧ r'.place = r.place := by
  obtain ⟨rest, hviolations, hw⟩ := violation_of_rejected h
  obtain ⟨hwritable, -⟩ :=
    build_violation ((Catalog.violations_rename hρ).trans hviolations)
  obtain ⟨r', h', hr'⟩ := hwritable hw
  obtain ⟨hcode, hplace, -⟩ := Violation.mk.inj hr'
  exact ⟨r', h', hcode, hplace⟩

/-- Integers are not renamed, so none becomes too long. -/
theorem build_rename_digits (hρ : ρ.KeepsApart c.content)
    (h : Tables.build c = .error (.unwritten .tooManyDigits)) :
    Tables.build (c.rename ρ) = .error (.unwritten .tooManyDigits) := by
  have hrenames := c.renames_rename ρ
  rw [build_tooManyDigits_iff] at h ⊢
  rwa [Catalog.acceptable_renames hρ hrenames, hrenames.withinLimits, Catalog.violations_rename hρ]

/-- **Keys are only names**, as long as no surrogate is in them.  A catalog under new keys, its
versions in any order, has tables exactly if the catalog has, and then they differ in nothing but
the fingerprint; a key with a surrogate keeps either from having any.  With the versions left in
order, it is rejected with the same code at the same place. -/
theorem build_renamed (hρ : ρ.KeepsApart c.content) (hc' : c.content.Renames ρ c'.content) :
    (c.content.NoSurrogate → c'.content.NoSurrogate →
        ((∃ t, Tables.build c = .ok t) ↔ ∃ t, Tables.build c' = .ok t)) ∧
      (∀ t, Tables.build c = .ok t → ¬ c'.content.NoSurrogate → ∃ first place count,
        Tables.build c' = .error (.unwritten (.surrogates first place count))) ∧
      (∀ t', Tables.build c' = .ok t' → ¬ c.content.NoSurrogate → ∃ first place count,
        Tables.build c = .error (.unwritten (.surrogates first place count))) ∧
      (∀ t t', Tables.build c = .ok t → Tables.build c' = .ok t' →
        t' = { t with fingerprint := t'.fingerprint }) ∧
      (∀ r, Tables.build c = .error (.rejected r) → ∃ r',
        Tables.build (c.rename ρ) = .error (.rejected r') ∧
          r'.fault.code = r.fault.code ∧ r'.place = r.place) ∧
      (Tables.build c = .error (.unwritten .tooManyDigits) →
        Tables.build (c.rename ρ) = .error (.unwritten .tooManyDigits)) := by
  have haccepts := Catalog.acceptable_renames hρ hc'
  have hlimits := hc'.withinLimits
  refine ⟨fun hplain hplain' => ?_, fun t h hplain' => ?_, fun t' h' hplain => ?_,
    fun t t' h h' => eq_of_renames hc' h h', fun r => build_rename_rejected hρ,
    build_rename_digits hρ⟩
  · rw [build_ok_iff, build_ok_iff, haccepts, hlimits]
    exact and_congr_right fun _ => and_congr_right fun _ => iff_of_true hplain hplain'
  · obtain ⟨hc, hwithin, -⟩ := build_ok_iff.mp ⟨t, h⟩
    exact (build_unwritten (haccepts.mpr hc)).2 (hlimits.mpr hwithin) hplain'
  · obtain ⟨hc, hwithin, -⟩ := build_ok_iff.mp ⟨t', h'⟩
    exact (build_unwritten (haccepts.mp hc)).2 (hlimits.mp hwithin) hplain

/-- `interleaved` with its keys exchanged and its versions in the other order. -/
def exchanged : Catalog where
  types := [⟨⟨"f4", "float", 0, .default, false, some "Float"⟩, .root none⟩,
    ⟨⟨"f", "float", 4, .default, false, some "Float"⟩, .root none⟩]
  overloads := [⟨⟨"max", ["f4", "f4", "f4"], some "CL20", ""⟩, .root none⟩,
    ⟨⟨"min", ["f", "f"], some "CL10", "ext"⟩, .root none⟩,
    ⟨⟨"max", ["f4", "f4", "f4"], some "CL10", ""⟩, .root none⟩]
  versions := [⟨⟨"CL10", 200⟩, .root none⟩, ⟨⟨"CL20", 100⟩, .root none⟩]
  label := none
  file := none

/-- The two keys of types for one another, and so the two of versions. -/
def exchange : Renaming where
  type key := if key = "f" then "f4" else if key = "f4" then "f" else key
  version key := if key = "CL10" then "CL20" else if key = "CL20" then "CL10" else key

theorem keepsApart_exchange : exchange.KeepsApart interleaved.content :=
  ⟨by decide, by decide⟩

theorem renames_exchanged : interleaved.content.Renames exchange exchanged.content :=
  ⟨by decide, by decide, by decide, rfl⟩

theorem build_renamed_exchanged : ∃ t t', Tables.build interleaved = .ok t ∧
    Tables.build exchanged = .ok t' ∧ t' = { t with fingerprint := t'.fingerprint } := by
  obtain ⟨t, h⟩ := interleaved_builds
  obtain ⟨hiff, -, -, hsame, -⟩ := build_renamed keepsApart_exchange renames_exchanged
  obtain ⟨t', h'⟩ := (hiff (by decide) (by decide)).mp ⟨t, h⟩
  exact ⟨t, t', h, h', hsame t t' h h'⟩

/-- A lone surrogate for the first of the keys. -/
def strange : Renaming where
  type key := if key = "f" then lone else key
  version key := key

/-- The new key keeps the catalog from having tables. -/
theorem build_strange : strange.KeepsApart interleaved.content ∧
    (∃ t, Tables.build interleaved = .ok t) ∧
      ∀ t, Tables.build (interleaved.rename strange) ≠ .ok t := by
  refine ⟨⟨by decide, by decide⟩, interleaved_builds, fun t h => ?_⟩
  have hplain : ¬ (interleaved.rename strange).content.NoSurrogate := by decide
  exact hplain (build_ok_iff.mp ⟨t, h⟩).2.2

end Tables
end OverloadTables
