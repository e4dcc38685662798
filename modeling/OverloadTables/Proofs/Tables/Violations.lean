import OverloadTables.Proofs.Violation
import OverloadTables.Tables.Build

/-!
# What is wrong with a catalog

* `Catalog.violations c`   every broken rule with its place, in the order of the declarations;
* `Content.Acceptable`     the rules, of which none speaks of an order (`Acceptable.of_mem`);
* `Catalog.violations_eq_nil`   nothing is wrong exactly if the rules hold.
-/

namespace OverloadTables

/-! ## broken rules in order -/

/-- A type against itself and the types before it: the name, the width, the key and the concrete
type in this order. -/
def typeViolations (before : List (Located DeclaredType)) (d : Located DeclaredType) :
    List Violation :=
  breach (d.value.name.isIdentifier) "E-CATALOG-FIELD" (d.place.member "name")
    ++ (breach (decide (0 ≤ d.value.width)) "E-CATALOG-FIELD" (d.place.member "vec_width")
      [d.value.width]
    ++ (breach (before.all fun b => b.value.key = d.value.key → b.value = d.value)
      "E-TYPE-DUP" d.place
    ++ breach (before.all fun b => b.value.name = d.value.name →
        b.value.concrete = d.value.concrete)
      "E-TYPE-QUAL" (d.place.member "qual_type")))

/-- The numbers of the first version with a key. -/
def firstNumber (key : LooseText) (vs : List (Located Version)) : List Int :=
  ((vs.find? (·.value.key = key)).map (·.value.number)).toList

/-- A version against the versions before it. -/
def versionViolations (before : List (Located Version)) (v : Located Version) : List Violation :=
  breach (before.all fun b => b.value.key = v.value.key → b.value.number = v.value.number)
    "E-VERSION-DUP" v.place (firstNumber v.value.key before ++ [v.value.number])

/-- References from the left, the first of them item `i` of the signature. -/
def referenceViolations (types : List DeclaredType) (signature : Place) (keys : List LooseText)
    (i : Nat) : List Violation :=
  (keys.zipIdx i).flatMap fun k =>
    breach (types.any (·.key = k.1)) "E-TYPE-UNDECLARED" (signature.item k.2)

/-- An overload: the name, the emptiness of the signature, the type references and the version in
this order. -/
def overloadViolations (c : Content) (o : Located Overload) : List Violation :=
  breach (o.value.name ≠ "" && o.value.name.allPrintable) "E-CATALOG-FIELD"
      (o.place.member "name")
    ++ (breach (o.value.signature ≠ []) "E-SIG-EMPTY" (o.place.member "signature")
    ++ (referenceViolations c.types (o.place.member "signature") o.value.signature 0
    ++ breach (c.versions.any fun v => o.value.version = some v.key) "E-VERSION-MISSING"
      (o.place.member "version")))

/-- All that is wrong: types, then versions, then overloads. -/
def Catalog.violations (c : Catalog) : List Violation :=
  inOrder typeViolations [] c.types
    ++ (inOrder versionViolations [] c.versions
    ++ c.overloads.flatMap (overloadViolations c.content))

/-- Of a type the width is told. -/
theorem integers_of_typeViolation {before : List (Located DeclaredType)} {d : Located DeclaredType}
    {v : Violation} (h : v ∈ typeViolations before d) : ∀ n ∈ v.integers, n = d.value.width := by
  simp only [typeViolations, List.mem_append] at h
  rcases h with h | h | h | h
  case inr.inl =>
    rw [integers_of_breach h]
    exact List.forall_mem_singleton.mpr rfl
  all_goals
    rw [integers_of_breach h]
    exact List.forall_mem_nil _

theorem integers_of_overloadViolation {c : Content} {o : Located Overload} {v : Violation}
    (h : v ∈ overloadViolations c o) : v.integers = [] := by
  simp only [overloadViolations, referenceViolations, List.mem_append, List.mem_flatMap] at h
  rcases h with h | h | ⟨k, -, h⟩ | h
  all_goals exact integers_of_breach h

/-! ## the rules -/

/-- What tables ask of a catalog. -/
structure Content.Acceptable (c : Content) : Prop where
  identifiers : ∀ d ∈ c.types, d.name.isIdentifier = true
  widths : ∀ d ∈ c.types, 0 ≤ d.width
  types : ∀ d ∈ c.types, ∀ e ∈ c.types, d.key = e.key → d = e
  concretes : ∀ d ∈ c.types, ∀ e ∈ c.types, d.name = e.name → d.concrete = e.concrete
  versions : ∀ v ∈ c.versions, ∀ w ∈ c.versions, v.key = w.key → v.number = w.number
  names : ∀ o ∈ c.overloads, o.name ≠ "" ∧ o.name.allPrintable = true
  signatures : ∀ o ∈ c.overloads, o.signature ≠ []
  references : ∀ o ∈ c.overloads, ∀ key ∈ o.signature, ∃ d ∈ c.types, d.key = key
  introduced : ∀ o ∈ c.overloads, ∃ v ∈ c.versions, o.version = some v.key

/-- The order of declarations does not matter, and neither does how often one comes. -/
theorem Content.Acceptable.of_mem {c c' : Content} (hc : c.Acceptable)
    (htypes : ∀ d, d ∈ c'.types ↔ d ∈ c.types)
    (hoverloads : ∀ o, o ∈ c'.overloads ↔ o ∈ c.overloads)
    (hversions : ∀ v, v ∈ c'.versions ↔ v ∈ c.versions) : c'.Acceptable := by
  have hd {d} : d ∈ c'.types → d ∈ c.types := (htypes d).mp
  have ho {o} : o ∈ c'.overloads → o ∈ c.overloads := (hoverloads o).mp
  have hv {v} : v ∈ c'.versions → v ∈ c.versions := (hversions v).mp
  refine ⟨fun d h => hc.identifiers d (hd h), fun d h => hc.widths d (hd h),
    fun d h e h' => hc.types d (hd h) e (hd h'), fun d h e h' => hc.concretes d (hd h) e (hd h'),
    fun v h w h' => hc.versions v (hv h) w (hv h'), fun o h => hc.names o (ho h),
    fun o h => hc.signatures o (ho h), fun o h key hkey => ?_, fun o h => ?_⟩
  · obtain ⟨d, hmem, hdk⟩ := hc.references o (ho h) key hkey
    exact ⟨d, (htypes d).mpr hmem, hdk⟩
  · obtain ⟨v, hmem, hvk⟩ := hc.introduced o (ho h)
    exact ⟨v, (hversions v).mpr hmem, hvk⟩

/-! ## nothing wrong -/

theorem typeViolations_eq_nil (before : List (Located DeclaredType)) (d : Located DeclaredType) :
    typeViolations before d = [] ↔
      (d.value.name.isIdentifier = true ∧ 0 ≤ d.value.width) ∧ ∀ b ∈ before,
        (b.value.key = d.value.key → b.value = d.value) ∧
          (b.value.name = d.value.name → b.value.concrete = d.value.concrete) := by
  simp only [typeViolations, List.append_eq_nil_iff, breach_eq_nil, List.all_eq_true,
    decide_eq_true_eq]
  rw [and_assoc, forall₂_and]

theorem versionViolations_eq_nil (before : List (Located Version)) (v : Located Version) :
    versionViolations before v = [] ↔ True ∧ ∀ b ∈ before,
      b.value.key = v.value.key → b.value.number = v.value.number := by
  simp only [versionViolations, breach_eq_nil, List.all_eq_true, decide_eq_true_eq, true_and]

theorem referenceViolations_eq_nil (types : List DeclaredType) (signature : Place)
    (keys : List LooseText) (i : Nat) : referenceViolations types signature keys i = [] ↔
      ∀ key ∈ keys, ∃ d ∈ types, d.key = key := by
  induction keys generalizing i with
  | nil => simp [referenceViolations]
  | cons key keys ih =>
    have hrest := ih (i + 1)
    rw [referenceViolations] at hrest ⊢
    rw [List.zipIdx_cons, List.flatMap_cons, List.append_eq_nil_iff, hrest, breach_eq_nil,
      List.forall_mem_cons]
    simp only [List.any_eq_true, decide_eq_true_eq]

theorem overloadViolations_eq_nil (c : Content) (o : Located Overload) :
    overloadViolations c o = [] ↔
      (o.value.name ≠ "" ∧ o.value.name.allPrintable = true) ∧ o.value.signature ≠ [] ∧
        (∀ key ∈ o.value.signature, ∃ d ∈ c.types, d.key = key) ∧
        ∃ v ∈ c.versions, o.value.version = some v.key := by
  simp only [overloadViolations, List.append_eq_nil_iff, breach_eq_nil, referenceViolations_eq_nil,
    List.any_eq_true, Bool.and_eq_true, decide_eq_true_eq]

/-- **Nothing is wrong exactly if the rules hold.** -/
theorem Catalog.violations_eq_nil (c : Catalog) : c.violations = [] ↔ c.content.Acceptable := by
  rw [violations, List.append_eq_nil_iff, List.append_eq_nil_iff,
    inOrder_nil_eq_nil typeViolations_eq_nil (fun _ => ⟨fun _ => rfl, fun _ => rfl⟩)
      (fun _ _ h => ⟨fun e => (h.1 e.symm).symm, fun e => (h.2 e.symm).symm⟩),
    inOrder_nil_eq_nil versionViolations_eq_nil (fun _ _ => rfl)
      (fun _ _ h e => (h e.symm).symm), List.flatMap_eq_nil_iff]
  simp only [overloadViolations_eq_nil]
  constructor
  · rintro ⟨⟨hown, htypes⟩, ⟨-, hversions⟩, hoverloads⟩
    constructor <;> simp only [content, List.forall_mem_map]
    · exact fun d hd => (hown d hd).1
    · exact fun d hd => (hown d hd).2
    · exact fun d hd e he => (htypes d hd e he).1
    · exact fun d hd e he => (htypes d hd e he).2
    · exact hversions
    · exact fun o ho => (hoverloads o ho).1
    · exact fun o ho => (hoverloads o ho).2.1
    · exact fun o ho => (hoverloads o ho).2.2.1
    · exact fun o ho => (hoverloads o ho).2.2.2
  · intro h
    have mem {α : Type} {l : List (Located α)} {a : Located α} (ha : a ∈ l) :
        a.value ∈ l.map (·.value) := List.mem_map.mpr ⟨a, ha, rfl⟩
    refine ⟨⟨fun d hd => ⟨h.identifiers _ (mem hd), h.widths _ (mem hd)⟩, fun d hd e he => ?_⟩,
      ⟨fun _ _ => trivial, fun v hv w hw => h.versions _ (mem hv) _ (mem hw)⟩, fun o ho => ?_⟩
    · exact ⟨h.types _ (mem hd) _ (mem he), h.concretes _ (mem hd) _ (mem he)⟩
    · exact ⟨h.names _ (mem ho), h.signatures _ (mem ho), h.references _ (mem ho),
        h.introduced _ (mem ho)⟩

/-- Of a type without any rule kept and an overload of a type that is not declared. -/
example : Catalog.violations ⟨[⟨⟨"f", "", -1, .default, false, none⟩, .root none⟩],
    [⟨⟨"max", ["f", "g"], none, ""⟩, .root none⟩], [], none, none⟩
    = [⟨"E-CATALOG-FIELD", ⟨none, some "name"⟩, []⟩,
      ⟨"E-CATALOG-FIELD", ⟨none, some "vec_width"⟩, [-1]⟩,
      ⟨"E-TYPE-UNDECLARED", ⟨none, some "signature[1]"⟩, []⟩,
      ⟨"E-VERSION-MISSING", ⟨none, some "version"⟩, []⟩] := by rfl

end OverloadTables
