import OverloadTables.Catalog.Decode
import OverloadTables.Catalog.Encode
import OverloadTables.Proofs.Except
import OverloadTables.Proofs.Json.Canonical

/-!
# Records and their readers

A record is legible if its reader can give it.  One statement about a reader, `Reader.Exact`, says
that it gives legible records only, gives every legible record back from what is written of it,
and does not look at the order of members.

* `Version.Legible`, `DeclaredType.Legible`, `Overload.Legible`   what a document can hold;
* `versionOfJson_eq`, `typeOfJson_eq`, `overloadOfJson_eq`        a reader takes one member after
                                                                  the other;
* `exact_version`, `exact_type`, `exact_overload`                 the three readers.
-/

namespace OverloadTables

/-! ## legible records -/

def Version.Legible (v : Version) : Prop := v.key ≠ ""

/-- The text `null` stands for no concrete type, so it is none. -/
structure DeclaredType.Legible (t : DeclaredType) : Prop where
  key : t.key ≠ ""
  name : t.name ≠ ""
  concrete : ∀ q ∈ t.concrete, q ≠ "" ∧ q ≠ "null"

structure Overload.Legible (o : Overload) : Prop where
  name : o.name ≠ ""
  printable : o.name.allPrintable = true
  references : ∀ key ∈ o.signature, key ≠ ""

/-- A document can hold the declarations.  The label, widths, extensions and references to versions
are free, and a signature may be empty. -/
structure Content.Legible (c : Content) : Prop where
  versions : ∀ v ∈ c.versions, v.Legible
  types : ∀ t ∈ c.types, t.Legible
  overloads : ∀ o ∈ c.overloads, o.Legible

namespace Catalog
open Json (sortedObject get?_sortedObject)

/-- What a reader of records is to its writer. -/
structure Exact {α : Type} (read : Members → Place → Decoded α) (write : α → Json)
    (Legible : α → Prop) : Prop where
  /-- Only legible records are read. -/
  legible : ∀ {ms place a}, read ms place = .ok a → Legible a
  /-- A legible record is read as it was written. -/
  back : ∀ {a}, Legible a → ∃ ms, write a = .obj ms ∧ ∀ place, read ms place = .ok a
  /-- Records are read alike when all members are put in order. -/
  sorted : ∀ ms place, read (sortedObject ms) place = read ms place

section
variable {ms : Members} {key : String} {s : LooseText} {place : Place}

/-! ## members -/

theorem requiredText_eq_ok :
    requiredText ms key place = .ok s ↔ ms.get? key = some (.str s) ∧ s ≠ "" := by
  unfold requiredText
  split
  next t ht =>
    rw [ht, Option.some.injEq, Json.str.injEq]
    by_cases hempty : t = ""
    · rw [if_pos hempty]
      exact ⟨nofun, fun ⟨hs, hne⟩ => absurd (hs ▸ hempty) hne⟩
    · rw [if_neg hempty, Except.ok.injEq]
      exact ⟨fun hs => ⟨hs, hs ▸ hempty⟩, And.left⟩
  next hnone => exact ⟨nofun, fun ⟨hs, _⟩ => absurd hs (hnone s)⟩

theorem referencesOfJson_eq_ok {vs : List Json} {i : Nat} {keys : List LooseText} :
    referencesOfJson place i vs = .ok keys ↔ vs = keys.map .str ∧ ∀ key ∈ keys, key ≠ "" := by
  induction vs generalizing i keys with
  | nil =>
    rw [referencesOfJson, Except.ok.injEq]
    cases keys with
    | nil => exact ⟨fun _ => ⟨rfl, List.forall_mem_nil _⟩, fun _ => rfl⟩
    | cons _ _ => exact ⟨nofun, fun h => nomatch h.1⟩
  | cons v vs ih =>
    cases v with
    | str s =>
      rw [referencesOfJson]
      by_cases hempty : s = ""
      · rw [if_pos hempty]
        refine ⟨nofun, fun ⟨hkeys, hne⟩ => ?_⟩
        cases keys with
        | nil => exact nomatch hkeys
        | cons key keys =>
          obtain ⟨hs, -⟩ := List.cons.inj hkeys
          exact absurd ((Json.str.inj hs) ▸ hempty) (hne key List.mem_cons_self)
      · rw [if_neg hempty, bind_eq_ok]
        refine ⟨fun ⟨rest, hrest, hok⟩ => ?_, fun ⟨hkeys, hne⟩ => ?_⟩
        · obtain ⟨rfl, hne⟩ := ih.mp hrest
          obtain rfl := pure_eq_ok.mp hok
          exact ⟨rfl, List.forall_mem_cons.mpr ⟨hempty, hne⟩⟩
        · cases keys with
          | nil => exact nomatch hkeys
          | cons key keys =>
            obtain ⟨hs, hvs⟩ := List.cons.inj hkeys
            obtain rfl := Json.str.inj hs
            exact ⟨keys, ih.mpr ⟨hvs, (List.forall_mem_cons.mp hne).2⟩, rfl⟩
    | _ =>
      refine ⟨nofun, fun ⟨hkeys, _⟩ => ?_⟩
      cases keys with
      | nil | cons _ _ => exact nomatch hkeys

theorem concreteOfJson_legible {c : Option LooseText} (h : concreteOfJson ms place = .ok c) :
    ∀ q ∈ c, q ≠ "" ∧ q ≠ "null" := by
  intro q hq
  obtain rfl := Option.mem_def.mp hq
  unfold concreteOfJson at h
  split at h
  · exact nomatch h
  · exact nomatch h
  next s hs =>
    by_cases hnull : s = "null"
    · rw [if_pos hnull] at h
      exact nomatch h
    · by_cases hempty : s = ""
      · rw [if_neg hnull, if_pos hempty] at h
        exact nomatch h
      · rw [if_neg hnull, if_neg hempty] at h
        obtain rfl := Option.some.inj (Except.ok.inj h)
        exact ⟨hempty, hnull⟩
  · exact nomatch h

theorem concreteOfJson_written {c : Option LooseText}
    (h : ms.get? "qual_type" = some (.str (c.getD "null"))) (hc : ∀ q ∈ c, q ≠ "" ∧ q ≠ "null") :
    concreteOfJson ms place = .ok c := by
  unfold concreteOfJson
  rw [h]
  cases c with
  | none => rfl
  | some q =>
    obtain ⟨hempty, hnull⟩ := hc q rfl
    show (if q = "null" then _ else if q = "" then _ else _) = _
    rw [if_neg hnull, if_neg hempty]
    rfl

/-! ## members in order -/

theorem requiredText_sorted :
    requiredText (sortedObject ms) key place = requiredText ms key place := by
  rw [requiredText, requiredText, get?_sortedObject]
  cases ms.get? key with
  | none => rfl
  | some v => cases v <;> rfl

theorem optionalText_sorted {absent : LooseText} :
    optionalText (sortedObject ms) key place absent = optionalText ms key place absent := by
  rw [optionalText, optionalText, get?_sortedObject]
  cases ms.get? key with
  | none => rfl
  | some v => cases v <;> rfl

theorem optionalInteger_sorted {absent : Int} :
    optionalInteger (sortedObject ms) key place absent = optionalInteger ms key place absent := by
  rw [optionalInteger, optionalInteger, get?_sortedObject]
  cases ms.get? key with
  | none => rfl
  | some v => cases v <;> rfl

theorem optionalBoolean_sorted {absent : Bool} :
    optionalBoolean (sortedObject ms) key place absent = optionalBoolean ms key place absent := by
  rw [optionalBoolean, optionalBoolean, get?_sortedObject]
  cases ms.get? key with
  | none => rfl
  | some v => cases v <;> rfl

theorem concreteOfJson_sorted :
    concreteOfJson (sortedObject ms) place = concreteOfJson ms place := by
  rw [concreteOfJson, concreteOfJson, get?_sortedObject]
  cases ms.get? "qual_type" with
  | none => rfl
  | some v => cases v <;> rfl

theorem referencesOfJson_sorted (vs : List Json) (i : Nat) :
    referencesOfJson place i (vs.map Json.sorted) = referencesOfJson place i vs := by
  induction vs generalizing i with
  | nil => rfl
  | cons v vs ih =>
    cases v with
    | str s =>
      show referencesOfJson place i (.str s :: vs.map Json.sorted) = _
      rw [referencesOfJson, referencesOfJson, ih]
    | _ => rfl

end

/-! ## readers as one step after the other -/

section
variable (ms : Members) (place : Place)

/-- The number of a version, which must be there. -/
def numberOfJson : Decoded Int :=
  match ms.get? "version" with
  | none => .error ⟨.missingNumber, place.member "version"⟩
  | some _ => optionalInteger ms "version" place 0

/-- The address space with a name. -/
def spaceOfName (name : LooseText) : Decoded AddressSpace :=
  match spaceOf? name with
  | some space => .ok space
  | none => .error ⟨.unknownAddressSpace name, place.member "addr_space"⟩

def printableOfJson : Decoded LooseText :=
  requiredText ms "name" place >>= fun name =>
    if name.allPrintable = false then .error ⟨.unprintableName name, place.member "name"⟩
    else .ok name

def signatureOfJson (name : LooseText) : Decoded (List LooseText) :=
  match ms.get? "signature" with
  | some (.arr vs) => referencesOfJson place 0 vs
  | _ => .error ⟨.missingSignature name, place.member "signature"⟩

def referenceOfJson : Decoded (Option LooseText) :=
  match ms.get? "version" with
  | none | some .null => .ok none
  | some (.str s) => .ok (some s)
  | some _ => .error ⟨.invalidVersionReference, place.member "version"⟩

theorem versionOfJson_eq : versionOfJson ms place =
    requiredText ms "def" place >>= fun key =>
    numberOfJson ms place >>= fun number => .ok ⟨key, number⟩ := by
  unfold versionOfJson numberOfJson
  refine bind_congr fun key => ?_
  cases ms.get? "version" with
  | none => rfl
  | some x => rfl

theorem typeOfJson_eq : typeOfJson ms place =
    requiredText ms "def" place >>= fun key =>
    requiredText ms "name" place >>= fun name =>
    optionalInteger ms "vec_width" place 0 >>= fun width =>
    optionalText ms "addr_space" place "Default" >>= fun spaceName =>
    spaceOfName place spaceName >>= fun space =>
    optionalBoolean ms "is_pointer" place false >>= fun pointer =>
    concreteOfJson ms place >>= fun concrete =>
      .ok ⟨key, name, width, space, pointer, concrete⟩ := by
  unfold typeOfJson spaceOfName
  refine bind_congr fun key => bind_congr fun name => bind_congr fun width =>
    bind_congr fun spaceName => ?_
  cases spaceOf? spaceName with
  | none => rfl
  | some space => rfl

theorem overloadOfJson_eq : overloadOfJson ms place =
    printableOfJson ms place >>= fun name =>
    signatureOfJson ms place name >>= fun signature =>
    referenceOfJson ms place >>= fun version =>
    optionalText ms "extension" place "" >>= fun extension =>
      .ok ⟨name, signature, version, extension⟩ := by
  unfold overloadOfJson printableOfJson signatureOfJson referenceOfJson
  rw [bind_assoc]
  refine bind_congr fun name => ?_
  cases name.allPrintable with
  | false => rfl
  | true =>
    cases ms.get? "signature" with
    | none => rfl
    | some x =>
      cases x with
      | arr vs =>
        refine bind_congr fun signature => ?_
        cases ms.get? "version" with
        | none => rfl
        | some y => cases y <;> rfl
      | _ => rfl

end

section
variable {ms : Members} {place : Place}

theorem printableOfJson_eq_ok {name : LooseText} : printableOfJson ms place = .ok name ↔
    ms.get? "name" = some (.str name) ∧ name ≠ "" ∧ name.allPrintable = true := by
  rw [printableOfJson, bind_eq_ok]
  constructor
  · rintro ⟨s, hs, h⟩
    split at h
    · exact nomatch h
    next hprintable =>
      obtain rfl := Except.ok.inj h
      obtain ⟨hmember, hne⟩ := requiredText_eq_ok.mp hs
      exact ⟨hmember, hne, eq_true_of_ne_false hprintable⟩
  · rintro ⟨hmember, hne, hprintable⟩
    refine ⟨name, requiredText_eq_ok.mpr ⟨hmember, hne⟩, ?_⟩
    rw [if_neg (ne_false_of_eq_true hprintable)]

theorem signatureOfJson_eq_ok {name : LooseText} {keys : List LooseText} :
    signatureOfJson ms place name = .ok keys ↔
      ms.get? "signature" = some (.arr (keys.map .str)) ∧ ∀ key ∈ keys, key ≠ "" := by
  unfold signatureOfJson
  split
  next vs hvs =>
    rw [hvs, referencesOfJson_eq_ok, Option.some.injEq, Json.arr.injEq]
  next hnone => exact ⟨nofun, fun ⟨h, _⟩ => absurd h (hnone _)⟩

end

/-! ## the readers -/

theorem exact_version : Exact versionOfJson Version.toJson Version.Legible where
  legible {ms place v} h := by
    rw [versionOfJson_eq] at h
    obtain ⟨key, hkey, h⟩ := bind_eq_ok.mp h
    obtain ⟨number, -, h⟩ := bind_eq_ok.mp h
    obtain rfl := Except.ok.inj h
    exact (requiredText_eq_ok.mp hkey).2
  back {v} hv := by
    refine ⟨_, rfl, fun place => ?_⟩
    refine bind_eq_ok.mpr ⟨v.key, requiredText_eq_ok.mpr ⟨rfl, hv⟩, ?_⟩
    rfl
  sorted ms place := by
    have hnone : ((sortedObject ms).get? "version").isNone = (ms.get? "version").isNone := by
      rw [get?_sortedObject, Option.isNone_map]
    unfold versionOfJson
    rw [requiredText_sorted, hnone, optionalInteger_sorted]

theorem spaceOf?_spelling (s : AddressSpace) : spaceOf? s.spelling = some s := by
  cases s <;> rfl

theorem exact_type : Exact typeOfJson DeclaredType.toJson DeclaredType.Legible where
  legible {ms place t} h := by
    rw [typeOfJson_eq] at h
    obtain ⟨key, hkey, h⟩ := bind_eq_ok.mp h
    obtain ⟨name, hname, h⟩ := bind_eq_ok.mp h
    obtain ⟨width, -, h⟩ := bind_eq_ok.mp h
    obtain ⟨spaceName, -, h⟩ := bind_eq_ok.mp h
    obtain ⟨space, -, h⟩ := bind_eq_ok.mp h
    obtain ⟨pointer, -, h⟩ := bind_eq_ok.mp h
    obtain ⟨concrete, hconcrete, h⟩ := bind_eq_ok.mp h
    obtain rfl := Except.ok.inj h
    exact ⟨(requiredText_eq_ok.mp hkey).2, (requiredText_eq_ok.mp hname).2,
      concreteOfJson_legible hconcrete⟩
  back {t} ht := by
    refine ⟨_, rfl, fun place => ?_⟩
    refine bind_eq_ok.mpr ⟨t.key, requiredText_eq_ok.mpr ⟨rfl, ht.key⟩, ?_⟩
    refine bind_eq_ok.mpr ⟨t.name, requiredText_eq_ok.mpr ⟨rfl, ht.name⟩, ?_⟩
    refine bind_eq_ok.mpr ⟨t.width, rfl, ?_⟩
    refine bind_eq_ok.mpr ⟨t.space.spelling, rfl, ?_⟩
    rw [spaceOf?_spelling]
    refine bind_eq_ok.mpr ⟨t.space, rfl, ?_⟩
    refine bind_eq_ok.mpr ⟨t.pointer, rfl, ?_⟩
    exact bind_eq_ok.mpr ⟨t.concrete, concreteOfJson_written rfl ht.concrete, rfl⟩
  sorted ms place := by
    unfold typeOfJson
    simp only [requiredText_sorted, optionalInteger_sorted, optionalText_sorted,
      optionalBoolean_sorted, concreteOfJson_sorted]

theorem exact_overload : Exact overloadOfJson Overload.toJson Overload.Legible where
  legible {ms place o} h := by
    rw [overloadOfJson_eq] at h
    obtain ⟨name, hname, h⟩ := bind_eq_ok.mp h
    obtain ⟨signature, hsignature, h⟩ := bind_eq_ok.mp h
    obtain ⟨version, -, h⟩ := bind_eq_ok.mp h
    obtain ⟨extension, -, h⟩ := bind_eq_ok.mp h
    obtain rfl := Except.ok.inj h
    obtain ⟨-, hne, hprintable⟩ := printableOfJson_eq_ok.mp hname
    exact ⟨hne, hprintable, (signatureOfJson_eq_ok.mp hsignature).2⟩
  back {o} ho := by
    refine ⟨_, rfl, fun place => ?_⟩
    refine bind_eq_ok.mpr ⟨o.name, requiredText_eq_ok.mpr ⟨rfl, ho.name⟩, ?_⟩
    rw [ho.printable]
    refine bind_eq_ok.mpr ⟨o.signature, referencesOfJson_eq_ok.mpr ⟨rfl, ho.references⟩, ?_⟩
    obtain ⟨name, signature, version, extension⟩ := o
    cases version with
    | none | some key => rfl
  sorted ms place := by
    unfold overloadOfJson
    simp only [requiredText_sorted, optionalText_sorted, get?_sortedObject]
    refine bind_congr fun name => ?_
    split
    · rfl
    cases ms.get? "signature" with
    | none => rfl
    | some v =>
      cases v with
      | arr vs =>
        rw [Option.map_some, Json.sorted_arr]
        simp only [referencesOfJson_sorted]
        refine bind_congr fun signature => ?_
        cases ms.get? "version" with
        | none => rfl
        | some v => cases v <;> rfl
      | _ => rfl

end Catalog
end OverloadTables
