import OverloadTables.Proofs.Catalog.Path
import OverloadTables.Proofs.Catalog.RoundTrip

/-!
# What a document says, and where

* `SaysVersion ms v`, `SaysType ms t`, `SaysOverload ms o`   the members `ms` of a record say the
                           declaration; members left out stand for their defaults;
* `Said file v kind Says l`   the declarations `l` are what the entries of a section say, each at
                           the place of its entry;
* `ofJson_said`            what is read is what the document says.
-/

namespace OverloadTables

/-! ## records -/

structure SaysVersion (ms : Members) (v : Version) : Prop where
  key : ms.get? "def" = some (.str v.key)
  number : ms.get? "version" = some (.int v.number)

/-- The concrete type that a member tells: absent, null and the text `null` tell none. -/
def concreteSaid : Option Json → Option LooseText
  | some (.str s) => if s = "null" then none else some s
  | _ => none

structure SaysType (ms : Members) (t : DeclaredType) : Prop where
  key : ms.get? "def" = some (.str t.key)
  name : ms.get? "name" = some (.str t.name)
  width : (ms.get? "vec_width").getD (.int 0) = .int t.width
  space : ∃ s, (ms.get? "addr_space").getD (.str "Default") = .str s ∧
    Catalog.spaceOf? s = some t.space
  pointer : (ms.get? "is_pointer").getD (.bool false) = .bool t.pointer
  concrete : concreteSaid (ms.get? "qual_type") = t.concrete

/-- No reference to a version may be left out or be null. -/
structure SaysOverload (ms : Members) (o : Overload) : Prop where
  name : ms.get? "name" = some (.str o.name)
  signature : ms.get? "signature" = some (.arr (o.signature.map .str))
  version : (ms.get? "version").getD .null = (o.version.map .str).getD .null
  extension : (ms.get? "extension").getD (.str "") = .str o.extension

/-! ## sections -/

/-- The steps to an entry of a section. -/
abbrev entrySteps (kind : String) (i : Nat) : List PathStep := [.member kind, .item i]

/-- The declarations of a section, each with the place of the entry that says it.  All entries are
there. -/
structure Said {α : Type} (file : Option String) (v : Json) (kind : String)
    (Says : Members → α → Prop) (l : List (Located α)) : Prop where
  entry : ∀ i a, l[i]? = some a → a.place = (Place.root file).follow (entrySteps kind i) ∧
    ∃ ms, v.follow? (entrySteps kind i) = some (.obj ms) ∧ Says ms a.value
  whole : ∀ i ms, v.follow? (entrySteps kind i) = some (.obj ms) → ∃ a ∈ l, Says ms a.value

/-- What no declaration of a section has, no entry has. -/
theorem Said.undeclared {α : Type} {file : Option String} {v : Json} {kind : String}
    {Says : Members → α → Prop} {l : List (Located α)} (hl : Said file v kind Says l)
    {keyOf : α → LooseText} {key : LooseText}
    (htold : ∀ ms a, Says ms a → ms.get? "def" = some (.str (keyOf a)))
    (h : ∀ a ∈ l.map (·.value), keyOf a ≠ key) (j : Nat) :
    v.follow? (entrySteps kind j ++ [.member "def"]) ≠ some (.str key) := by
  intro hkey
  obtain ⟨ms, hms, hdef⟩ := Json.follow?_member_eq_some.mp hkey
  obtain ⟨a, ha, hsaid⟩ := hl.whole j ms hms
  rw [htold ms a.value hsaid, Option.some.injEq, Json.str.injEq] at hdef
  exact h a.value (List.mem_map_of_mem ha) hdef

namespace Catalog

/-! ## reading records -/

section
variable {ms : Members} {key : String} {place : Place}

theorem optionalText_eq_ok {absent s : LooseText} : optionalText ms key place absent = .ok s ↔
    (ms.get? key).getD (.str absent) = .str s := by
  unfold optionalText
  cases ms.get? key with
  | none => simp
  | some x => cases x <;> simp

theorem optionalInteger_eq_ok {absent n : Int} : optionalInteger ms key place absent = .ok n ↔
    (ms.get? key).getD (.int absent) = .int n := by
  unfold optionalInteger
  cases ms.get? key with
  | none => simp
  | some x => cases x <;> simp

theorem optionalBoolean_eq_ok {absent b : Bool} : optionalBoolean ms key place absent = .ok b ↔
    (ms.get? key).getD (.bool absent) = .bool b := by
  unfold optionalBoolean
  cases ms.get? key with
  | none => simp
  | some x => cases x <;> simp

theorem numberOfJson_eq_ok {n : Int} :
    numberOfJson ms place = .ok n ↔ ms.get? "version" = some (.int n) := by
  unfold numberOfJson
  cases hx : ms.get? "version" with
  | none => exact ⟨nofun, nofun⟩
  | some x => rw [optionalInteger_eq_ok, hx, Option.getD_some, Option.some.injEq]

theorem spaceOfName_eq_ok {name : LooseText} {space : AddressSpace} :
    spaceOfName place name = .ok space ↔ spaceOf? name = some space := by
  unfold spaceOfName
  cases spaceOf? name with
  | none => exact ⟨nofun, nofun⟩
  | some _ => rw [Except.ok.injEq, Option.some.injEq]

theorem referenceOfJson_eq_ok {version : Option LooseText} : referenceOfJson ms place = .ok version ↔
    (ms.get? "version").getD .null = (version.map .str).getD .null := by
  unfold referenceOfJson
  cases ms.get? "version" with
  | none => cases version <;> simp
  | some x => cases x <;> cases version <;> simp

theorem concreteSaid_eq {c : Option LooseText} (h : concreteOfJson ms place = .ok c) :
    concreteSaid (ms.get? "qual_type") = c := by
  unfold concreteOfJson at h
  split at h
  next hx =>
    rw [hx]
    exact Except.ok.inj h
  next hx =>
    rw [hx]
    exact Except.ok.inj h
  next s hx =>
    rw [hx, concreteSaid]
    by_cases hnull : s = "null"
    · rw [if_pos hnull] at h ⊢
      exact Except.ok.inj h
    · by_cases hempty : s = ""
      · rw [if_neg hnull, if_pos hempty] at h
        exact nomatch h
      · rw [if_neg hnull, if_neg hempty] at h
        rw [if_neg hnull]
        exact Except.ok.inj h
  · exact nomatch h

theorem versionOfJson_said {v : Version} (h : versionOfJson ms place = .ok v) :
    SaysVersion ms v := by
  rw [versionOfJson_eq] at h
  obtain ⟨key, hkey, h⟩ := bind_eq_ok.mp h
  obtain ⟨number, hnumber, h⟩ := bind_eq_ok.mp h
  obtain rfl := Except.ok.inj h
  exact ⟨(requiredText_eq_ok.mp hkey).1, numberOfJson_eq_ok.mp hnumber⟩

theorem typeOfJson_said {t : DeclaredType} (h : typeOfJson ms place = .ok t) : SaysType ms t := by
  rw [typeOfJson_eq] at h
  obtain ⟨key, hkey, h⟩ := bind_eq_ok.mp h
  obtain ⟨name, hname, h⟩ := bind_eq_ok.mp h
  obtain ⟨width, hwidth, h⟩ := bind_eq_ok.mp h
  obtain ⟨spaceName, hspaceName, h⟩ := bind_eq_ok.mp h
  obtain ⟨space, hspace, h⟩ := bind_eq_ok.mp h
  obtain ⟨pointer, hpointer, h⟩ := bind_eq_ok.mp h
  obtain ⟨concrete, hconcrete, h⟩ := bind_eq_ok.mp h
  obtain rfl := Except.ok.inj h
  exact {
    key := (requiredText_eq_ok.mp hkey).1
    name := (requiredText_eq_ok.mp hname).1
    width := optionalInteger_eq_ok.mp hwidth
    space := ⟨spaceName, optionalText_eq_ok.mp hspaceName, spaceOfName_eq_ok.mp hspace⟩
    pointer := optionalBoolean_eq_ok.mp hpointer
    concrete := concreteSaid_eq hconcrete }

theorem overloadOfJson_said {o : Overload} (h : overloadOfJson ms place = .ok o) :
    SaysOverload ms o := by
  rw [overloadOfJson_eq] at h
  obtain ⟨name, hname, h⟩ := bind_eq_ok.mp h
  obtain ⟨signature, hsignature, h⟩ := bind_eq_ok.mp h
  obtain ⟨version, hversion, h⟩ := bind_eq_ok.mp h
  obtain ⟨extension, hextension, h⟩ := bind_eq_ok.mp h
  obtain rfl := Except.ok.inj h
  exact {
    name := (printableOfJson_eq_ok.mp hname).1
    signature := (signatureOfJson_eq_ok.mp hsignature).1
    version := referenceOfJson_eq_ok.mp hversion
    extension := optionalText_eq_ok.mp hextension }

end

/-! ## reading sections -/

theorem entriesFrom_eq_ok {key : String} {place : Place} {i : Nat} {vs : List Json}
    {es : List (Located Members)} (h : entriesFrom key place i vs = .ok es) :
    vs = es.map (fun e => .obj e.value) ∧
      ∀ k e, es[k]? = some e → e.place = place.item ((i + k : Nat) : Int) := by
  induction vs generalizing i es with
  | nil =>
    obtain rfl := Except.ok.inj h
    exact ⟨rfl, fun k e he => by cases he⟩
  | cons v vs ih =>
    cases v with
    | obj ms =>
      rw [entriesFrom] at h
      obtain ⟨rest, hrest, h⟩ := bind_eq_ok.mp h
      obtain rfl := pure_eq_ok.mp h
      obtain ⟨rfl, hplaces⟩ := ih hrest
      refine ⟨rfl, fun k e he => ?_⟩
      cases k with
      | zero =>
        obtain rfl := Option.some.inj he
        rfl
      | succ k =>
        rw [hplaces k e he, Nat.add_right_comm]
        rfl
    | _ => cases h

theorem follow?_entry {root : Members} {kind : String} {vs : List Json}
    (h : root.get? kind = some (.arr vs)) (i : Nat) :
    Json.follow? (entrySteps kind i) (.obj root) = vs[i]? := by
  rw [Json.follow?, h, Option.bind_some, Json.follow?]
  cases vs[i]? with
  | none | some x => rfl

/-- Entries are the objects of their section, each with its place. -/
theorem entries_eq_ok {file : Option String} {root : Members} {kind : String}
    {es : List (Located Members)} (h : entries root kind (.root file) = .ok es) :
    (∀ i e, es[i]? = some e → e.place = (Place.root file).follow (entrySteps kind i) ∧
      Json.follow? (entrySteps kind i) (.obj root) = some (.obj e.value)) ∧
    ∀ i ms, Json.follow? (entrySteps kind i) (.obj root) = some (.obj ms) →
      ∃ e, es[i]? = some e ∧ e.value = ms := by
  unfold entries at h
  split at h
  next hnone =>
    obtain rfl := Except.ok.inj h
    refine ⟨fun i e he => (by cases he), fun i ms hms => ?_⟩
    rw [Json.follow?, hnone] at hms
    cases hms
  next vs hvs =>
    obtain ⟨rfl, hplaces⟩ := entriesFrom_eq_ok h
    have hentry (i : Nat) : Json.follow? (entrySteps kind i) (.obj root)
        = es[i]?.map fun e => .obj e.value := by
      rw [follow?_entry hvs, List.getElem?_map]
    refine ⟨fun i e he => ⟨?_, by rw [hentry, he]; rfl⟩, fun i ms hms => ?_⟩
    · rw [hplaces i e he, Nat.zero_add]
      rfl
    · rw [hentry] at hms
      obtain ⟨e, he, hobj⟩ := Option.map_eq_some_iff.mp hms
      exact ⟨e, he, Json.obj.inj hobj⟩
  next => cases h

theorem readEntry_eq_ok {α : Type} {read : Members → Place → Decoded α} {e : Located Members}
    {a : Located α} :
    readEntry read e = .ok a ↔ read e.value e.place = .ok a.value ∧ e.place = a.place := by
  rw [readEntry, bind_eq_ok]
  constructor
  · rintro ⟨b, hb, h⟩
    obtain rfl := pure_eq_ok.mp h
    exact ⟨hb, rfl⟩
  · rintro ⟨h, hplace⟩
    exact ⟨a.value, h, by rw [hplace]; rfl⟩

theorem records_said {α : Type} {read : Members → Place → Decoded α} (Says : Members → α → Prop)
    (hread : ∀ ms place a, read ms place = .ok a → Says ms a) {file : Option String}
    {root : Members} {kind : String} {l : List (Located α)}
    (h : records read root kind (.root file) = .ok l) : Said file (.obj root) kind Says l := by
  obtain ⟨es, hes, hmap⟩ := bind_eq_ok.mp h
  obtain ⟨hentries, hwhole⟩ := entries_eq_ok hes
  -- entries and declarations, one with one
  have hone (i : Nat) : es[i]?.map (readEntry read) = l[i]?.map .ok := by
    rw [← List.getElem?_map, ← List.getElem?_map]
    exact congrArg (·[i]?) (mapM_eq_ok.mp hmap)
  refine ⟨fun i a ha => ?_, fun i ms hms => ?_⟩
  · have hi := hone i
    rw [ha] at hi
    obtain ⟨e, he, hread'⟩ := Option.map_eq_some_iff.mp hi
    obtain ⟨hvalue, hplace⟩ := readEntry_eq_ok.mp hread'
    obtain ⟨hfollow, hentry⟩ := hentries i e he
    exact ⟨hplace ▸ hfollow, e.value, hentry, hread _ _ _ hvalue⟩
  · obtain ⟨e, he, rfl⟩ := hwhole i ms hms
    have hi := hone i
    rw [he] at hi
    obtain ⟨a, ha, hread'⟩ := Option.map_eq_some_iff.mp hi.symm
    exact ⟨a, List.mem_of_getElem? ha, hread _ _ _ (readEntry_eq_ok.mp hread'.symm).1⟩

/-- **What is read is what the document says, where it says it.** -/
theorem ofJson_said {file : Option String} {v : Json} {c : Catalog} (h : ofJson file v = .ok c) :
    Said file v "versions" SaysVersion c.versions ∧ Said file v "types" SaysType c.types ∧
      Said file v "builtins" SaysOverload c.overloads := by
  cases v with
  | obj ms =>
    rw [ofJson_obj] at h
    split at h
    · obtain ⟨label, -, h⟩ := bind_eq_ok.mp h
      obtain ⟨versions, hversions, h⟩ := bind_eq_ok.mp h
      obtain ⟨types, htypes, h⟩ := bind_eq_ok.mp h
      obtain ⟨overloads, hoverloads, h⟩ := bind_eq_ok.mp h
      obtain rfl := pure_eq_ok.mp h
      exact ⟨records_said SaysVersion (fun _ _ _ => versionOfJson_said) hversions,
        records_said SaysType (fun _ _ _ => typeOfJson_said) htypes,
        records_said SaysOverload (fun _ _ _ => overloadOfJson_said) hoverloads⟩
    · exact nomatch h
  | _ => exact nomatch h

end Catalog
end OverloadTables
