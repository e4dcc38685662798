import OverloadTables.Proofs.Catalog.Records

/-!
# Catalogs written and read back

* `Exact.records_back`, `Exact.records_legible`, `Exact.records_sorted`   a section of records;
* `ofJson_legible`         what is read is legible;
* `ofJson_toJson`          a legible catalog is read as it was written;
* `ofJson_sorted`          the order of members does not matter;
* `reads_back`             the two halves, as the exact condition.
-/

namespace OverloadTables.Catalog
open Json (sortedObject get?_sortedObject)

/-! ## sections -/

section
variable {α : Type} {read : Members → Place → Decoded α} {write : α → Json} {Legible : α → Prop}
  {ms : Members}

/-- A record of a section, with its place. -/
abbrev readEntry (read : Members → Place → Decoded α) (e : Located Members) : Decoded (Located α) :=
  do return ⟨← read e.value e.place, e.place⟩

theorem Exact.records_legible (hx : Exact read write Legible) {key : String} {root : Place}
    {ls : List (Located α)} (h : records read ms key root = .ok ls) :
    ∀ a ∈ ls.map (·.value), Legible a := by
  obtain ⟨es, -, hmap⟩ := bind_eq_ok.mp h
  refine List.forall_mem_map.mpr fun l hl => ?_
  obtain ⟨e, -, he⟩ := exists_of_mem_mapM hmap l hl
  obtain ⟨a, ha, he⟩ := bind_eq_ok.mp he
  obtain rfl := pure_eq_ok.mp he
  exact hx.legible ha

/-- The entries of written records, and the records read from them. -/
theorem Exact.entries_back (hx : Exact read write Legible) {as : List α} (ha : ∀ a ∈ as, Legible a)
    (key : String) (place : Place) (i : Nat) : ∃ es ls,
      entriesFrom key place i (as.map write) = .ok es ∧ es.mapM (readEntry read) = .ok ls ∧
      ls.map (·.value) = as := by
  induction as generalizing i with
  | nil => exact ⟨[], [], rfl, rfl, rfl⟩
  | cons a as ih =>
    obtain ⟨ha, has⟩ := List.forall_mem_cons.mp ha
    obtain ⟨m, hm, hread⟩ := hx.back ha
    obtain ⟨es, ls, hes, hls, hvalues⟩ := ih has (i + 1)
    refine ⟨⟨m, place.item i⟩ :: es, ⟨a, place.item i⟩ :: ls, ?_, ?_, congrArg (a :: ·) hvalues⟩
    · rw [List.map_cons, hm, entriesFrom, hes]
      rfl
    · rw [List.mapM_cons, readEntry, hread, hls]
      rfl

theorem Exact.records_back (hx : Exact read write Legible) {as : List α} (ha : ∀ a ∈ as, Legible a)
    {key : String} (h : ms.get? key = some (.arr (as.map write))) (root : Place) : ∃ ls,
      records read ms key root = .ok ls ∧ ls.map (·.value) = as := by
  obtain ⟨es, ls, hes, hls, hvalues⟩ := hx.entries_back ha key (root.member key) 0
  refine ⟨ls, bind_eq_ok.mpr ⟨es, ?_, hls⟩, hvalues⟩
  rw [entries, h]
  exact hes

theorem entriesFrom_sorted (key : String) (place : Place) (vs : List Json) (i : Nat) :
    entriesFrom key place i (vs.map Json.sorted) =
      (entriesFrom key place i vs).map (List.map fun e => ⟨sortedObject e.value, e.place⟩) := by
  induction vs generalizing i with
  | nil => rfl
  | cons v vs ih =>
    cases v with
    | obj ms =>
      rw [List.map_cons, Json.sorted_obj, entriesFrom, entriesFrom, ih]
      cases entriesFrom key place (i + 1) vs with
      | error _ | ok _ => rfl
    | _ => rfl

theorem entries_sorted (key : String) (root : Place) : entries (sortedObject ms) key root =
    (entries ms key root).map (List.map fun e => ⟨sortedObject e.value, e.place⟩) := by
  rw [entries, entries, get?_sortedObject]
  cases ms.get? key with
  | none => rfl
  | some v =>
    cases v with
    | arr vs =>
      rw [Option.map_some, Json.sorted_arr]
      exact entriesFrom_sorted key (root.member key) vs 0
    | _ => rfl

theorem Exact.records_sorted (hx : Exact read write Legible) (key : String) (root : Place) :
    records read (sortedObject ms) key root = records read ms key root := by
  rw [records, records, entries_sorted]
  cases entries ms key root with
  | error _ => rfl
  | ok es =>
    show (es.map _).mapM (readEntry read) = es.mapM (readEntry read)
    rw [List.mapM_map]
    congr 1
    funext e
    simp only [Function.comp_apply, readEntry, hx.sorted]

end

/-! ## catalogs -/

theorem ofJson_obj (file : Option String) (ms : Members) : ofJson file (.obj ms) =
    if supported ms = true then do
      let label ← labelOfJson ms (Place.root file)
      let versions ← records versionOfJson ms "versions" (Place.root file)
      let types ← records typeOfJson ms "types" (Place.root file)
      let overloads ← records overloadOfJson ms "builtins" (Place.root file)
      return ⟨types, overloads, versions, label, file⟩
    else .error ⟨.unsupportedHeader, Place.root file⟩ := by
  unfold ofJson
  dsimp only
  cases supported ms with
  | false | true => rfl

/-- **Only legible catalogs are read.** -/
theorem ofJson_legible {file : Option String} {v : Json} {cat : Catalog}
    (h : ofJson file v = .ok cat) : cat.content.Legible := by
  cases v with
  | obj ms =>
    rw [ofJson_obj] at h
    split at h
    · obtain ⟨label, -, h⟩ := bind_eq_ok.mp h
      obtain ⟨versions, hversions, h⟩ := bind_eq_ok.mp h
      obtain ⟨types, htypes, h⟩ := bind_eq_ok.mp h
      obtain ⟨overloads, hoverloads, h⟩ := bind_eq_ok.mp h
      obtain rfl := pure_eq_ok.mp h
      exact ⟨exact_version.records_legible hversions, exact_type.records_legible htypes,
        exact_overload.records_legible hoverloads⟩
    · exact nomatch h
  | _ => exact nomatch h

/-- The members of a written catalog. -/
structure Written (c : Content) (ms : Members) : Prop where
  toJson : c.toJson = .obj ms
  header : supported ms = true
  label : ms.get? "name" = c.label.map .str
  versions : ms.get? "versions" = some (.arr (c.versions.map (·.toJson)))
  types : ms.get? "types" = some (.arr (c.types.map (·.toJson)))
  overloads : ms.get? "builtins" = some (.arr (c.overloads.map (·.toJson)))

theorem exists_written (c : Content) : ∃ ms, Written c ms := by
  refine ⟨_, rfl, rfl, ?_, rfl, rfl, rfl⟩
  cases c.label with
  | none | some label => rfl

/-- **A legible catalog is read as it was written.** -/
theorem ofJson_toJson {c : Content} (hc : c.Legible) (file : Option String) :
    ∃ cat, ofJson file c.toJson = .ok cat ∧ cat.content = c := by
  obtain ⟨ms, hms⟩ := exists_written c
  have hlabel : labelOfJson ms (Place.root file) = .ok c.label := by
    rw [labelOfJson, hms.label]
    cases c.label with
    | none | some label => rfl
  obtain ⟨versions, hversions, hv⟩ :=
    exact_version.records_back hc.versions hms.versions (.root file)
  obtain ⟨types, htypes, ht⟩ := exact_type.records_back hc.types hms.types (.root file)
  obtain ⟨overloads, hoverloads, ho⟩ :=
    exact_overload.records_back hc.overloads hms.overloads (.root file)
  refine ⟨⟨types, overloads, versions, c.label, file⟩, ?_, ?_⟩
  · rw [hms.toJson, ofJson_obj, if_pos hms.header, hlabel, hversions, htypes, hoverloads]
    rfl
  · show Content.mk _ _ _ _ = c
    rw [ht, ho, hv]

theorem ofJson_sorted (file : Option String) (v : Json) : ofJson file v.sorted = ofJson file v := by
  cases v with
  | obj ms =>
    have hheader : supported (sortedObject ms) = supported ms := by
      unfold supported
      rw [get?_sortedObject, get?_sortedObject]
      congr 1
      · cases Members.get? "format" ms with
        | none => rfl
        | some v => cases v <;> rfl
      · cases Members.get? "version" ms with
        | none => rfl
        | some v => cases v <;> rfl
    have hlabel : labelOfJson (sortedObject ms) (Place.root file) =
        labelOfJson ms (Place.root file) := by
      rw [labelOfJson, labelOfJson, get?_sortedObject]
      cases Members.get? "name" ms with
      | none => rfl
      | some v => cases v <;> rfl
    rw [Json.sorted_obj, ofJson_obj, ofJson_obj, hheader, hlabel]
    simp only [exact_version.records_sorted, exact_type.records_sorted,
      exact_overload.records_sorted]
  | _ => rfl

/-- **A catalog is read back from its own document exactly if it is legible, and whatever is read
is legible.** -/
theorem reads_back (file : Option String) :
    (∀ c : Catalog, (∃ back, ofJson file c.content.toJson = .ok back ∧ back.content = c.content) ↔
      c.content.Legible) ∧
    ∀ source v (c : Catalog), ofJson source v = .ok c →
      c.content.Legible ∧
        ∃ back, ofJson file c.content.toJson = .ok back ∧ back.content = c.content := by
  refine ⟨fun c => ⟨fun ⟨back, hback, hcontent⟩ => ?_, fun hc => ofJson_toJson hc file⟩, ?_⟩
  · rw [← hcontent]
    exact ofJson_legible hback
  · intro source v c h
    have hc := ofJson_legible h
    exact ⟨hc, ofJson_toJson hc file⟩

/-- A document with a negative width, an abstract base, and a builtin without signature and
version. -/
def sparse : Json :=
  .obj [("format", .str "builtin-catalog"), ("version", .int 0),
    ("types", .arr [.obj [("def", .str "G"), ("name", .str "gen"), ("vec_width", .int (-2)),
      ("qual_type", .null)]]),
    ("builtins", .arr [.obj [("name", .str "f"), ("signature", .arr [])]])]

theorem reads_back_sparse : ∃ c : Catalog, ofJson none sparse = .ok c ∧ c.content.Legible ∧
    ∃ back, ofJson none c.content.toJson = .ok back ∧ back.content = c.content :=
  ⟨_, rfl, (reads_back none).2 none sparse _ rfl⟩

/-- The concrete type `null` would be read as none. -/
example : ¬ (⟨"V", "void", 0, .default, false, some "null"⟩ : DeclaredType).Legible :=
  fun h => (h.concrete "null" rfl).2 rfl

end OverloadTables.Catalog
