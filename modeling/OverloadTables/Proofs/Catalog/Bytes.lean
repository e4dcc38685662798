import OverloadTables.Proofs.Catalog.RoundTrip
import OverloadTables.Proofs.Json.Nesting
import OverloadTables.Proofs.Text.OneLine

/-!
# The bytes of a catalog

* `Content.texts`, `Content.integers`   what stands in the declarations;
* `Content.NoSurrogate`, `Content.WithinLimits`   no text has a lone surrogate, every integer is
                           within the limit;
* `Content.all_toJson`     what stands in the document of the declarations;
* `Content.canonicalBytes_eq_ok`   which declarations have bytes;
* `Content.depth_toJson`   their document is nested four deep at most, so
                           `Content.canonicalBytes_within` has the same bytes within four calls;
* `loads_back`             what was read, stored as bytes and loaded.
-/

namespace OverloadTables

/-! ## what stands in a catalog -/

def Version.texts (v : Version) : List LooseText := [v.key]

def DeclaredType.texts (t : DeclaredType) : List LooseText := t.key :: t.name :: t.concrete.toList

def Overload.texts (o : Overload) : List LooseText :=
  o.name :: o.extension :: (o.signature ++ o.version.toList)

namespace Content

/-- The texts of the declarations. -/
def texts (c : Content) : List LooseText :=
  c.versions.flatMap (·.texts) ++ c.types.flatMap (·.texts) ++ c.overloads.flatMap (·.texts)
    ++ c.label.toList

/-- The integers of the declarations. -/
def integers (c : Content) : List Int := c.versions.map (·.number) ++ c.types.map (·.width)

/-- No text of the declarations has a lone surrogate. -/
def NoSurrogate (c : Content) : Prop := ∀ t ∈ c.texts, t.IsPlain

/-- Every integer of the declarations is within the limit. -/
def WithinLimits (c : Content) : Prop := ∀ n ∈ c.integers, Text.withinLimit n = true

theorem NoSurrogate.type {c : Content} (h : c.NoSurrogate) {d : DeclaredType} (hd : d ∈ c.types) :
    ∀ t ∈ d.texts, t.IsPlain := fun t ht =>
  h t (List.mem_append_left _ (List.mem_append_left _ (List.mem_append_right _
    (List.mem_flatMap.mpr ⟨d, hd, ht⟩))))

theorem NoSurrogate.overload {c : Content} (h : c.NoSurrogate) {o : Overload}
    (ho : o ∈ c.overloads) : ∀ t ∈ o.texts, t.IsPlain := fun t ht =>
  h t (List.mem_append_left _ (List.mem_append_right _ (List.mem_flatMap.mpr ⟨o, ho, ht⟩)))

theorem NoSurrogate.label {c : Content} (h : c.NoSurrogate) : ∀ t ∈ c.label, t.IsPlain :=
  fun t ht => h t (List.mem_append_right _ (Option.mem_toList.mpr ht))

instance (c : Content) : Decidable c.NoSurrogate := inferInstanceAs (Decidable (∀ t ∈ c.texts, _))

instance (c : Content) : Decidable c.WithinLimits :=
  inferInstanceAs (Decidable (∀ n ∈ c.integers, _))

end Content

/-! ## what stands in its document -/

section
open Json (All all_nil all_cons all_append all_arr all_bool all_int all_str)
variable {P : LooseText → Prop} {Q : Int → Prop} (hP : ∀ s : String, P s)
include hP

theorem Version.all_toJson (v : Version) :
    All P Q v.toJson ↔ (∀ t ∈ v.texts, P t) ∧ Q v.number := by
  simp only [toJson, texts, all_cons, all_nil, all_str, all_int, hP, true_and, and_true,
    List.forall_mem_singleton]

theorem DeclaredType.all_toJson (t : DeclaredType) :
    All P Q t.toJson ↔ (∀ x ∈ t.texts, P x) ∧ Q t.width := by
  have hconcrete : P (t.concrete.getD "null") ↔ ∀ x ∈ t.concrete.toList, P x := by
    cases t.concrete with
    | none => exact iff_of_true (hP _) (List.forall_mem_nil _)
    | some q => exact List.forall_mem_singleton.symm
  simp only [toJson, texts, all_cons, all_nil, all_str, all_int, all_bool, hP, hconcrete, true_and,
    and_true, List.forall_mem_cons]
  rw [and_comm (a := Q _), and_assoc, and_assoc]

theorem Overload.all_toJson (o : Overload) : All P Q o.toJson ↔ ∀ t ∈ o.texts, P t := by
  have hsignature : All P Q (.arr (o.signature.map .str)) ↔ ∀ key ∈ o.signature, P key := by
    rw [all_arr, List.forall_mem_map]
    exact forall₂_congr fun _ _ => all_str
  have hversion : All P Q ((o.version.map .str).getD .null) ↔ ∀ key ∈ o.version.toList, P key := by
    cases o.version with
    | none => exact iff_of_true .null (List.forall_mem_nil _)
    | some key => exact all_str.trans List.forall_mem_singleton.symm
  have htoJson : o.toJson = .obj [("name", .str o.name), ("signature", .arr (o.signature.map .str)),
      ("extension", .str o.extension), ("version", (o.version.map .str).getD .null)] := by
    rw [toJson]
    cases o.version with
    | none | some key => rfl
  rw [htoJson]
  simp only [texts, all_cons, all_nil, all_str, hP, hsignature, hversion, true_and, and_true,
    List.forall_mem_cons, List.forall_mem_append]
  rw [and_left_comm (a := ∀ key ∈ o.signature, _)]

/-- **In the document of the declarations stands nothing but what stands in these**, next to texts
without surrogates and a zero. -/
theorem Content.all_toJson (hQ : Q 0) (c : Content) :
    All P Q c.toJson ↔ (∀ t ∈ c.texts, P t) ∧ ∀ n ∈ c.integers, Q n := by
  have hlist {α : Type} {write : α → Json} {T : α → Prop} (h : ∀ a, All P Q (write a) ↔ T a)
      (as : List α) : All P Q (.arr (as.map write)) ↔ ∀ a ∈ as, T a := by
    rw [all_arr, List.forall_mem_map]
    exact forall₂_congr fun a _ => h a
  have hlabel : All P Q (.obj (labelMembers c.label)) ↔ ∀ t ∈ c.label.toList, P t := by
    cases c.label with
    | none => exact all_nil.trans (iff_true_intro (List.forall_mem_nil _)).symm
    | some label => simp only [labelMembers, all_cons, all_nil, all_str, hP, true_and, and_true,
        Option.toList_some, List.forall_mem_singleton]
  simp only [toJson, texts, integers, all_append, all_cons, all_nil, all_str, all_int, hP, hQ,
    hlabel, hlist (Version.all_toJson hP), hlist (DeclaredType.all_toJson hP),
    hlist (Overload.all_toJson hP), List.forall_mem_append, List.forall_mem_flatMap,
    List.forall_mem_map, true_and, and_true]
  constructor
  · rintro ⟨⟨hversions, htypes, hoverloads⟩, hname⟩
    exact ⟨⟨⟨⟨fun v hv => (hversions v hv).1, fun t ht => (htypes t ht).1⟩, hoverloads⟩, hname⟩,
      fun v hv => (hversions v hv).2, fun t ht => (htypes t ht).2⟩
  · rintro ⟨⟨⟨⟨hversions, htypes⟩, hoverloads⟩, hname⟩, hnumbers, hwidths⟩
    exact ⟨⟨fun v hv => ⟨hversions v hv, hnumbers v hv⟩, fun t ht => ⟨htypes t ht, hwidths t ht⟩,
      hoverloads⟩, hname⟩

end

open Json (Regular)

theorem regular_version (v : Version) : Regular v.toJson := by
  have hkeys : (["def", "version"] : List LooseText).Nodup := by decide
  refine .obj hkeys ?_
  simp only [List.forall_mem_cons]
  exact ⟨.str _, .int _, List.forall_mem_nil _⟩

theorem regular_type (t : DeclaredType) : Regular t.toJson := by
  have hkeys : (["def", "name", "vec_width", "addr_space", "is_pointer", "qual_type"]
      : List LooseText).Nodup := by decide
  refine .obj hkeys ?_
  simp only [List.forall_mem_cons]
  exact ⟨.str _, .str _, .int _, .str _, .bool _, .str _, List.forall_mem_nil _⟩

theorem regular_overload (o : Overload) : Regular o.toJson := by
  have hsignature : Regular (.arr (o.signature.map .str)) :=
    .arr (List.forall_mem_map.mpr fun key _ => .str key)
  have hkeys : (["name", "signature", "extension", "version"] : List LooseText).Nodup := by decide
  refine .obj hkeys ?_
  simp only [List.forall_mem_cons]
  refine ⟨.str _, hsignature, .str _, ?_, List.forall_mem_nil _⟩
  cases o.version with
  | none => exact .null
  | some key => exact .str key

theorem regular_toJson (c : Content) : Regular c.toJson := by
  have hversions : Regular (.arr (c.versions.map (·.toJson))) :=
    .arr (List.forall_mem_map.mpr fun v _ => regular_version v)
  have htypes : Regular (.arr (c.types.map (·.toJson))) :=
    .arr (List.forall_mem_map.mpr fun t _ => regular_type t)
  have hoverloads : Regular (.arr (c.overloads.map (·.toJson))) :=
    .arr (List.forall_mem_map.mpr fun o _ => regular_overload o)
  unfold Content.toJson
  cases c.label with
  | none =>
    have hkeys : (["format", "version", "versions", "types", "builtins"]
        : List LooseText).Nodup := by decide
    refine .obj hkeys ?_
    simp only [List.forall_mem_cons, List.forall_mem_append]
    exact ⟨⟨.str _, .int _, hversions, htypes, hoverloads, List.forall_mem_nil _⟩,
      List.forall_mem_nil _⟩
  | some label =>
    have hkeys : (["format", "version", "versions", "types", "builtins", "name"]
        : List LooseText).Nodup := by decide
    refine .obj hkeys ?_
    simp only [List.forall_mem_cons, List.forall_mem_append, Content.labelMembers]
    exact ⟨⟨.str _, .int _, hversions, htypes, hoverloads, List.forall_mem_nil _⟩, .str _,
      List.forall_mem_nil _⟩

/-! ## nesting -/

section
open Json (depth depthItems_le depthMembers_le)

theorem depth_arr {α : Type} (write : α → Json) {n : Nat} (h : ∀ a, depth (write a) ≤ n)
    (as : List α) : depth (.arr (as.map write)) ≤ n + 1 := by
  rw [depth, Nat.add_le_add_iff_right, depthItems_le]
  exact List.forall_mem_map.mpr fun a _ => h a

/-- The document of the declarations is nested four deep at most. -/
theorem Content.depth_toJson (c : Content) : depth c.toJson ≤ 4 := by
  have hversion (v : Version) : depth v.toJson ≤ 1 := Nat.le_refl 1
  have htype (t : DeclaredType) : depth t.toJson ≤ 1 := Nat.le_refl 1
  have hoverload (o : Overload) : depth o.toJson ≤ 2 := by
    have hsignature := depth_arr Json.str (fun _ => Nat.le_refl 0) o.signature
    rw [Overload.toJson, depth, Nat.add_le_add_iff_right, depthMembers_le]
    simp only [List.forall_mem_cons]
    refine ⟨Nat.zero_le 1, hsignature, Nat.zero_le 1, ?_, List.forall_mem_nil _⟩
    cases o.version with
    | none | some key => exact Nat.zero_le 1
  have hlabel : ∀ m ∈ labelMembers c.label, depth m.2 ≤ 3 := by
    cases c.label with
    | none => exact List.forall_mem_nil _
    | some label => exact List.forall_mem_singleton.mpr (Nat.zero_le 3)
  have hversions := depth_arr Version.toJson hversion c.versions
  have htypes := depth_arr DeclaredType.toJson htype c.types
  have hoverloads := depth_arr Overload.toJson hoverload c.overloads
  rw [toJson, depth, Nat.add_le_add_iff_right, depthMembers_le]
  refine List.forall_mem_append.mpr ⟨?_, hlabel⟩
  simp only [List.forall_mem_cons]
  exact ⟨Nat.zero_le 3, Nat.zero_le 3, Nat.le_succ_of_le hversions, Nat.le_succ_of_le htypes,
    hoverloads, List.forall_mem_nil _⟩

/-- With as many calls to nest, a catalog has its canonical bytes. -/
theorem Content.canonicalBytes_within (c : Content) {frames : Nat} (h : 4 ≤ frames) :
    Json.canonicalBytesWithin frames c.toJson = c.canonicalBytes.mapError .write :=
  Json.canonicalBytesWithin_of_depth (Nat.le_trans c.depth_toJson h)

end

/-! ## bytes -/

namespace Content
variable {c : Content}

theorem withinLimits_toJson : c.toJson.WithinLimits ↔ c.WithinLimits := by
  rw [Json.WithinLimits, all_toJson (fun _ => trivial) (by decide)]
  exact and_iff_right fun _ _ => trivial

theorem plain_toJson : c.toJson.Plain ↔ c.NoSurrogate := by
  rw [Json.Plain, all_toJson (fun _ => rfl) trivial]
  exact and_iff_left fun _ _ => trivial

/-- **Exactly declarations without surrogates and integers beyond the limit have bytes**, those of
their canonical text. -/
theorem canonicalBytes_eq_ok {bytes : ByteArray} : c.canonicalBytes = .ok bytes ↔
    (c.WithinLimits ∧ c.NoSurrogate) ∧ bytes = (Json.canonical c.toJson).toUTF8 := by
  rw [canonicalBytes, Json.canonicalBytes_eq_ok, Json.encodable_iff, withinLimits_toJson,
    plain_toJson]

theorem exists_canonicalBytes :
    (∃ bytes, c.canonicalBytes = .ok bytes) ↔ c.WithinLimits ∧ c.NoSurrogate := by
  simp only [canonicalBytes_eq_ok, exists_and_left, exists_eq, and_true]

/-- What is told of declarations without bytes: integers first, and surrogates where these fit. -/
theorem canonicalBytes_eq_error :
    (¬ c.WithinLimits → c.canonicalBytes = .error .tooManyDigits) ∧
      (c.WithinLimits → ¬ c.NoSurrogate → ∃ first place count,
        c.canonicalBytes = .error (.surrogates first place count)) := by
  rw [← withinLimits_toJson, ← plain_toJson]
  exact Json.canonicalBytes_eq_error

theorem exists_fingerprint : (∃ f, c.fingerprint = .ok f) ↔ c.WithinLimits ∧ c.NoSurrogate := by
  rw [← exists_canonicalBytes, fingerprint]
  cases c.canonicalBytes with
  | ok bytes => exact iff_of_true ⟨_, rfl⟩ ⟨_, rfl⟩
  | error e => exact iff_of_false nofun nofun

theorem fingerprint_eq_error :
    (¬ c.WithinLimits → c.fingerprint = .error .tooManyDigits) ∧
      (c.WithinLimits → ¬ c.NoSurrogate → ∃ first place count,
        c.fingerprint = .error (.surrogates first place count)) := by
  obtain ⟨hdigits, hsurrogates⟩ := canonicalBytes_eq_error (c := c)
  refine ⟨fun h => ?_, fun h h' => ?_⟩
  · rw [fingerprint, hdigits h]
    rfl
  · obtain ⟨first, place, count, herror⟩ := hsurrogates h h'
    exact ⟨first, place, count, by rw [fingerprint, herror]; rfl⟩

end Content

/-! ## files -/

namespace Catalog

/-- Canonical text is loaded as the value it was made of. -/
theorem ofText_canonical {v : Json} (hv : Regular v) (ht : v.Encodable) (path : String) :
    ofText path (Json.canonical v) = (ofJson (some path) v).mapError .rejected := by
  have hplain := (Json.encodable_iff.mp ht).2
  have hread : Json.parseLimited (Json.canonical v).toList = .ok v.sorted := by
    rw [Json.toList_canonical]
    exact Json.parseLimited_write (by decide) (Json.regular_sorted hv)
      (Json.Plain.keepsAll (Json.all_sorted hplain) _) (Json.all_sorted ht)
  rw [ofText, Text.unifyLineEnds_eq (Json.canonical_lineEnds hv hplain).1, hread]
  exact congrArg (Except.mapError LoadError.rejected) (ofJson_sorted (some path) v)

theorem ofBytes_toUTF8 (path s : String) : ofBytes path s.toUTF8 = ofText path s := by
  have hdecode : String.fromUTF8? s.toUTF8 = some s := dif_pos s.isValidUTF8
  rw [ofBytes, hdecode]

/-- **What was read survives a file**, if no lone surrogate is in it.  It has bytes if its integers
are within the limit, and these, loaded, give the same declarations and the same fingerprint. -/
theorem loads_back {source : Option String} {v : Json} {c : Catalog} (h : ofJson source v = .ok c)
    (ht : c.content.NoSurrogate) (path : String) :
    ((∃ bytes, c.content.canonicalBytes = .ok bytes) ↔ c.content.WithinLimits) ∧
      ∀ bytes, c.content.canonicalBytes = .ok bytes → ∃ back fingerprint,
        ofBytes path bytes = .ok back ∧ back.content = c.content ∧
          c.content.fingerprint = .ok fingerprint ∧ back.content.fingerprint = .ok fingerprint := by
  refine ⟨Content.exists_canonicalBytes.trans (and_iff_left ht), fun bytes hbytes => ?_⟩
  obtain ⟨back, hback, hcontent⟩ := ofJson_toJson (ofJson_legible h) (some path)
  obtain ⟨hlimits, rfl⟩ := Content.canonicalBytes_eq_ok.mp hbytes
  obtain ⟨f, hf⟩ := Content.exists_fingerprint.mpr hlimits
  have hencodable : c.content.toJson.Encodable :=
    Json.encodable_iff.mpr ⟨Content.withinLimits_toJson.mpr hlimits.1, Content.plain_toJson.mpr ht⟩
  refine ⟨back, f, ?_, hcontent, hf, hcontent ▸ hf⟩
  rw [ofBytes_toUTF8, ofText_canonical (regular_toJson c.content) hencodable, hback]
  rfl

/-- A document with one version, whose number is given, and a label. -/
def numbered (label : String) (n : Int) : Json :=
  .obj [("format", .str "builtin-catalog"), ("version", .int 0), ("name", .str label),
    ("versions", .arr [.obj [("def", .str "V"), ("version", .int n)]])]

def numberedCatalog (label : String) (n : Int) : Catalog where
  types := []
  overloads := []
  versions := [⟨⟨"V", n⟩, ⟨none, some "versions[0]"⟩⟩]
  label := some label
  file := none

theorem ofJson_numbered (label : String) (n : Int) :
    ofJson none (numbered label n) = .ok (numberedCatalog label n) := by rfl

theorem noSurrogate_numbered (label : String) (n : Int) :
    (numberedCatalog label n).content.NoSurrogate := by
  have htexts : (numberedCatalog label n).content.texts = (["V", label] : List LooseText) := rfl
  rw [Content.NoSurrogate, htexts, List.forall_mem_cons, List.forall_mem_singleton]
  exact ⟨rfl, rfl⟩

/-- With the first number beyond the limit a catalog is read that has no bytes to be stored. -/
theorem loads_back_long : ∃ c : Catalog,
    ofJson none (numbered "" (Nat.pow 10 Text.digitLimit : Nat)) = .ok c ∧ c.content.NoSurrogate ∧
      c.content.canonicalBytes = .error .tooManyDigits := by
  refine ⟨_, ofJson_numbered _ _, noSurrogate_numbered _ _, Content.canonicalBytes_eq_error.1 ?_⟩
  intro h
  have hnumber := h _ (List.mem_singleton.mpr rfl)
  rw [Text.withinLimit_first] at hnumber
  exact nomatch hnumber

/-- A label with line ends, a quote, a control character, a line separator and a character beyond
the first plane, and a number of twenty digits. -/
theorem loads_back_numbered :
    let label := "a\r\nb\"\\\u0001\u2028𝄞"
    ∃ c : Catalog, ofJson none (numbered label (-12345678901234567890)) = .ok c ∧
      c.content.NoSurrogate ∧ ∃ bytes back fingerprint, c.content.canonicalBytes = .ok bytes ∧
        ofBytes "c.json" bytes = .ok back ∧ back.content = c.content ∧
        c.content.fingerprint = .ok fingerprint ∧ back.content.fingerprint = .ok fingerprint := by
  intro label
  have hread := ofJson_numbered label (-12345678901234567890)
  have hplain := noSurrogate_numbered label (-12345678901234567890)
  obtain ⟨hbytes, hloads⟩ := loads_back hread hplain "c.json"
  obtain ⟨bytes, hbytes⟩ := hbytes.mpr (by decide)
  obtain ⟨back, f, hback⟩ := hloads bytes hbytes
  exact ⟨_, hread, hplain, bytes, back, f, hbytes, hback⟩

end Catalog
end OverloadTables
