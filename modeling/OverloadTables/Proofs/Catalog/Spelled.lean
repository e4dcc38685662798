import OverloadTables.Proofs.AddressSpace
import OverloadTables.Proofs.Catalog.Bytes
import OverloadTables.Proofs.Json.Same

/-!
# What the bytes tell of a catalog

Everything but whether a type has no concrete type or one that is the text `null`.

* `DeclaredType.spelled`, `Content.spelled`   the declarations as their document spells them;
* `version_told`, `type_told`, `overload_told`   what the document of a record tells;
* `spelled_of_bytes`, `canonicalBytes_congr`   two catalogs that have bytes have the same exactly if
                           they are spelled alike.
-/

namespace OverloadTables

/-- The declaration with its concrete type as documents spell it. -/
def DeclaredType.spelled (t : DeclaredType) : DeclaredType :=
  { t with concrete := some (t.concrete.getD "null") }

/-- The declarations with their concrete types as documents spell them. -/
def Content.spelled (c : Content) : Content :=
  { c with types := c.types.map (·.spelled) }

attribute [ext] Version Overload

open Json (sorted get?_of_sorted_eq)

/-! ## records -/

theorem version_told {v w : Version} (h : sorted v.toJson = sorted w.toJson) : v = w := by
  have hkey : v.key = w.key := Json.str.inj (member_told h "def" rfl rfl)
  have hnumber : v.number = w.number := Json.int.inj (member_told h "version" rfl rfl)
  exact Version.ext hkey hnumber

theorem type_told {t u : DeclaredType} (h : sorted t.toJson = sorted u.toJson) :
    t.spelled = u.spelled := by
  have hkey : t.key = u.key := Json.str.inj (member_told h "def" rfl rfl)
  have hname : t.name = u.name := Json.str.inj (member_told h "name" rfl rfl)
  have hwidth : t.width = u.width := Json.int.inj (member_told h "vec_width" rfl rfl)
  have hspace : t.space = u.space :=
    AddressSpace.spelling_injective
      (LooseText.text.inj (Json.str.inj (member_told h "addr_space" rfl rfl)))
  have hpointer : t.pointer = u.pointer := Json.bool.inj (member_told h "is_pointer" rfl rfl)
  have hconcrete : t.concrete.getD "null" = u.concrete.getD "null" :=
    Json.str.inj (member_told h "qual_type" rfl rfl)
  rw [DeclaredType.spelled, DeclaredType.spelled, hkey, hname, hwidth, hspace, hpointer, hconcrete]

/-- A text that may be missing is told by a value that is null where it is. -/
theorem reference_told {key key' : Option LooseText}
    (h : sorted (match key with | none => .null | some k => .str k)
      = sorted (match key' with | none => .null | some k => .str k)) : key = key' := by
  cases key with
  | none =>
    cases key' with
    | none => rfl
    | some k' => exact nomatch h
  | some k =>
    cases key' with
    | none => exact nomatch h
    | some k' => exact congrArg some (Json.str.inj h)

theorem overload_told {o p : Overload} (h : sorted o.toJson = sorted p.toJson) : o = p := by
  have hreferences (key key' : LooseText) (h : sorted (.str key) = sorted (.str key')) : key = key' :=
    Json.str.inj h
  have hname : o.name = p.name := Json.str.inj (member_told h "name" rfl rfl)
  have hsignature : o.signature.map id = p.signature.map id :=
    array_told hreferences (member_told h "signature" rfl rfl)
  have hextension : o.extension = p.extension := Json.str.inj (member_told h "extension" rfl rfl)
  rw [List.map_id, List.map_id] at hsignature
  have hversion : o.version = p.version := reference_told (member_told h "version" rfl rfl)
  exact Overload.ext hname hsignature hversion hextension

/-! ## catalogs -/

theorem label_told {label label' : Option LooseText}
    (h : (label.map Json.str).map sorted = (label'.map Json.str).map sorted) : label = label' := by
  cases label with
  | none =>
    cases label' with
    | none => rfl
    | some s' => exact nomatch h
  | some s =>
    cases label' with
    | none => exact nomatch h
    | some s' => exact congrArg some (Json.str.inj (Option.some.inj h))

namespace Content

variable {c c' : Content}

theorem toJson_spelled (c : Content) : c.spelled.toJson = c.toJson := by
  have htypes : (c.types.map (·.spelled)).map (·.toJson) = c.types.map (·.toJson) := by
    rw [List.map_map]
    rfl
  show toJson ⟨c.types.map (·.spelled), c.overloads, c.versions, c.label⟩ = _
  unfold toJson
  rw [htypes]

/-- **Declarations with the same bytes are spelled alike.** -/
theorem spelled_of_bytes {bytes : ByteArray} (h : c.canonicalBytes = .ok bytes)
    (h' : c'.canonicalBytes = .ok bytes) : c.spelled = c'.spelled := by
  obtain ⟨⟨-, hplain⟩, hbytes⟩ := canonicalBytes_eq_ok.mp h
  obtain ⟨⟨-, hplain'⟩, hbytes'⟩ := canonicalBytes_eq_ok.mp h'
  obtain ⟨ms, hms⟩ := Catalog.exists_written c
  obtain ⟨ms', hms'⟩ := Catalog.exists_written c'
  have hsorted := Json.canonical_injective (regular_toJson c) (regular_toJson c')
    (plain_toJson.mpr hplain) (plain_toJson.mpr hplain')
    (String.toByteArray_inj.mp (hbytes.symm.trans hbytes'))
  rw [hms.toJson, hms'.toJson] at hsorted
  have htypes : c.types.map (·.spelled) = c'.types.map (·.spelled) :=
    array_told (fun _ _ => type_told) (member_told hsorted "types" hms.types hms'.types)
  have hoverloads : c.overloads.map id = c'.overloads.map id :=
    array_told (fun _ _ => overload_told)
      (member_told hsorted "builtins" hms.overloads hms'.overloads)
  have hversions : c.versions.map id = c'.versions.map id :=
    array_told (fun _ _ => version_told)
      (member_told hsorted "versions" hms.versions hms'.versions)
  have hlabel := get?_of_sorted_eq hsorted "name"
  rw [hms.label, hms'.label] at hlabel
  rw [List.map_id, List.map_id] at hoverloads hversions
  rw [spelled, spelled, htypes, hoverloads, hversions, label_told hlabel]

theorem canonicalBytes_congr (h : c.spelled = c'.spelled) : c.canonicalBytes = c'.canonicalBytes := by
  rw [canonicalBytes, canonicalBytes, ← toJson_spelled, h, toJson_spelled]

end Content
end OverloadTables
