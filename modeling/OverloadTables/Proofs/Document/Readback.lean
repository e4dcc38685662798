import OverloadTables.Proofs.Catalog.Spelled
import OverloadTables.Proofs.Document.Json
import OverloadTables.Proofs.Tables.Meaning
import Mathlib.Data.List.Sort

/-!
# The document of tables is read back, and tells the tables

The document has no runs, and they are told all the same: they are where the rows point to.

* `parse_jsonDocument`     the text of the document is read as the document;
* `runs_unique`            runs in ascending order are known by what they are;
* `Stages.runs_told`, `Stages.index_told`   rows tell the runs, and blocks the index;
* `document_tells`         tables of catalogs with one document are the same tables.
-/

namespace OverloadTables

open Json (Regular sorted)

/-! ## the text is read as the document -/

/-- The document of a base type with its number. -/
def baseToJson (p : BaseType × Nat) : Json :=
  .obj [("id", .int p.2), ("name", .str p.1.name),
    ("qual_type", Diagnostic.textOrNull p.1.concrete)]

theorem regular_base (p : BaseType × Nat) : Regular (baseToJson p) := by
  have hkeys : (["id", "name", "qual_type"] : List LooseText).Nodup := by decide
  refine .obj hkeys ?_
  simp only [List.forall_mem_cons]
  exact ⟨.int _, .str _, regular_textOrNull _, List.forall_mem_nil _⟩

theorem regular_descriptor (d : Descriptor) : Regular d.toJson := by
  have hkeys : (["type_id", "vector_width", "addr_space", "is_pointer"]
      : List LooseText).Nodup := by decide
  refine .obj hkeys ?_
  simp only [List.forall_mem_cons]
  exact ⟨.int _, .int _, .str _, .bool _, List.forall_mem_nil _⟩

theorem regular_row (r : Row) : Regular r.toJson := by
  have hkeys : (["name", "num_types", "sig_index", "extension", "version"]
      : List LooseText).Nodup := by decide
  refine .obj hkeys ?_
  simp only [List.forall_mem_cons]
  exact ⟨.str _, .int _, .int _, .str _, .int _, List.forall_mem_nil _⟩

theorem regular_block (b : Block) : Regular b.toJson := by
  have hkeys : (["name", "start", "count"] : List LooseText).Nodup := by decide
  refine .obj hkeys ?_
  simp only [List.forall_mem_cons]
  exact ⟨.str _, .int _, .int _, List.forall_mem_nil _⟩

/-- The members of the document of tables. -/
structure Tables.Documented (t : Tables) (ms : Members) : Prop where
  toJson : t.toJson = .obj ms
  label : ms.get? "catalog" = some (Diagnostic.textOrNull t.label)
  fingerprint : ms.get? "catalog_sha256" = some (.str t.fingerprint)
  bases : ms.get? "type_ids" = some (.arr (t.bases.zipIdx.map baseToJson))
  signatureTable : ms.get? "signature_table" = some (.arr (t.signatureTable.map (·.toJson)))
  rows : ms.get? "builtin_table" = some (.arr (t.rows.map (·.toJson)))
  blocks : ms.get? "name_index" = some (.arr (t.index.blocks.map (·.toJson)))

namespace Tables

theorem exists_documented (t : Tables) : ∃ ms, t.Documented ms := by
  have hbases := Document.basesToJson_eq 0 t.bases
  exact ⟨_, rfl, rfl, rfl, congrArg (fun vs => some (Json.arr vs)) hbases, rfl, rfl, rfl⟩

theorem regular_document (t : Tables) : Regular t.toJson := by
  have hkeys : (["format", "version", "catalog", "catalog_sha256", "type_ids", "signature_table",
    "builtin_table", "name_index"] : List LooseText).Nodup := by decide
  refine .obj hkeys ?_
  simp only [List.forall_mem_cons]
  refine ⟨.str _, .int _, regular_textOrNull _, .str _, .arr ?_,
    .arr (List.forall_mem_map.mpr fun d _ => regular_descriptor d),
    .arr (List.forall_mem_map.mpr fun r _ => regular_row r),
    .arr (List.forall_mem_map.mpr fun b _ => regular_block b), List.forall_mem_nil _⟩
  rw [Document.basesToJson_eq]
  exact List.forall_mem_map.mpr fun p _ => regular_base p

/-- No surrogate is in the document. -/
theorem plain_document (t : Tables) : t.toJson.Plain := by
  rw [toJson, Document.basesToJson_eq]
  simp only [Json.Plain, Json.all_cons, Json.all_nil, Json.all_arr, List.forall_mem_map,
    Descriptor.toJson, Row.toJson, Block.toJson, Json.all_int, Json.all_str, Json.all_bool,
    LooseText.isPlain_text, true_and, and_true, implies_true]
  exact ⟨plain_textOrNull t.label, fun p _ => plain_textOrNull p.1.concrete⟩

/-- **The text of the document is read as the document**, its keys in ascending order. -/
theorem parse_jsonDocument (t : Tables) : Json.parse t.jsonDocument = .ok (sorted t.toJson) := by
  have hend : ∀ c ∈ ['\n'], c = ' ' ∨ c = '\n' := by simp
  rw [Json.parse, jsonDocument, String.toList_append, Json.render, String.toList_ofList]
  exact Json.parseChars_write_blanks (by decide) (Json.regular_sorted t.regular_document)
    (Json.Plain.keepsAll (Json.all_sorted t.plain_document) _) hend

end Tables

/-! ## what the document tells -/

attribute [ext] Descriptor Extent Block

theorem base_told {p q : BaseType × Nat} (h : sorted (baseToJson p) = sorted (baseToJson q)) :
    p.1 = q.1 := by
  have hname : p.1.name = q.1.name := string_told (member_told h "name" rfl rfl)
  have hconcrete : p.1.concrete = q.1.concrete :=
    textOrNull_told (member_told h "qual_type" rfl rfl)
  exact BaseType.ext hname hconcrete

theorem descriptor_told {d e : Descriptor} (h : sorted d.toJson = sorted e.toJson) : d = e := by
  have hbase : d.base = e.base := Json.int.inj (member_told h "type_id" rfl rfl)
  have hwidth : d.width = e.width := Json.int.inj (member_told h "vector_width" rfl rfl)
  have hspace : d.space = e.space :=
    AddressSpace.spelling_injective (string_told (member_told h "addr_space" rfl rfl))
  have hpointer : d.pointer = e.pointer := Json.bool.inj (member_told h "is_pointer" rfl rfl)
  exact Descriptor.ext hbase hwidth hspace hpointer

theorem row_told {r q : Row} (h : sorted r.toJson = sorted q.toJson) : r = q := by
  have hname : r.name = q.name := string_told (member_told h "name" rfl rfl)
  have hlength : (r.length : Int) = q.length := Json.int.inj (member_told h "num_types" rfl rfl)
  have hstart : (r.start : Int) = q.start := Json.int.inj (member_told h "sig_index" rfl rfl)
  have hextension : r.extension = q.extension := string_told (member_told h "extension" rfl rfl)
  have hversion : r.version = q.version := Json.int.inj (member_told h "version" rfl rfl)
  exact Row.ext hname (by omega) (by omega) hextension hversion

theorem block_told {b d : Block} (h : sorted b.toJson = sorted d.toJson) : b = d := by
  have hname : b.name = d.name := string_told (member_told h "name" rfl rfl)
  have hstart : b.extent.start = d.extent.start := Json.int.inj (member_told h "start" rfl rfl)
  have hcount : b.extent.count = d.extent.count := Json.int.inj (member_told h "count" rfl rfl)
  exact Block.ext hname (Extent.ext hstart hcount)

/-- The fields of tables that are written out. -/
structure Tables.Written (t t' : Tables) : Prop where
  label : t.label = t'.label
  fingerprint : t.fingerprint = t'.fingerprint
  bases : t.bases = t'.bases
  signatureTable : t.signatureTable = t'.signatureTable
  rows : t.rows = t'.rows
  blocks : t.index.blocks = t'.index.blocks

theorem Tables.written_of_toJson {t t' : Tables} (h : sorted t.toJson = sorted t'.toJson) :
    t.Written t' := by
  obtain ⟨ms, hms⟩ := t.exists_documented
  obtain ⟨ms', hms'⟩ := t'.exists_documented
  rw [hms.toJson, hms'.toJson] at h
  have hbases : (t.bases.zipIdx).map Prod.fst = (t'.bases.zipIdx).map Prod.fst :=
    array_told (fun _ _ => base_told) (member_told h "type_ids" hms.bases hms'.bases)
  have hsignatures : t.signatureTable.map id = t'.signatureTable.map id :=
    array_told (fun _ _ => descriptor_told)
      (member_told h "signature_table" hms.signatureTable hms'.signatureTable)
  have hrows : t.rows.map id = t'.rows.map id :=
    array_told (fun _ _ => row_told) (member_told h "builtin_table" hms.rows hms'.rows)
  have hblocks : t.index.blocks.map id = t'.index.blocks.map id :=
    array_told (fun _ _ => block_told) (member_told h "name_index" hms.blocks hms'.blocks)
  rw [List.zipIdx_map_fst, List.zipIdx_map_fst] at hbases
  rw [List.map_id, List.map_id] at hsignatures hrows hblocks
  exact ⟨textOrNull_told (member_told h "catalog" hms.label hms'.label),
    string_told (member_told h "catalog_sha256" hms.fingerprint hms'.fingerprint),
    hbases, hsignatures, hrows, hblocks⟩

/-! ## what is not written out -/

/-- Runs in ascending order are known by what they are. -/
theorem runs_unique {l m : List Run} (hl : l.Pairwise fun a b => a.start < b.start)
    (hm : m.Pairwise fun a b => a.start < b.start) (h : ∀ r, r ∈ l ↔ r ∈ m) : l = m := by
  have hantisymm : Std.Antisymm fun a b : Run => a.start < b.start :=
    ⟨fun _ _ hab hba => absurd hba (Nat.lt_asymm hab)⟩
  have hirrefl : Std.Irrefl fun a b : Run => a.start < b.start := ⟨fun a => Nat.lt_irrefl a.start⟩
  exact hl.eq_of_mem_iff hm h

namespace Stages

variable {c c' : Catalog} {t t' : Tables} (g : Stages c t) (g' : Stages c' t')
include g g'

/-- The runs are where the rows point to. -/
theorem runs_told (h : t.rows = t'.rows) : t.runs = t'.runs := by
  have hascending := SignaturePool.layOut_ascending 0 g.distinct_nonempty
  have hascending' := SignaturePool.layOut_ascending 0 g'.distinct_nonempty
  rw [← g.runs_layOut] at hascending
  rw [← g'.runs_layOut] at hascending'
  refine runs_unique hascending hascending' fun r => ?_
  rw [g.mem_runs, g'.mem_runs, h]

/-- The blocks tell the trie of their names. -/
theorem index_told (h : t.index.blocks = t'.index.blocks) : t.index = t'.index := by
  have hblocks := g.index_blocks
  have hblocks' := g'.index_blocks
  rw [← (BlockIndex.ofBlocks_added hblocks).1, h] at hblocks
  rw [← (BlockIndex.ofBlocks_added hblocks').1] at hblocks'
  exact Except.ok.inj (hblocks.symm.trans hblocks')

/-- Tables of catalogs are known by the fields that are written out. -/
theorem tables_told (h : t.Written t') : t = t' := by
  have hruns := g.runs_told g' h.rows
  have hindex := g.index_told g' h.blocks
  obtain ⟨label, fingerprint, bases, signatureTable, runs, rows, index⟩ := t
  obtain ⟨rfl, rfl, rfl, rfl, rfl, -⟩ := h
  subst hruns hindex
  rfl

end Stages

namespace Tables

/-- **The document of tables is read back as it was meant, and tells all of the tables**, the runs
included, which it does not have. -/
theorem document_tells {c : Catalog} {t : Tables} (h : Tables.build c = .ok t) :
    (∃ v, Json.parse t.jsonDocument = .ok v ∧ v.Same t.toJson) ∧
      ∀ c' t', Tables.build c' = .ok t' → t.jsonDocument = t'.jsonDocument → t = t' := by
  refine ⟨⟨_, t.parse_jsonDocument, Json.same_sorted t.regular_document⟩, fun c' t' h' htext => ?_⟩
  obtain ⟨g⟩ := build_eq_ok.mp h
  obtain ⟨g'⟩ := build_eq_ok.mp h'
  have hread := t.parse_jsonDocument
  rw [htext, t'.parse_jsonDocument] at hread
  exact g.tables_told g' (written_of_toJson (Except.ok.inj hread).symm)

/-- Names and extensions with quotes, line ends, a control character and a character beyond the
first plane, a number of twenty digits, an abstract base, and a signature that is used twice. -/
def escaped (file : Option String) : Catalog where
  types := [⟨⟨"g", "gen", 4, .default, false, none⟩, .root file⟩,
    ⟨⟨"p", "float", 0, .openclLocal, true, some "\"F\"\n"⟩, .root file⟩]
  overloads := [⟨⟨"é\"𝄞", ["g", "p"], some "V", "a\r\nb\u0001"⟩, .root file⟩,
    ⟨⟨"sub", ["p"], some "V", ""⟩, .root file⟩,
    ⟨⟨"é\"𝄞", ["g", "p"], some "V", "\\"⟩, .root file⟩]
  versions := [⟨⟨"V", -12345678901234567890⟩, .root file⟩]
  label := none
  file := file

set_option maxRecDepth 4000 in
theorem document_tells_escaped : ∃ t t', Tables.build (escaped none) = .ok t ∧
    Tables.build (escaped (some "c.json")) = .ok t' ∧ t.jsonDocument = t'.jsonDocument ∧
    t.runs = [⟨0, 2⟩, ⟨2, 1⟩] ∧ t.rows.map (·.start) = [0, 0, 2] ∧
    (∃ v, Json.parse t.jsonDocument = .ok v ∧ v.Same t.toJson) ∧ t = t' := by
  obtain ⟨t, t', h, h', htext, hruns, hstarts⟩ : ∃ t t', Tables.build (escaped none) = .ok t ∧
      Tables.build (escaped (some "c.json")) = .ok t' ∧ t.jsonDocument = t'.jsonDocument ∧
      t.runs = [⟨0, 2⟩, ⟨2, 1⟩] ∧ t.rows.map (·.start) = [0, 0, 2] :=
    ⟨_, _, rfl, rfl, rfl, rfl, rfl⟩
  obtain ⟨hread, hsame⟩ := document_tells h
  exact ⟨t, t', h, h', htext, hruns, hstarts, hread, hsame _ t' h' htext⟩

end Tables
end OverloadTables
