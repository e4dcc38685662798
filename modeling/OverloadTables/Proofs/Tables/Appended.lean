import OverloadTables.Proofs.Tables.Accepted
import OverloadTables.Proofs.Tables.Verdict
import Mathlib.Data.List.Infix

/-!
# Appending declarations renumbers nothing

* `Content.Continues`      declarations followed by others of each kind;
* `Content.Continues.meaning`   what was declared keeps its meaning;
* `Tables.Continues`       tables whose parts begin with those of others;
* `Tables.build_appended`  tables of a catalog with more declarations continue those without.
-/

namespace OverloadTables

/-! ## declarations -/

namespace Content

/-- `c'` has the types, the overloads and the versions of `c`, each followed by any others. -/
structure Continues (c c' : Content) : Prop where
  types : c.types <+: c'.types
  overloads : c.overloads <+: c'.overloads
  versions : c.versions <+: c'.versions

end Content

theorem prefix_baseNames {ds ds' : List DeclaredType} (h : ds <+: ds') :
    baseNames ds <+: baseNames ds' :=
  prefix_eraseDups (h.map _)

/-- A base keeps its number, so the descriptor of a declaration stays. -/
theorem descriptorIn_of_begins {ds ds' : List DeclaredType} (h : ds <+: ds') {d : DeclaredType}
    (hd : d ∈ ds) : descriptorIn (baseNames ds') d = descriptorIn (baseNames ds) d := by
  obtain ⟨more, hmore⟩ := prefix_baseNames h
  have hname : d.name ∈ baseNames ds := mem_baseNames.mpr ⟨d, hd, rfl⟩
  rw [descriptorIn, descriptorIn, ← hmore, List.idxOf_append_of_mem hname]

namespace Content.Continues

variable {c c' : Content} (h : c.Continues c') (hc : c.Acceptable) (hc' : c'.Acceptable)
include h hc hc'

/-- **What was declared keeps its meaning.** -/
theorem meaning {o : Overload} (ho : o ∈ c.overloads) : c'.meaning o = c.meaning o := by
  have hsignature : o.signature.filterMap c'.descriptor? = o.signature.filterMap c.descriptor? := by
    refine List.filterMap_congr fun key hkey => ?_
    obtain ⟨d, hd, rfl⟩ := hc.references o ho key hkey
    rw [hc.descriptor?_of_mem hd, hc'.descriptor?_of_mem (h.types.subset hd),
      descriptorIn_of_begins h.types hd]
  have hversion : o.version.bind c'.number? = o.version.bind c.number? := by
    obtain ⟨v, hv, hkey⟩ := hc.introduced o ho
    rw [hkey, Option.bind_some, Option.bind_some, hc.number?_of_mem hv,
      hc'.number?_of_mem (h.versions.subset hv)]
  rw [Content.meaning, Content.meaning, hsignature, hversion]

theorem meanings : c.overloads.map c.meaning <+: c'.overloads.map c'.meaning := by
  have hsame : c.overloads.map c.meaning = c.overloads.map c'.meaning :=
    List.map_congr_left fun o ho => (h.meaning hc hc' ho).symm
  rw [hsame]
  exact h.overloads.map _

theorem bases : (baseNames c.types).map (fun n => (⟨n, concreteIn c.types n⟩ : BaseType LooseText))
    <+: (baseNames c'.types).map fun n => ⟨n, concreteIn c'.types n⟩ := by
  have hsame : (baseNames c.types).map (fun n => (⟨n, concreteIn c.types n⟩ : BaseType LooseText))
      = (baseNames c.types).map fun n => ⟨n, concreteIn c'.types n⟩ := by
    refine List.map_congr_left fun n hn => ?_
    rw [hc.concreteIn_eq hc' (fun d hd => ⟨d, h.types.subset hd, rfl, rfl⟩) hn]
  rw [hsame]
  exact (prefix_baseNames h.types).map _

end Content.Continues

/-! ## tables -/

theorem SignaturePool.prefix_layOut {start : Nat} {ds ds' : List Signature} (h : ds <+: ds') :
    layOut start ds <+: layOut start ds' := by
  obtain ⟨more, rfl⟩ := h
  rw [layOut_append]
  exact List.prefix_append _ _

namespace Tables

/-- `t'` begins with what `t` has.  The blocks of the index do move, and nothing else does. -/
structure Continues (t t' : Tables) : Prop where
  bases : t.bases <+: t'.bases
  signatureTable : t.signatureTable <+: t'.signatureTable
  runs : t.runs <+: t'.runs
  names : t.index.blocks.map (·.name) <+: t'.index.blocks.map (·.name)
  /-- The very rows, the starts of their signatures included. -/
  rowsOf : ∀ name, t.rowsOf name <+: t'.rowsOf name
  signatureOf : ∀ r ∈ t.rows, t'.signatureOf r = t.signatureOf r

end Tables

namespace Stages

variable {c c' : Catalog} {t t' : Tables} (g : Stages c t) (g' : Stages c' t')

theorem prefix_signatures
    (h : g.rows.map t.meaningOf <+: g'.rows.map t'.meaningOf) : g.signatures <+: g'.signatures := by
  rw [g.rows_meanings, g'.rows_meanings] at h
  rw [g.signatures_meanings, g'.signatures_meanings]
  exact h.map _

/-- Rows are told by their meanings, so the rows in the order of declaration go on. -/
theorem prefix_rows (h : g.rows.map t.meaningOf <+: g'.rows.map t'.meaningOf) :
    g.rows <+: g'.rows := by
  have hsigs := prefix_eraseDups (g.prefix_signatures g' h)
  exact prefix_of_map (fun _ hr _ hr' => g.row_unique g' hsigs hr hr') h

/-- A signature is found where it was stored, whatever was stored later. -/
theorem signatureOf_of_begins (h : g.signatures <+: g'.signatures) {r : Row} (hr : r ∈ t.rows) :
    t'.signatureOf r = t.signatureOf r := by
  obtain ⟨hstart, hlength⟩ := g.row_starts hr
  obtain ⟨more, hmore⟩ := prefix_eraseDups h
  have hstart' := hstart.append more
  rw [hmore] at hstart'
  rw [Tables.signatureOf, Tables.run, g'.table_flatten, hlength, hstart'.take_drop]

end Stages

namespace Tables

/-- **Appending declarations renumbers nothing.**  The base types, the signature table, its runs
and the names go on where those of the shorter catalog end, and each name has first the rows it
had. -/
theorem build_appended {c c' : Catalog} {t t' : Tables} (h : Tables.build c = .ok t)
    (h' : Tables.build c' = .ok t') (happended : c.content.Continues c'.content) :
    t.Continues t' := by
  have hc := acceptable_of_build h
  have hc' := acceptable_of_build h'
  obtain ⟨g⟩ := build_eq_ok.mp h
  obtain ⟨g'⟩ := build_eq_ok.mp h'
  have hmeanings : g.rows.map t.meaningOf <+: g'.rows.map t'.meaningOf := by
    rw [g.rows_meanings, g'.rows_meanings]
    exact happended.meanings hc hc'
  have hsigs := g.prefix_signatures g' hmeanings
  refine ⟨?_, ?_, ?_, ?_, fun name => ?_, fun r hr => g.signatureOf_of_begins g' hsigs hr⟩
  · refine prefix_of_map (fun _ _ _ _ e => BaseType.text_injective e) ?_
    rw [build_bases h, build_bases h']
    exact happended.bases hc hc'
  · rw [g.table_flatten, g'.table_flatten]
    exact (prefix_eraseDups hsigs).flatten
  · rw [g.runs_layOut, g'.runs_layOut]
    exact SignaturePool.prefix_layOut (prefix_eraseDups hsigs)
  · rw [g.blocks_map_name, g'.blocks_map_name]
    exact prefix_eraseDups ((g.prefix_rows g' hmeanings).map _)
  · rw [g.rowsOf_name, g'.rowsOf_name]
    exact (g.prefix_rows g' hmeanings).filter _

/-- The overloads of `interleaved` and two more, of which one goes to the first name, with a type
declared again and one of another base. -/
def lengthened : Catalog where
  types := interleaved.types ++ [⟨⟨"f", "float", 0, .default, false, some "Float"⟩, .root none⟩,
    ⟨⟨"i", "int", 0, .default, false, none⟩, .root none⟩]
  overloads := interleaved.overloads ++ [⟨⟨"max", ["i", "i", "i"], some "CL10", ""⟩, .root none⟩,
    ⟨⟨"abs", ["f4", "f4"], some "CL10", ""⟩, .root none⟩]
  versions := interleaved.versions
  label := none
  file := none

set_option maxRecDepth 8000 in
theorem build_appended_interleaved : ∃ t t', Tables.build interleaved = .ok t ∧
    Tables.build lengthened = .ok t' ∧ t.Continues t' ∧
      t.index.lookup "min" = ⟨3, 1⟩ ∧ t'.index.lookup "min" = ⟨4, 1⟩ := by
  obtain ⟨t, h, hmin⟩ : ∃ t, Tables.build interleaved = .ok t ∧
      t.index.lookup "min" = ⟨3, 1⟩ := ⟨_, rfl, rfl⟩
  obtain ⟨t', h', hmin'⟩ : ∃ t', Tables.build lengthened = .ok t' ∧
      t'.index.lookup "min" = ⟨4, 1⟩ := ⟨_, rfl, rfl⟩
  have hcontinues : interleaved.content.Continues lengthened.content :=
    ⟨⟨_, rfl⟩, ⟨_, rfl⟩, ⟨[], rfl⟩⟩
  exact ⟨t, t', h, h', build_appended h h' hcontinues, hmin, hmin'⟩

end Tables
end OverloadTables
