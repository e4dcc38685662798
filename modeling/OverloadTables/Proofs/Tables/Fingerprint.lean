import OverloadTables.Proofs.Catalog.Spelled
import OverloadTables.Proofs.Tables.Meaning

/-!
# What the canonical text tells of the tables

The text whose bytes are hashed settles the tables but for one thing: it spells a base type without a
concrete type like one whose concrete type is the text `null`.

* `Tables.Alike`           what the tables have in common whose catalogs have one canonical text;
* `Tables.build_canonical` catalogs with one canonical text have such tables, and the same base
                           types exactly if the same bases are abstract.
-/

namespace OverloadTables

/-! ## declarations as they are spelled -/

section
variable (ds : List DeclaredType) (c : Content)

theorem find?_spelled (p : DeclaredType → Bool) (hp : ∀ d, p d.spelled = p d) :
    (ds.map (·.spelled)).find? p = (ds.find? p).map (·.spelled) := by
  rw [List.find?_map]
  congr 2
  funext d
  exact hp d

theorem baseNames_spelled : baseNames (ds.map (·.spelled)) = baseNames ds := by
  rw [baseNames, List.map_map]
  rfl

theorem concreteIn_spelled (name : LooseText) :
    (concreteIn (ds.map (·.spelled)) name).getD "null" = (concreteIn ds name).getD "null" := by
  rw [concreteIn, concreteIn, find?_spelled ds _ fun _ => rfl]
  cases ds.find? (·.name = name) with
  | none | some d => rfl

namespace Content

theorem descriptor?_spelled : c.spelled.descriptor? = c.descriptor? := by
  funext key
  show ((c.types.map (·.spelled)).find? _).map (descriptorIn (baseNames (c.types.map _))) = _
  rw [baseNames_spelled, find?_spelled c.types _ fun _ => rfl, Option.map_map]
  rfl

theorem meaning_spelled : c.spelled.meaning = c.meaning := by
  funext o
  rw [meaning, meaning, descriptor?_spelled]
  rfl

end Content

end

/-- No declaration gives the text `null` for a concrete type. -/
abbrev Content.Plain (c : Content) : Prop := ∀ d ∈ c.types, d.concrete ≠ some "null"

/-! ## tables -/

namespace Tables

/-- The tables differ in nothing but abstract bases whose place is taken by the concrete type
`null`. -/
structure Alike (t t' : Tables) : Prop where
  label : t.label = t'.label
  fingerprint : t.fingerprint = t'.fingerprint
  names : t.bases.map (·.name) = t'.bases.map (·.name)
  concretes : t.concretes.map (·.getD "null") = t'.concretes.map (·.getD "null")
  signatureTable : t.signatureTable = t'.signatureTable
  runs : t.runs = t'.runs
  rows : t.rows = t'.rows
  index : t.index = t'.index

section
variable {c c' : Catalog} {t t' : Tables}

theorem getD_text (q : Option String) :
    (q.map LooseText.text).getD "null" = LooseText.text (q.getD "null") := by
  cases q with
  | none | some q => rfl

theorem alike_of_spelled (h : Tables.build c = .ok t) (h' : Tables.build c' = .ok t')
    (hs : c.content.spelled = c'.content.spelled) : Alike t t' := by
  obtain ⟨htypes, hoverloads, -, hlabel⟩ := Content.mk.inj hs
  have hmeaning : c.content.meaning = c'.content.meaning := by
    rw [← Content.meaning_spelled, hs, Content.meaning_spelled]
  have hnames : baseNames c.content.types = baseNames c'.content.types := by
    rw [← baseNames_spelled, htypes, baseNames_spelled]
  have hconcrete (n : LooseText) : (concreteIn c.content.types n).getD "null" =
      (concreteIn c'.content.types n).getD "null" := by
    rw [← concreteIn_spelled, htypes, concreteIn_spelled]
  have hfingerprint : c.content.fingerprint = c'.content.fingerprint := by
    rw [Content.fingerprint, Content.fingerprint, Content.canonicalBytes_congr hs]
  have htexts : (t.bases.map (·.name)).map LooseText.text = (t'.bases.map (·.name)).map .text := by
    rw [build_names h, build_names h', hnames]
  have hspelled : t.concretes.map (fun q => (q.map LooseText.text).getD "null")
      = t'.concretes.map fun q => (q.map LooseText.text).getD "null" := by
    have hleft := congrArg (List.map (·.getD "null")) (build_concretes h)
    have hright := congrArg (List.map (·.getD "null")) (build_concretes h')
    rw [List.map_map, List.map_map] at hleft hright
    refine (hleft.trans ?_).trans hright.symm
    rw [hnames]
    exact List.map_congr_left fun n _ => hconcrete n
  obtain ⟨htable, hruns, hrows, hindex⟩ := build_meanings h h' (by rw [hmeaning, hoverloads])
  refine ⟨?_, ?_, ?_, ?_, htable, hruns, hrows, hindex⟩
  · refine Option.map_injective LooseText.text_injective ?_
    rw [← (build_label h).1, ← (build_label h').1, hlabel]
  · rw [(build_label h).2, (build_label h').2, Except.ok.injEq] at hfingerprint
    exact hfingerprint
  · exact List.map_injective_iff.mpr LooseText.text_injective htexts
  · refine map_eq_map_of_map_eq (fun q _ q' _ e => ?_) hspelled
    rw [getD_text, getD_text] at e
    exact LooseText.text_injective e

theorem concrete_unique {a b : Option String} (h : a.getD "null" = b.getD "null")
    (hnone : a.isNone = b.isNone) : a = b := by
  cases a with
  | none =>
    cases b with
    | none => rfl
    | some q => exact nomatch hnone
  | some p =>
    cases b with
    | none => exact nomatch hnone
    | some q => exact congrArg some h

/-- Base types that are spelled alike are the same if the same of them are abstract. -/
theorem bases_unique {bs bs' : List BaseType} (hnames : bs.map (·.name) = bs'.map (·.name))
    (hconcretes :
      (bs.map (·.concrete)).map (·.getD "null") = (bs'.map (·.concrete)).map (·.getD "null"))
    (hnone : (bs.map (·.concrete)).map (·.isNone) = (bs'.map (·.concrete)).map (·.isNone)) :
    bs = bs' := by
  induction bs generalizing bs' with
  | nil => exact (List.map_eq_nil_iff.mp hnames.symm).symm
  | cons b bs ih =>
    cases bs' with
    | nil => exact nomatch hnames
    | cons b' bs' =>
      obtain ⟨hname, hnames⟩ := List.cons.inj hnames
      obtain ⟨hconcrete, hconcretes⟩ := List.cons.inj hconcretes
      obtain ⟨hbnone, hnone⟩ := List.cons.inj hnone
      have hb : b = b' := BaseType.ext hname (concrete_unique hconcrete hbnone)
      rw [hb, ih hnames hconcretes hnone]

theorem Alike.eq_iff (ha : Alike t t') :
    t = t' ↔ t.concretes.map (·.isNone) = t'.concretes.map (·.isNone) := by
  constructor
  · intro h
    rw [h]
  · intro h
    have hbases : t.bases = t'.bases := bases_unique ha.names ha.concretes h
    exact Tables.ext ha.label ha.fingerprint hbases ha.signatureTable ha.runs ha.rows ha.index

/-- Where the text `null` is not used, a base is abstract exactly if it is spelled so. -/
theorem isNone_concretes (h : Tables.build c = .ok t) (hc : c.content.Plain) :
    t.concretes.map (·.isNone) = (t.concretes.map (·.getD "null")).map (decide <| · = "null") := by
  rw [List.map_map]
  refine List.map_congr_left fun concrete hmem => ?_
  have hread := build_concretes h ▸ List.mem_map_of_mem hmem
  obtain ⟨n, -, hq⟩ := List.mem_map.mp hread
  cases concrete with
  | none => rfl
  | some q =>
    obtain ⟨d, hd, hconcrete⟩ := Option.bind_eq_some_iff.mp hq
    have hne : q ≠ "null" := by
      rintro rfl
      exact hc d (of_find?_eq_some hd).1 hconcrete
    exact (decide_eq_false hne).symm

theorem Alike.eq_of_plain (ha : Alike t t') (h : Tables.build c = .ok t)
    (h' : Tables.build c' = .ok t') (hc : c.content.Plain) (hc' : c'.content.Plain) : t = t' := by
  rw [ha.eq_iff, isNone_concretes h hc, isNone_concretes h' hc', ha.concretes]

theorem alike_of_canonical (h : Tables.build c = .ok t) (h' : Tables.build c' = .ok t')
    (hbytes : c.content.canonicalBytes = c'.content.canonicalBytes) : Alike t t' := by
  obtain ⟨g⟩ := build_eq_ok.mp h
  obtain ⟨bytes, hc⟩ := Content.exists_canonicalBytes.mpr g.written
  exact alike_of_spelled h h' (Content.spelled_of_bytes hc (hbytes.symm.trans hc))

/-- **Catalogs with one canonical text have tables that are alike.**  The tables are the same
exactly if the same bases are abstract, which is so where no concrete type is the text `null`. -/
theorem build_canonical (h : Tables.build c = .ok t) (h' : Tables.build c' = .ok t')
    (hbytes : c.content.canonicalBytes = c'.content.canonicalBytes) :
    Alike t t' ∧
      (t = t' ↔ t.concretes.map (·.isNone) = t'.concretes.map (·.isNone)) ∧
      (c.content.Plain → c'.content.Plain → t = t') := by
  have ha := alike_of_canonical h h' hbytes
  exact ⟨ha, ha.eq_iff, ha.eq_of_plain h h'⟩

/-- **Catalogs that were read** have the same tables if they have one canonical text. -/
theorem read_canonical {source source' : Option String} {v v' : Json}
    (hread : Catalog.ofJson source v = .ok c) (hread' : Catalog.ofJson source' v' = .ok c')
    (h : Tables.build c = .ok t) (h' : Tables.build c' = .ok t')
    (hbytes : c.content.canonicalBytes = c'.content.canonicalBytes) : t = t' := by
  have hplain {c : Catalog} {source : Option String} {v : Json}
      (hread : Catalog.ofJson source v = .ok c) : c.content.Plain := by
    intro d hd hnull
    exact (((Catalog.ofJson_legible hread).types d hd).concrete "null" hnull).2 rfl
  exact (alike_of_canonical h h' hbytes).eq_of_plain h h' (hplain hread) (hplain hread')

end

/-! ## the text `null` -/

/-- One builtin on one base, which has the given concrete type. -/
def constant (concrete : Option String) : Catalog where
  types := [⟨⟨"v", "void", 0, .default, false, concrete.map .text⟩, .root none⟩]
  overloads := [⟨⟨"f", ["v"], some "V", ""⟩, .root none⟩]
  versions := [⟨⟨"V", 100⟩, .root none⟩]
  label := none
  file := none

set_option maxRecDepth 4000 in
theorem constant_builds : (∃ t, Tables.build (constant none) = .ok t) ∧
    ∃ t, Tables.build (constant (some "null")) = .ok t := ⟨⟨_, rfl⟩, _, rfl⟩

theorem concretes_constant {concrete : Option String} {t : Tables}
    (h : Tables.build (constant concrete) = .ok t) : t.concretes = [concrete] := by
  have htexts : t.concretes.map (·.map .text) = [concrete].map (·.map LooseText.text) :=
    build_concretes h
  exact List.map_injective_iff.mpr (Option.map_injective LooseText.text_injective) htexts

/-- An abstract base and the concrete type `null` have one canonical text and different tables. -/
theorem canonical_ambiguous : ∃ t t', Tables.build (constant none) = .ok t ∧
    Tables.build (constant (some "null")) = .ok t' ∧
    (constant none).content.canonicalBytes = (constant (some "null")).content.canonicalBytes ∧
    t.concretes ≠ t'.concretes := by
  obtain ⟨⟨t, h⟩, t', h'⟩ := constant_builds
  refine ⟨t, t', h, h', rfl, ?_⟩
  rw [concretes_constant h, concretes_constant h']
  exact nofun

theorem build_canonical_constant : ∃ t t', Tables.build (constant none) = .ok t ∧
    Tables.build (constant (some "null")) = .ok t' ∧ t.rows = t'.rows ∧ t ≠ t' := by
  obtain ⟨⟨t, h⟩, t', h'⟩ := constant_builds
  obtain ⟨ha, hiff, -⟩ := build_canonical h h' rfl
  refine ⟨t, t', h, h', ha.rows, fun e => ?_⟩
  have hnone := hiff.mp e
  rw [concretes_constant h, concretes_constant h'] at hnone
  exact nomatch hnone

end Tables
end OverloadTables
