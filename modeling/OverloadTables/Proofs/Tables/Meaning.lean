import OverloadTables.Proofs.Signature.Vocabulary
import OverloadTables.Proofs.Tables.Signatures

/-!
# Tables as a function of what the overloads mean

An overload means its name, the descriptors of its type keys, its extension and the number of its
version.  What stands in the tables apart from the base types follows from the meanings in the
order of declaration, whatever the keys are that the declarations use.

* `Content.meaning`        what an overload means by the declarations of a catalog;
* `Stages.rows_meanings`   the rows in the order of declaration mean what the overloads mean;
* `Tables.build_bases`     the base types of built tables, their names and concrete types;
* `Tables.build_meanings`  catalogs whose overloads mean the same have the same tables.
-/

namespace OverloadTables

/-- An overload with its references followed. -/
structure Meaning where
  name : LooseText
  signature : Signature
  extension : LooseText
  /-- None if there is no reference or nothing to refer to. -/
  version : Option Int
  deriving DecidableEq, Repr

namespace Content

def descriptor? (c : Content) (key : LooseText) : Option Descriptor :=
  (c.types.find? (·.key = key)).map (descriptorIn (baseNames c.types))

def number? (c : Content) (key : LooseText) : Option Int :=
  (c.versions.find? (·.key = key)).map (·.number)

def meaning (c : Content) (o : Overload) : Meaning :=
  ⟨o.name, o.signature.filterMap c.descriptor?, o.extension, o.version.bind c.number?⟩

end Content

/-- What a row says, wherever its signature is stored. -/
def Tables.meaningOf (t : Tables) (r : Row) : Meaning :=
  ⟨r.name, t.signatureOf r, r.extension, some r.version⟩

attribute [ext] Row BaseType Tables

namespace Stages

variable {c c' : Catalog} {t t' : Tables} (g : Stages c t) (g' : Stages c' t')

theorem descriptor?_eq : g.scope.descriptor? = c.content.descriptor? := by
  funext key
  exact TypeScope.ofDeclared_descriptor? g.scope_eq key

/-- **The rows have the meanings of the overloads.** -/
theorem rows_meanings : g.rows.map t.meaningOf = c.content.overloads.map c.content.meaning := by
  refine (map_eq_map_of_forall₂ (fun o r ⟨h, hextension⟩ => ?_) g.rowsOf_extension).symm
  have hsignature : t.signatureOf r = o.signature.filterMap c.content.descriptor? := by
    rw [g.signatureOf_rowOf h, TypeScope.resolved, g.descriptor?_eq]
  obtain ⟨v, hkey, hfound, hnumber⟩ := h.version
  have hversion : o.version.bind c.content.number? = some r.version := by
    rw [hkey, hnumber]
    exact (versionsOf_versions g.versions_eq).number_find? hfound
  rw [Content.meaning, Tables.meaningOf, h.name, hsignature, hextension, hversion]

theorem signatures_meanings :
    g.signatures = (c.content.overloads.map c.content.meaning).map (·.signature) := by
  rw [← g.rows_meanings, List.map_map, ← g.rows_signatures]
  rfl

/-- A row is told by its meaning and the signatures that are stored, whatever is stored later. -/
theorem row_unique (hsigs : g.signatures.eraseDups <+: g'.signatures.eraseDups) {r r' : Row}
    (hr : r ∈ g.rows) (hr' : r' ∈ g'.rows) (h : t.meaningOf r = t'.meaningOf r') : r = r' := by
  obtain ⟨hname, hsignature, hextension, hversion⟩ := Meaning.mk.inj h
  obtain ⟨hstart, hlength⟩ := g.row_starts (g.rows_perm.mem_iff.mp hr)
  obtain ⟨hstart', hlength'⟩ := g'.row_starts (g'.rows_perm.mem_iff.mp hr')
  obtain ⟨more, hmore⟩ := hsigs
  replace hstart := hstart.append more
  rw [hmore, hsignature] at hstart
  have hstarts : r.start = r'.start := StartsAt.start_unique (nodup_eraseDups _) hstart hstart'
  have hlengths : r.length = r'.length := by
    rw [hlength, hlength', hsignature]
  have hversions : r.version = r'.version := Option.some.inj hversion
  exact Row.ext (LooseText.text_injective hname) hstarts hlengths
    (LooseText.text_injective hextension) hversions

theorem rows_unique (h : g.rows.map t.meaningOf = g'.rows.map t'.meaningOf) : g.rows = g'.rows := by
  have hsigs : g.signatures = g'.signatures := by
    rw [g.signatures_meanings, g'.signatures_meanings, ← g.rows_meanings, h, g'.rows_meanings]
  have hrows : g.rows.map id = g'.rows.map id :=
    map_eq_map_of_map_eq
      (fun _ hr _ hr' => g.row_unique g' (hsigs ▸ List.prefix_refl _) hr hr') h
  rwa [List.map_id, List.map_id] at hrows

end Stages

theorem BaseType.text_injective : Function.Injective (BaseType.map LooseText.text) := by
  intro b b' h
  obtain ⟨hname, hconcrete⟩ := BaseType.mk.inj h
  exact BaseType.ext (LooseText.text_injective hname)
    (Option.map_injective LooseText.text_injective hconcrete)

namespace Tables

variable {c c' : Catalog} {t t' : Tables}

/-- **The base types of built tables**: the names in the order of first sight, each with the
concrete type of its first declaration. -/
theorem build_bases (h : Tables.build c = .ok t) : t.bases.map (·.map .text) =
    (baseNames c.content.types).map fun n => ⟨n, concreteIn c.content.types n⟩ := by
  obtain ⟨g⟩ := build_eq_ok.mp h
  rw [← g.bases]
  exact TypeScope.ofDeclared_bases g.scope_eq

theorem build_names (h : Tables.build c = .ok t) :
    (t.bases.map (·.name)).map .text = baseNames c.content.types := by
  have hnames := congrArg (List.map (·.name)) (build_bases h)
  rw [List.map_map, List.map_map] at hnames
  rw [List.map_map]
  exact hnames.trans (List.map_id _)

theorem build_concretes (h : Tables.build c = .ok t) : t.concretes.map (·.map .text)
    = (baseNames c.content.types).map (concreteIn c.content.types) := by
  have hconcretes := congrArg (List.map (·.concrete)) (build_bases h)
  rw [List.map_map, List.map_map] at hconcretes
  rw [concretes, List.map_map]
  exact hconcretes

theorem build_label (h : Tables.build c = .ok t) :
    c.content.label = t.label.map .text ∧ c.content.fingerprint = .ok t.fingerprint := by
  obtain ⟨g⟩ := build_eq_ok.mp h
  exact ⟨g.label, g.fingerprint_eq⟩

/-- **Catalogs whose overloads mean the same have the same tables**, base types apart. -/
theorem build_meanings (h : Tables.build c = .ok t) (h' : Tables.build c' = .ok t')
    (hmeanings : c.content.overloads.map c.content.meaning
      = c'.content.overloads.map c'.content.meaning) :
    t.signatureTable = t'.signatureTable ∧ t.runs = t'.runs ∧ t.rows = t'.rows ∧
      t.index = t'.index := by
  obtain ⟨g⟩ := build_eq_ok.mp h
  obtain ⟨g'⟩ := build_eq_ok.mp h'
  have hsigs : g.signatures = g'.signatures := by
    rw [g.signatures_meanings, hmeanings, ← g'.signatures_meanings]
  have hrows : g.rows = g'.rows := by
    refine g.rows_unique g' ?_
    rw [g.rows_meanings, hmeanings, g'.rows_meanings]
  refine ⟨?_, ?_, ?_, ?_⟩
  · rw [g.table_flatten, hsigs, g'.table_flatten]
  · rw [g.runs_layOut, hsigs, g'.runs_layOut]
  · rw [g.grouped_eq, hrows, g'.grouped_eq]
  · have hindex := g.index_eq
    rw [hrows, g'.index_eq] at hindex
    exact (Except.ok.inj hindex).symm

end Tables
end OverloadTables
