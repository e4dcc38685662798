import OverloadTables.Proofs.Catalog.Shown
import OverloadTables.Proofs.Tables.Culprit

/-!
# What is shown of a catalog without tables

* `Refused.settled`    the faults that a document is refused for are settled;
* `Refused.path`       the place has a path on one line, unless nothing of the document is shown.
-/

namespace OverloadTables

open Text

/-- A name that is no identifier is refused before the concrete types are compared. -/
theorem TypeScope.declare_unnamed {s : TypeScope} {d : Located DeclaredType}
    (h : d.value.name.isIdentifier = false) :
    s.declare d = .error ⟨.invalidTypeName d.value.name, d.place.member "name"⟩ := by
  rw [TypeScope.declare, h]
  rfl

section
variable {file : Option String} {v : Json} {r : Rejection}

/-- The text of the place of a record is on one line if the name of the file is. -/
theorem oneLine_entryPlace (hfile : OneLine (Place.root file).fileName.toList) {kind : String}
    (hkind : kind ∈ sectionNames) (i : Nat) :
    OneLine ((Place.root file).follow (entrySteps kind i)).text.toList := by
  have hknown : ∀ s ∈ entrySteps kind i, s.known = true :=
    List.forall_mem_cons.mpr ⟨known_section hkind, List.forall_mem_singleton.mpr rfl⟩
  obtain ⟨text, hfollow, -, htext⟩ := Place.follow_known file hknown
  have hpath : OneLine (Place.orElse (some text) "?").toList := by
    rw [Place.orElse]
    split
    · exact oneLine_ofList (by decide)
    · exact htext
  have hcolon : OneLine ":".toList := oneLine_ofList (by decide)
  rw [hfollow, Place.text, oneLine_str, oneLine_str]
  exact ⟨⟨hfile, hcolon⟩, hpath⟩

theorem build_settled (hfile : OneLine (Place.root file).fileName.toList) {c : Catalog}
    (hc : Catalog.ofJson file v = .ok c) (h : Tables.build c = .error (.rejected r)) :
    r.fault.Settled := by
  rcases Tables.build_stage h with htypes | hversions | ⟨o, ho, hrefusal⟩
  · obtain ⟨done, d, rest, s, hds, hs, hdeclare⟩ := TypeScope.ofDeclared_stops htypes
    have hrefusal := hs.declare_eq_error hdeclare
    cases hrefusal with
    | name | width => exact List.forall_mem_nil _
    | @again first hfirst hkey hne =>
      have hmem : first ∈ c.types := hds ▸ List.mem_append_left _ hfirst
      obtain ⟨i, hi⟩ := List.mem_iff_getElem?.mp hmem
      obtain ⟨hplace, -⟩ := (Catalog.ofJson_said hc).2.1.entry i first hi
      refine List.forall_mem_singleton.mpr ?_
      rw [hplace]
      exact LooseText.oneLine_text.mpr (oneLine_entryPlace hfile (by decide) i)
    | concrete =>
      refine List.forall_mem_singleton.mpr ?_
      cases hname : d.value.name.isIdentifier with
      | true => exact LooseText.oneLine_of_identifier hname
      | false =>
        rw [TypeScope.declare_unnamed hname] at hdeclare
        exact nomatch hdeclare
  · obtain ⟨done, w, rest, -, hrefusal⟩ := versionsOf_eq_error hversions
    cases hrefusal with
    | again => exact List.forall_mem_nil _
  · have hlegible := (Catalog.ofJson_legible hc).overloads _ (List.mem_map_of_mem ho)
    have hname : ∀ s ∈ [o.value.name], s.OneLine :=
      List.forall_mem_singleton.mpr (LooseText.oneLine_of_printable hlegible.printable)
    cases hrefusal with
    | name => exact List.forall_mem_nil _
    | emptySignature | undeclaredType | noVersion | undeclaredVersion => exact hname

/-- **The faults that a document is refused for are settled.** -/
theorem Refused.settled (hfile : OneLine (Place.root file).fileName.toList)
    (h : Refused file v r) : r.fault.Settled := by
  rcases h with hread | ⟨c, hc, hbuild⟩
  · exact Catalog.ofJson_settled hread
  · exact build_settled hfile hc hbuild

/-- The place has a path, which is on one line and not empty, unless nothing of the document is
shown. -/
theorem Refused.path (h : Refused file v r) :
    (r.place = .root file ∧ r.fault.unchecked = []) ∨
      ∃ text, r.place = ⟨file, some text⟩ ∧ text ≠ "" ∧ OneLine text.toList := by
  rcases h.points with ⟨hplace, hheader⟩ | hpoints
  · exact .inl ⟨hplace, hheader.shows_nothing.2⟩
  · exact .inr hpoints.path

end
end OverloadTables
