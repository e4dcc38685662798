import OverloadTables.Proofs.Catalog.Culprit
import OverloadTables.Proofs.Tables.Refusal

/-!
# Diagnostics point at their culprit

* `Refused file v r`       a document is refused, as it is read or as its tables are built;
* `build_points`           what is told of a catalog without tables is told at the culprit in its
                           document;
* `refused_points`         every place that is told has the file of the document and a path that
                           spells the steps from the root to the culprit, or has no path, and then
                           the fault is one of the document as a whole.
-/

namespace OverloadTables

/-! ## refusals -/

section
variable {file : Option String} {v : Json} {r : Rejection}

theorem TypeScope.Refusal.points {types done rest : List (Located DeclaredType)}
    {d : Located DeclaredType} (hl : Said file v "types" SaysType types)
    (hds : types = done ++ d :: rest) (h : Refusal done d r) : Points file v r := by
  obtain ⟨hd, hbefore⟩ := getElem?_of_before hds
  obtain ⟨hplace, ms, hms, htold⟩ := hl.entry _ d hd
  cases h with
  | name hname =>
    rw [hplace]
    exact points_member hms htold.name (.typeName hname)
  | width hwidth =>
    have hkey : v.follow? (entrySteps "types" done.length ++ [.member "def"])
        = some (.str d.value.key) := Json.follow?_member_eq_some.mpr ⟨ms, hms, htold.key⟩
    rw [hplace]
    rcases Option.getD_eq_iff.mp htold.width with hx | ⟨-, hzero⟩
    · exact points_member hms hx (.width hkey hwidth)
    · -- a width that is left out is not negative
      rw [← Json.int.inj hzero] at hwidth
      exact absurd hwidth (Int.lt_irrefl 0)
  | again hfirst hkey hne =>
    obtain ⟨j, hj, hget⟩ := hbefore _ hfirst
    obtain ⟨hplace', ms', hms', htold'⟩ := hl.entry j _ hget
    rw [hplace, hplace']
    exact ⟨_, _, rfl, .here hms, .typeAgain hj hms' htold' hms htold hkey hne⟩
  | concrete hfirst hname hne =>
    obtain ⟨j, hj, hget⟩ := hbefore _ hfirst
    obtain ⟨-, ms', hms', htold'⟩ := hl.entry j _ hget
    rw [hplace]
    exact points_member hms rfl (.concreteAgain hj hms' htold' hms htold hname hne)

theorem VersionRefusal.points {versions done rest : List (Located Version)} {w : Located Version}
    (hl : Said file v "versions" SaysVersion versions) (hvs : versions = done ++ w :: rest)
    (h : VersionRefusal done w r) : Points file v r := by
  obtain ⟨hw, hbefore⟩ := getElem?_of_before hvs
  obtain ⟨hplace, ms, hms, htold⟩ := hl.entry _ w hw
  cases h with
  | again hfirst hkey hne =>
    obtain ⟨j, hj, hget⟩ := hbefore _ hfirst
    obtain ⟨-, ms', hms', htold'⟩ := hl.entry j _ hget
    rw [hplace]
    exact ⟨_, _, rfl, .here hms, .versionAgain hj hms' htold' hms htold hkey hne⟩

theorem OverloadRefusal.points {c : Catalog} {o : Located Overload}
    (htypes : Said file v "types" SaysType c.types)
    (hversions : Said file v "versions" SaysVersion c.versions)
    (hoverloads : Said file v "builtins" SaysOverload c.overloads) (ho : o ∈ c.overloads)
    (hlegible : o.value.Legible) (h : OverloadRefusal c.content o r) : Points file v r := by
  obtain ⟨i, hi⟩ := List.mem_iff_getElem?.mp ho
  obtain ⟨hplace, ms, hms, htold⟩ := hoverloads.entry i o hi
  have hname : v.follow? (entrySteps "builtins" i ++ [.member "name"])
      = some (.str o.value.name) := Json.follow?_member_eq_some.mpr ⟨ms, hms, htold.name⟩
  cases h with
  | name h =>
    -- such a name is refused when it is read
    rcases h with h | h
    · exact absurd h hlegible.name
    · rw [hlegible.printable] at h
      cases h
  | emptySignature h =>
    have hx := htold.signature
    rw [h] at hx
    rw [hplace]
    exact points_member hms hx (.emptySignature hname)
  | @undeclaredType k key hkey h =>
    have hitem : (o.value.signature.map Json.str)[k]? = some (.str key) := by
      rw [List.getElem?_map, hkey]
      rfl
    rw [hplace]
    refine ⟨entrySteps "builtins" i ++ [.member "signature", .item k], some (.str key), rfl,
      .here ?_, .undeclaredType hname ?_⟩
    · rw [Json.follow?_append, hms, Option.bind_some, Json.follow?, htold.signature,
        Option.bind_some, Json.follow?, hitem]
      rfl
    · exact htypes.undeclared (fun _ _ hsaid => hsaid.key) h
  | noVersion h =>
    have hx := htold.version
    rw [h] at hx
    rw [hplace]
    refine points_member hms rfl (.noVersion hname ?_)
    rcases Option.getD_eq_iff.mp hx with hnull | ⟨hnone, -⟩
    · exact .inr hnull
    · exact .inl hnone
  | @undeclaredVersion key hkey h =>
    have hx := htold.version
    rw [hkey] at hx
    rw [hplace]
    rcases Option.getD_eq_iff.mp hx with hreference | ⟨-, hnull⟩
    · exact points_member hms hreference
        (.undeclaredVersion hname (hversions.undeclared (fun _ _ hsaid => hsaid.key) h))
    · cases hnull

/-- What is told of a catalog without tables is told at the culprit in its document. -/
theorem build_points {c : Catalog} (hc : Catalog.ofJson file v = .ok c)
    (h : Tables.build c = .error (.rejected r)) : Points file v r := by
  obtain ⟨hversions, htypes, hoverloads⟩ := Catalog.ofJson_said hc
  cases Tables.build_rejected h with
  | types hds hrefusal => exact hrefusal.points htypes hds
  | versions hvs hrefusal => exact hrefusal.points hversions hvs
  | overloads ho hrefusal =>
    refine hrefusal.points htypes hversions hoverloads ho ?_
    exact (Catalog.ofJson_legible hc).overloads _ (List.mem_map_of_mem ho)

end

/-! ## the whole -/

/-- A document is refused, as it is read or as the tables of what was read are built. -/
def Refused (file : Option String) (v : Json) (r : Rejection) : Prop :=
  Catalog.ofJson file v = .error r ∨
    ∃ c, Catalog.ofJson file v = .ok c ∧ Tables.build c = .error (.rejected r)

theorem Refused.points {file : Option String} {v : Json} {r : Rejection} (h : Refused file v r) :
    (r.place = .root file ∧ HeaderFault v r.fault) ∨ Points file v r := by
  rcases h with hread | ⟨c, hc, hbuild⟩
  · exact Catalog.ofJson_points hread
  · exact .inr (build_points hc hbuild)

/-- **Every diagnostic points at its culprit.**  It has the file of the document.  If it has a path,
this spells the steps from the root to the culprit, of which only the last may name a member that
is not there; if it has none, the fault is one of the document as a whole. -/
theorem refused_points {file : Option String} {v : Json} {r : Rejection} (h : Refused file v r) :
    r.place.file = file ∧ (r.place.path = none → HeaderFault v r.fault) ∧
      ∀ text, r.place.path = some text → ∃ path x, stepsOf? text = some path ∧ v.Leads path x ∧
        Culprit file v r.fault path x := by
  rcases h.points with ⟨hplace, hheader⟩ | hpoints
  · rw [hplace]
    exact ⟨rfl, fun _ => hheader, nofun⟩
  · obtain ⟨text, path, x, hplace, hsteps, hleads, hculprit⟩ := hpoints.spelled
    rw [hplace]
    refine ⟨rfl, nofun, fun text' htext => ?_⟩
    obtain rfl := Option.some.inj htext
    exact ⟨path, x, hsteps, hleads, hculprit⟩

/-- A document with two types of one name, of which only the first has a concrete type. -/
def halfConcrete : Json :=
  .obj [("format", .str "builtin-catalog"), ("version", .int 0),
    ("types", .arr [
      .obj [("def", .str "F"), ("name", .str "float"), ("qual_type", .str "FloatTy")],
      .obj [("def", .str "I"), ("name", .str "int"), ("qual_type", .str "IntTy")],
      .obj [("def", .str "F2"), ("name", .str "float"), ("vec_width", .int 2)]])]

theorem refused_points_absent : ∃ r, Refused (some "c.json") halfConcrete r ∧
    r.place = ⟨some "c.json", some "types[2].qual_type"⟩ ∧
    halfConcrete.Leads [.member "types", .item 2, .member "qual_type"] none ∧
    Culprit (some "c.json") halfConcrete r.fault
      [.member "types", .item 2, .member "qual_type"] none := by
  have hrefused : Refused (some "c.json") halfConcrete
      ⟨.concreteConflict "float" (some "FloatTy") none "F",
        ⟨some "c.json", some "types[2].qual_type"⟩⟩ := .inr ⟨_, rfl, rfl⟩
  obtain ⟨path, x, hsteps, hleads, hculprit⟩ := (refused_points hrefused).2.2 _ rfl
  obtain rfl : [.member "types", .item 2, .member "qual_type"] = path := Option.some.inj hsteps
  obtain rfl : x = none := hleads.eq_follow?
  exact ⟨_, hrefused, rfl, hleads, hculprit⟩

end OverloadTables
