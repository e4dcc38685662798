import OverloadTables.Proofs.Document.Source
import OverloadTables.Proofs.Signature.Declared
import OverloadTables.Proofs.Tables.Violations

/-!
# A catalog has tables, or its first violation is told

* `ofDeclared_reports`, `versionsOf_reports`, `makeRows_reports`   the passes over the declarations
                           tell the first violation;
* `Tables.draft`           the tables but for the fingerprint, which comes last;
* `Tables.build_ok_iff`    the rules hold of exactly the catalogs that get so far; they have tables
                           if their canonical bytes can be written;
* `Tables.build_verdict`   of any other catalog the first violation is told, if its message can be
                           written.
-/

namespace OverloadTables

/-- The failure is how the violation is told: as a rejection, if its message can be written. -/
def BuildFailure.Tells (e : BuildFailure) (v : Violation) : Prop :=
  ∃ r, e = .ofRejection r ∧ r.Tells v

theorem Rejection.tells_ofRejection (r : Rejection) (v : Violation) (h : r.Tells v) :
    (BuildFailure.ofRejection r).Tells v := ⟨r, rfl, h⟩

/-! ## types -/

section
variable {s : TypeScope} {done : List (Located DeclaredType)}
  (hs : s.Reflects (done.map (·.value))) (d : Located DeclaredType)
include hs

theorem add_reports : Reports Rejection.Tells (s.add d)
    (breach (done.all fun b => b.value.name = d.value.name → b.value.concrete = d.value.concrete)
      "E-TYPE-QUAL" (d.place.member "qual_type")) := by
  rw [TypeScope.add]
  cases hf : TypeScope.findBase? d.value.name 0 s.owned with
  | none =>
    refine breach_all fun b hb hn => ?_
    have hmem := hs.mem_names.mpr ⟨b.value, List.mem_map.mpr ⟨b, hb, rfl⟩, hn⟩
    exact absurd hmem (TypeScope.findBase?_eq_none.mp hf)
  | some p =>
    obtain ⟨i, b⟩ := p
    obtain ⟨k, -, hk, hbn⟩ := TypeScope.findBase?_eq_some hf
    have hb : b ∈ s.owned := List.mem_of_getElem? hk
    show Reports _ (if b.base.concrete = d.value.concrete then _ else _) _
    by_cases hc : b.base.concrete = d.value.concrete
    · rw [if_pos hc]
      refine breach_all fun e he hn => ?_
      have hmem : e.value ∈ done.map (·.value) := List.mem_map.mpr ⟨e, he, rfl⟩
      rw [← hs.concretes e.value hmem b hb (hbn.trans hn.symm), hc]
    · -- the declaration that brought the base in has another concrete type
      obtain ⟨e, he, hn⟩ := hs.mem_names.mp (List.mem_map.mpr ⟨b, hb, hbn⟩)
      have hce := hs.concretes e he b hb (hbn.trans hn.symm)
      obtain ⟨first, hfirst, rfl⟩ := List.mem_map.mp he
      rw [if_neg hc, breach_all_of_not hfirst fun h => hc (hce.trans (h hn))]
      exact ⟨_, [], rfl, rfl⟩

/-- The key of a declaration against the declarations before it, and then the concrete type. -/
theorem entry_reports : Reports Rejection.Tells
    (match s.entry? d.value.key with
      | some e =>
        if e.source.value = d.value then .ok s
        else .error ⟨.typeConflict d.value.key e.source.place, d.place⟩
      | none => s.add d)
    (breach (done.all fun b => b.value.key = d.value.key → b.value = d.value) "E-TYPE-DUP" d.place
      ++ breach (done.all fun b => b.value.name = d.value.name →
          b.value.concrete = d.value.concrete)
        "E-TYPE-QUAL" (d.place.member "qual_type")) := by
  have hmem {b : Located DeclaredType} (hb : b ∈ done) : b.value ∈ done.map (·.value) :=
    List.mem_map.mpr ⟨b, hb, rfl⟩
  cases he : s.entry? d.value.key with
  | none =>
    have hfresh := hs.entry?_eq_none.mp he
    rw [breach_all fun b hb hk => absurd hk (hfresh b.value (hmem hb))]
    exact add_reports hs d
  | some e =>
    obtain ⟨hentry, hkey⟩ := TypeScope.entry?_eq_some he
    have hin := hs.entries e hentry
    show Reports _ (if e.source.value = d.value then _ else _) _
    by_cases hv : e.source.value = d.value
    · rw [if_pos hv]
      refine List.append_eq_nil_iff.mpr ⟨?_, ?_⟩
      · refine breach_all fun b hb hk => ?_
        obtain ⟨e', he', hv'⟩ := hs.found b.value (hmem hb)
        rw [hk, he, Option.some.injEq] at he'
        rw [← hv', ← he', hv]
      · refine breach_all fun b hb hn => ?_
        exact hs.agree (hmem hb) (hv ▸ hin) hn
    · obtain ⟨b, hb, hbv⟩ := List.mem_map.mp hin
      rw [← hbv] at hkey hv
      rw [← hbv, if_neg hv, breach_all_of_not hb fun h => hv (h hkey)]
      exact ⟨_, _, rfl, rfl⟩

theorem declare_reports : Reports Rejection.Tells (s.declare d) (typeViolations done d) := by
  rw [TypeScope.declare, typeViolations]
  refine reports_check (by simp) rfl fun _ => ?_
  refine reports_check (by simp) rfl fun _ => ?_
  exact entry_reports hs d

end

theorem ofDeclared_reports (ds : List (Located DeclaredType)) :
    Reports Rejection.Tells (TypeScope.ofDeclared ds) (inOrder typeViolations [] ds) := by
  refine reports_foldlM (P := fun done s => s.Reflects (done.map (·.value))) ?_ ?_ ds
    TypeScope.reflects_empty
  · intro done s d hs
    exact declare_reports hs d
  · intro done s d s' hs h
    rw [List.map_append]
    exact hs.declare h

/-! ## versions -/

theorem addVersion_reports {done : List (Located Version)} {l : List Version}
    (hl : Versions (done.map (·.value)) l) (v : Located Version) :
    Reports Rejection.Tells (addVersion l v) (versionViolations done v) := by
  have hmem {w : Located Version} (hw : w ∈ done) : w.value ∈ done.map (·.value) :=
    List.mem_map.mpr ⟨w, hw, rfl⟩
  rw [addVersion]
  cases hf : findVersion? v.value.key l with
  | none =>
    exact breach_all fun w hw hk => absurd hk (hl.findVersion?_eq_none hf w.value (hmem hw))
  | some first =>
    show Reports _ (if first.number = v.value.number then _ else _) _
    by_cases hn : first.number = v.value.number
    · rw [if_pos hn]
      refine breach_all fun w hw hk => ?_
      obtain ⟨x, hx, hxn⟩ := hl.found w.value (hmem hw)
      rw [hk, hf, Option.some.injEq] at hx
      rw [← hxn, ← hx, hn]
    · obtain ⟨hfirst, hkey⟩ := findVersion?_eq_some hf
      obtain ⟨w, hw, rfl⟩ := List.mem_map.mp (hl.declared first hfirst)
      -- the number that is told is the one of the first declaration
      have hnumber := hl.number_find? hf
      rw [List.find?_map, Option.map_map] at hnumber
      have hfirst : firstNumber v.value.key done = [w.value.number] :=
        congrArg Option.toList hnumber
      rw [if_neg hn, versionViolations, breach_all_of_not hw fun h => hn (h hkey), hfirst]
      exact ⟨_, [], rfl, rfl⟩

theorem versionsOf_reports (vs : List (Located Version)) :
    Reports Rejection.Tells (versionsOf vs) (inOrder versionViolations [] vs) := by
  have hnone : Versions (([] : List (Located Version)).map (·.value)) [] := ⟨by simp, by simp⟩
  refine reports_foldlM (P := fun done l => Versions (done.map (·.value)) l) ?_ ?_ vs hnone
  · intro done l v hl
    exact addVersion_reports hl v
  · intro done l v l' hl h
    rw [List.map_append]
    exact addVersion_versions hl h

/-! ## overloads -/

theorem resolve_reports {scope : TypeScope} {types : List DeclaredType}
    (hscope : scope.Reflects types) (o : Located Overload) (i : Nat) (keys : List LooseText) :
    Reports Rejection.Tells (resolve scope o i keys)
      (referenceViolations types (o.place.member "signature") keys i) := by
  induction keys generalizing i with
  | nil => rfl
  | cons key keys ih =>
    have hcons : referenceViolations types (o.place.member "signature") (key :: keys) i
        = breach (types.any (·.key = key)) "E-TYPE-UNDECLARED" ((o.place.member "signature").item i)
          ++ referenceViolations types (o.place.member "signature") keys (i + 1) := rfl
    rw [resolve, hcons]
    cases hd : scope.descriptor? key with
    | none =>
      have hnone : types.any (·.key = key) = false := by
        rw [List.any_eq_false]
        intro d hmem
        simpa using hscope.descriptor?_eq_none.mp hd d hmem
      rw [hnone]
      exact ⟨_, _, rfl, rfl⟩
    | some d =>
      have hsome : types.any (·.key = key) = true := by
        by_contra h
        have hfresh : ∀ d ∈ types, d.key ≠ key := by simpa using h
        rw [hscope.descriptor?_eq_none.mpr hfresh] at hd
        cases hd
      rw [hsome]
      exact reports_then (ih (i + 1)) fun s _ => ⟨d :: s, rfl⟩

theorem versionNumber_reports {vs l : List Version} (hl : Versions vs l) (o : Located Overload) :
    Reports Rejection.Tells (versionNumber l o)
      (breach (vs.any fun v => o.value.version = some v.key) "E-VERSION-MISSING"
        (o.place.member "version")) := by
  rw [versionNumber]
  cases hk : o.value.version with
  | none =>
    have hnone : (vs.any fun v => (none : Option LooseText) = some v.key) = false := by simp
    rw [hnone]
    exact ⟨_, [], rfl, rfl⟩
  | some key =>
    dsimp only
    cases hf : findVersion? key l with
    | none =>
      have hnone : (vs.any fun v => some key = some v.key) = false := by
        rw [List.any_eq_false]
        intro v hv h
        have hkey : key = v.key := by simpa using h
        exact hl.findVersion?_eq_none hf v hv hkey.symm
      rw [hnone]
      exact ⟨_, [], rfl, rfl⟩
    | some v =>
      obtain ⟨hv, rfl⟩ := findVersion?_eq_some hf
      exact breach_eq_nil.mpr (List.any_eq_true.mpr ⟨v, hl.declared v hv, decide_eq_true rfl⟩)

section
variable {c : Content} {scope : TypeScope} {versions : List Version}
  (hscope : scope.Reflects c.types) (hversions : Versions c.versions versions)
include hscope hversions

theorem checkOverload_reports (o : Located Overload) :
    Reports Rejection.Tells (checkOverload scope versions o) (overloadViolations c o) := by
  rw [checkOverload_eq, overloadViolations]
  refine reports_check ?_ rfl fun _ => ?_
  · rw [Bool.and_eq_false_iff, decide_eq_false_iff_not, not_not]
  refine reports_check (by simp) rfl fun _ => ?_
  refine reports_bind (resolve_reports hscope o 0 _) fun s _ => ?_
  exact reports_then (versionNumber_reports hversions o) fun n _ => ⟨(s, n), rfl⟩

/-- The signature of a checked overload is not empty, so the pool takes it. -/
theorem makeRow_reports (p : SignaturePool) (o : Located Overload) :
    Reports BuildFailure.Tells (makeRow scope versions p o) (overloadViolations c o) := by
  refine reports_then
    (reports_mapError Rejection.tells_ofRejection (checkOverload_reports hscope hversions o)) ?_
  rintro ⟨s, n⟩ hcheck
  obtain ⟨-, -, hne, hdeclared, rfl, -⟩ := checkOverload_eq_ok (mapError_eq_ok.mp hcheck)
  have hs : scope.resolved o.value ≠ [] := by
    intro e
    rw [e] at hdeclared
    exact hne (List.map_eq_nil_iff.mp hdeclared)
  obtain ⟨⟨start, p'⟩, hintern⟩ := p.intern_ok hs
  refine ⟨_, bind_eq_ok.mpr ⟨(start, p'), mapError_eq_ok.mpr hintern, rfl⟩⟩

theorem makeRows_reports (p : SignaturePool) (os : List (Located Overload)) :
    Reports BuildFailure.Tells (makeRows scope versions p os)
      (os.flatMap (overloadViolations c)) := by
  induction os generalizing p with
  | nil => rfl
  | cons o os ih =>
    rw [makeRows, List.flatMap_cons]
    refine reports_bind (makeRow_reports hscope hversions p o) fun r _ => ?_
    exact reports_then (ih r.2) fun r' _ => ⟨_, rfl⟩

end

/-! ## the whole -/

namespace Tables

/-- The tables up to the fingerprint, which is the last thing to be made. -/
def draft (c : Catalog) : Except BuildFailure (String → Tables) := do
  let scope ← (TypeScope.ofDeclared c.types).mapError .ofRejection
  let vs ← (versionsOf c.versions).mapError .ofRejection
  let (rows, pool) ← makeRows scope vs .empty c.overloads
  let index ← (BlockIndex.ofSizes (groupSizes rows)).mapError .index
  return fun fingerprint => {
    label := c.label.map (·.plain)
    fingerprint
    bases := scope.bases.map (·.map LooseText.plain)
    signatureTable := pool.table
    runs := pool.runs
    rows := (rowGroups rows).flatMap (·.2)
    index := index }

theorem build_eq (c : Catalog) : Tables.build c = draft c >>= fun made =>
    (c.content.fingerprint.mapError .unwritten).map made := by
  simp only [build, draft, bind_assoc, pure_bind]
  rfl

theorem draft_reports (c : Catalog) : Reports BuildFailure.Tells (draft c) c.violations := by
  refine reports_bind
    (reports_mapError Rejection.tells_ofRejection (ofDeclared_reports c.types)) ?_
  intro scope hscope
  refine reports_bind
    (reports_mapError Rejection.tells_ofRejection (versionsOf_reports c.versions)) ?_
  intro versions hversions
  have hreflects := TypeScope.ofDeclared_reflects (mapError_eq_ok.mp hscope)
  have hdeclared := versionsOf_versions (mapError_eq_ok.mp hversions)
  refine reports_then (makeRows_reports (c := c.content) hreflects hdeclared .empty c.overloads) ?_
  rintro ⟨rows, pool⟩ -
  -- whatever the rows are, grouped by name they have an index
  obtain ⟨ix, hix⟩ := groupSizes_index rows
  exact ⟨_, bind_eq_ok.mpr ⟨ix, mapError_eq_ok.mpr hix, rfl⟩⟩

section
variable {c : Catalog}

theorem build_of_acceptable (h : c.content.Acceptable) : ∃ made : String → Tables,
    Tables.build c = (c.content.fingerprint.mapError .unwritten).map made := by
  have hdraft := (reports_ok_iff (draft_reports c)).mpr (c.violations_eq_nil.mpr h)
  obtain ⟨made, hmade⟩ := hdraft
  exact ⟨made, by rw [build_eq, hmade]; rfl⟩

theorem build_of_violation {v : Violation} {rest : List Violation} (h : c.violations = v :: rest) :
    ∃ r, Tables.build c = .error (.ofRejection r) ∧ r.violation = v := by
  have hreports := draft_reports c
  cases hdraft : draft c with
  | ok made =>
    rw [hdraft, h] at hreports
    exact nomatch hreports
  | error e =>
    rw [hdraft] at hreports
    obtain ⟨w, ws, ⟨r, rfl, rfl⟩, hvs⟩ := hreports
    rw [h] at hvs
    exact ⟨r, by rw [build_eq, hdraft]; rfl, (List.cons.inj hvs).1.symm⟩

/-- The first violation is told, if its message can be written. -/
theorem build_violation {v : Violation} {rest : List Violation} (h : c.violations = v :: rest) :
    (v.Writable → ∃ r, Tables.build c = .error (.rejected r) ∧ r.violation = v) ∧
      (¬ v.Writable → Tables.build c = .error (.unwritten .tooManyDigits)) := by
  obtain ⟨r, hbuild, rfl⟩ := build_of_violation h
  refine ⟨fun hw => ⟨r, ?_, rfl⟩, fun hw => ?_⟩
  · have hfault : r.fault.Writable := hw
    rw [hbuild, BuildFailure.ofRejection, if_pos hfault]
  · have hfault : ¬ r.fault.Writable := hw
    rw [hbuild, BuildFailure.ofRejection, if_neg hfault]

theorem exists_violation (h : ¬ c.content.Acceptable) : ∃ v rest, c.violations = v :: rest :=
  List.exists_cons_of_ne_nil fun hnil => h (c.violations_eq_nil.mp hnil)

/-- **A catalog has tables exactly if the rules hold and its canonical bytes can be written.** -/
theorem build_ok_iff : (∃ t, Tables.build c = .ok t) ↔
    c.content.Acceptable ∧ c.content.WithinLimits ∧ c.content.NoSurrogate := by
  by_cases h : c.content.Acceptable
  · obtain ⟨made, hbuild⟩ := build_of_acceptable h
    rw [hbuild, ← Content.exists_fingerprint]
    cases c.content.fingerprint with
    | ok f => exact iff_of_true ⟨_, rfl⟩ ⟨h, _, rfl⟩
    | error e => exact iff_of_false nofun fun h' => nomatch h'.2
  · obtain ⟨v, rest, hviolations⟩ := exists_violation h
    obtain ⟨r, hbuild, -⟩ := build_of_violation hviolations
    rw [hbuild]
    exact iff_of_false nofun fun h' => h h'.1

theorem acceptable_of_build {t : Tables} (h : Tables.build c = .ok t) : c.content.Acceptable :=
  (build_ok_iff.mp ⟨t, h⟩).1

/-- What is told of declarations that keep the rules and have no bytes. -/
theorem build_unwritten (h : c.content.Acceptable) :
    (¬ c.content.WithinLimits → Tables.build c = .error (.unwritten .tooManyDigits)) ∧
      (c.content.WithinLimits → ¬ c.content.NoSurrogate → ∃ first place count,
        Tables.build c = .error (.unwritten (.surrogates first place count))) := by
  obtain ⟨made, hbuild⟩ := build_of_acceptable h
  obtain ⟨hdigits, hsurrogates⟩ := Content.fingerprint_eq_error (c := c.content)
  refine ⟨fun hlimits => ?_, fun hlimits hplain => ?_⟩
  · rw [hbuild, hdigits hlimits]
    rfl
  · obtain ⟨first, place, count, herror⟩ := hsurrogates hlimits hplain
    exact ⟨first, place, count, by rw [hbuild, herror]; rfl⟩

/-- A rejection is told of the first violation. -/
theorem violation_of_rejected {r : Rejection} (h : Tables.build c = .error (.rejected r)) :
    ∃ rest, c.violations = r.violation :: rest ∧ r.violation.Writable := by
  by_cases hc : c.content.Acceptable
  · obtain ⟨made, hbuild⟩ := build_of_acceptable hc
    rw [hbuild] at h
    cases hf : c.content.fingerprint with
    | ok f | error e =>
      rw [hf] at h
      exact nomatch h
  · obtain ⟨v, rest, hviolations⟩ := exists_violation hc
    obtain ⟨hrejected, hunwritten⟩ := build_violation hviolations
    by_cases hw : v.Writable
    · obtain ⟨r', h', rfl⟩ := hrejected hw
      rw [h', Except.error.injEq, BuildFailure.rejected.injEq] at h
      exact h ▸ ⟨rest, hviolations, hw⟩
    · rw [hunwritten hw] at h
      exact nomatch h

/-- The integers that are told stand in the catalog. -/
theorem integers_of_violation {v : Violation} (h : v ∈ c.violations) :
    ∀ n ∈ v.integers, n ∈ c.content.integers := by
  rcases List.mem_append.mp h with h | h
  · obtain ⟨front, d, rest, hds, hv⟩ := mem_inOrder h
    have hwidth : d.value.width ∈ c.content.integers := by
      refine List.mem_append_right _ (List.mem_map.mpr ⟨d.value, List.mem_map.mpr ⟨d, ?_, rfl⟩, rfl⟩)
      rw [hds]
      exact List.mem_append_right _ List.mem_cons_self
    intro n hn
    exact integers_of_typeViolation hv n hn ▸ hwidth
  rcases List.mem_append.mp h with h | h
  · obtain ⟨front, w, rest, hvs, hv⟩ := mem_inOrder h
    have hnumber {x : Located Version} (hx : x ∈ c.versions) :
        x.value.number ∈ c.content.integers :=
      List.mem_append_left _ (List.mem_map.mpr ⟨x.value, List.mem_map.mpr ⟨x, hx, rfl⟩, rfl⟩)
    rw [integers_of_breach hv, List.nil_append]
    refine List.forall_mem_append.mpr ⟨fun n hn => ?_, List.forall_mem_singleton.mpr (hnumber ?_)⟩
    · obtain ⟨x, hx, rfl⟩ := Option.map_eq_some_iff.mp (Option.mem_toList.mp hn)
      refine hnumber ?_
      rw [hvs]
      exact List.mem_append_left _ (List.mem_of_find?_eq_some hx)
    · rw [hvs]
      exact List.mem_append_right _ List.mem_cons_self
  · obtain ⟨o, -, hv⟩ := List.mem_flatMap.mp h
    rw [integers_of_overloadViolation hv]
    exact List.forall_mem_nil _

/-- What fails for an integer beyond the limit: the bytes, or the message of the first violation. -/
theorem build_tooManyDigits_iff : Tables.build c = .error (.unwritten .tooManyDigits) ↔
    (c.content.Acceptable ∧ ¬ c.content.WithinLimits) ∨
      ∃ v rest, c.violations = v :: rest ∧ ¬ v.Writable := by
  constructor
  · intro h
    by_cases hc : c.content.Acceptable
    · refine .inl ⟨hc, fun hlimits => ?_⟩
      by_cases hplain : c.content.NoSurrogate
      · obtain ⟨t, ht⟩ := build_ok_iff.mpr ⟨hc, hlimits, hplain⟩
        rw [ht] at h
        exact nomatch h
      · obtain ⟨first, place, count, hsurrogates⟩ := (build_unwritten hc).2 hlimits hplain
        rw [hsurrogates] at h
        exact nomatch h
    · obtain ⟨v, rest, hviolations⟩ := exists_violation hc
      refine .inr ⟨v, rest, hviolations, fun hw => ?_⟩
      obtain ⟨r, hr, -⟩ := (build_violation hviolations).1 hw
      rw [hr] at h
      exact nomatch h
  · rintro (⟨hc, hlimits⟩ | ⟨v, rest, hviolations, hw⟩)
    · exact (build_unwritten hc).1 hlimits
    · exact (build_violation hviolations).2 hw

/-- With integers within the limit, nothing fails for one beyond it. -/
theorem build_ne_tooManyDigits (h : c.content.WithinLimits) :
    Tables.build c ≠ .error (.unwritten .tooManyDigits) := by
  intro hbuild
  rcases build_tooManyDigits_iff.mp hbuild with ⟨-, hlimits⟩ | ⟨v, rest, hviolations, hw⟩
  · exact hlimits h
  · have hv : v ∈ c.violations := hviolations ▸ List.mem_cons_self
    exact hw fun n hn => h n (integers_of_violation hv n hn)

/-- What fails for a surrogate is the writing of the bytes, when all rules hold. -/
theorem build_surrogates_iff {first : Surrogate} {place count : Nat} :
    Tables.build c = .error (.unwritten (.surrogates first place count)) ↔
      c.content.Acceptable ∧ c.content.canonicalBytes = .error (.surrogates first place count) := by
  by_cases hc : c.content.Acceptable
  · obtain ⟨made, hbuild⟩ := build_of_acceptable hc
    rw [hbuild, and_iff_right hc, Content.fingerprint]
    cases c.content.canonicalBytes with
    | ok bytes =>
      refine iff_of_false (fun h => ?_) fun h => ?_
      · cases h
      · cases h
    | error e =>
      show (.error (.unwritten e) : Except BuildFailure Tables) = _ ↔ _
      rw [Except.error.injEq, BuildFailure.unwritten.injEq, Except.error.injEq]
  · obtain ⟨v, rest, hviolations⟩ := exists_violation hc
    obtain ⟨r, hbuild, -⟩ := build_of_violation hviolations
    rw [hbuild, BuildFailure.ofRejection]
    refine iff_of_false (fun h => ?_) fun h => hc h.1
    split at h
    · cases h
    · cases h

theorem build_eq_error {e : BuildFailure} (h : Tables.build c = .error e) :
    (∃ r, e = .rejected r) ∨ ∃ w, e = .unwritten w := by
  by_cases hc : c.content.Acceptable
  · obtain ⟨made, hbuild⟩ := build_of_acceptable hc
    rw [hbuild] at h
    cases hf : c.content.fingerprint with
    | ok f =>
      rw [hf] at h
      exact nomatch h
    | error w =>
      rw [hf] at h
      exact .inr ⟨w, (Except.error.inj h).symm⟩
  · obtain ⟨v, rest, hviolations⟩ := exists_violation hc
    obtain ⟨r, hbuild, -⟩ := build_of_violation hviolations
    obtain rfl := Except.error.inj (hbuild.symm.trans h)
    rw [BuildFailure.ofRejection]
    split
    · exact .inl ⟨r, rfl⟩
    · exact .inr ⟨_, rfl⟩

end

/-- **A catalog has tables exactly if the rules hold and its canonical bytes can be written, and
then the tables can be written too.**  Where a rule is broken, the first violation is told: of the
types in order, then of the versions, then of the overloads.  What cannot be written is an integer
beyond the limit, in the message or in the bytes, and else a lone surrogate in the bytes. -/
theorem build_verdict (c : Catalog) :
    (c.violations = [] ↔ c.content.Acceptable) ∧
      ((∃ t, Tables.build c = .ok t) ↔
        c.content.Acceptable ∧ c.content.WithinLimits ∧ c.content.NoSurrogate) ∧
      (∀ t, Tables.build c = .ok t → ∃ text, Source.render t = .ok text) ∧
      (∀ v rest, c.violations = v :: rest →
        (v.Writable → ∃ r, Tables.build c = .error (.rejected r) ∧ r.violation = v) ∧
        (¬ v.Writable → Tables.build c = .error (.unwritten .tooManyDigits))) ∧
      (c.content.Acceptable →
        (¬ c.content.WithinLimits → Tables.build c = .error (.unwritten .tooManyDigits)) ∧
        (c.content.WithinLimits → ¬ c.content.NoSurrogate → ∃ first place count,
          Tables.build c = .error (.unwritten (.surrogates first place count)))) := by
  refine ⟨c.violations_eq_nil, build_ok_iff, fun t ht => ?_, fun v rest => build_violation,
    build_unwritten⟩
  obtain ⟨g⟩ := build_eq_ok.mp ht
  obtain ⟨rest, hrest, -⟩ := Source.below_ok g
  exact ⟨_, by rw [Source.render, Source.lines_eq, hrest]; rfl⟩

/-- The first surrogate, alone. -/
def lone : LooseText := .ofPoints [Text.unitPoint 0xD800]

/-- Nothing but a label, which is a lone surrogate. -/
def loneLabel : Catalog where
  types := []
  overloads := []
  versions := []
  label := some lone
  file := none

/-- One type, whose width is negative. -/
def narrow (width : Int) : Catalog where
  types := [⟨⟨"f", "float", width, .default, false, none⟩, .root none⟩]
  overloads := []
  versions := []
  label := none
  file := none

theorem violations_narrow {width : Int} (h : ¬ 0 ≤ width) : (narrow width).violations
    = [⟨"E-CATALOG-FIELD", ⟨none, some "vec_width"⟩, [width]⟩] := by
  show (breach (decide (0 ≤ width)) "E-CATALOG-FIELD" ⟨none, some "vec_width"⟩ [width] ++ []) ++ []
    ++ [] = _
  rw [decide_eq_false h]
  rfl

/-- A catalog that breaks no rule has no tables for a surrogate, and one that breaks a rule is not
rejected for the first integer beyond the limit. -/
theorem build_unwritable :
    (loneLabel.content.Acceptable ∧
      Tables.build loneLabel = .error (.unwritten (.surrogates 0 50 1))) ∧
    ∃ width : Int, ¬ (narrow width).content.Acceptable ∧
      Tables.build (narrow width) = .error (.unwritten .tooManyDigits) := by
  refine ⟨⟨⟨nofun, nofun, nofun, nofun, nofun, nofun, nofun, nofun, nofun⟩, by rfl⟩, ?_⟩
  have hpow (k : Nat) : 0 < Nat.pow 10 k := Nat.pow_pos (by decide)
  have hpos := hpow Text.digitLimit
  have hlong := (Text.withinLimit_neg _).trans Text.withinLimit_first
  generalize Nat.pow 10 Text.digitLimit = n at hpos hlong
  have hneg : ¬ 0 ≤ -(n : Int) := by omega
  refine ⟨-n, fun h => hneg (h.widths _ List.mem_cons_self), ?_⟩
  refine (build_violation (violations_narrow hneg)).2 fun h => ?_
  rw [h _ List.mem_cons_self] at hlong
  exact nomatch hlong

end Tables
end OverloadTables
