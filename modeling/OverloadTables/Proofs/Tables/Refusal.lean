import OverloadTables.Proofs.Signature.Refusal
import OverloadTables.Proofs.Tables.Rows

/-!
# Why a catalog has no tables

* `VersionRefusal done v r`   after `done`, the version `v` is refused for the reason `r`;
* `OverloadRefusal c o r`     an overload is refused among the declarations `c`;
* `Tables.build_stage`        the stage at which a catalog is refused;
* `Tables.build_rejected`     a catalog without tables has a declaration that is refused.
-/

namespace OverloadTables

/-- A rejection is what is told if its message can be written. -/
theorem BuildFailure.ofRejection_eq_rejected {r r' : Rejection} :
    ofRejection r' = .rejected r ↔ r'.fault.Writable ∧ r' = r := by
  rw [ofRejection]
  by_cases h : r'.fault.Writable
  · rw [if_pos h, BuildFailure.rejected.injEq]
    exact (and_iff_right h).symm
  · rw [if_neg h]
    exact iff_of_false nofun fun h' => h h'.1

/-- A pass over the declarations, as a stage of the tables. -/
theorem mapError_eq_rejected {α : Type} {x : Except Rejection α} {r : Rejection}
    (h : x.mapError BuildFailure.ofRejection = .error (.rejected r)) : x = .error r := by
  obtain ⟨r', rfl, hr⟩ := mapError_eq_error.mp h
  rw [(BuildFailure.ofRejection_eq_rejected.mp hr).2]

/-! ## versions -/

inductive VersionRefusal (done : List (Located Version)) (v : Located Version) : Rejection → Prop
  | again {first : Located Version} (hfirst : first ∈ done)
      (hkey : first.value.key = v.value.key) (hne : first.value.number ≠ v.value.number) :
      VersionRefusal done v
        ⟨.versionConflict v.value.key first.value.number v.value.number, v.place⟩

theorem addVersion_eq_error {done : List (Located Version)} {l : List Version}
    (hl : Versions (done.map (·.value)) l) {v : Located Version} {r : Rejection}
    (h : addVersion l v = .error r) : VersionRefusal done v r := by
  unfold addVersion at h
  split at h
  · exact nomatch h
  next first hfound =>
    by_cases hn : first.number = v.value.number
    · rw [if_pos hn] at h
      exact nomatch h
    · rw [if_neg hn] at h
      obtain rfl := Except.error.inj h
      obtain ⟨hmem, hkey⟩ := findVersion?_eq_some hfound
      obtain ⟨w, hw, rfl⟩ := List.mem_map.mp (hl.declared first hmem)
      exact .again hw hkey hn

theorem versionsOf_eq_error {vs : List (Located Version)} {r : Rejection}
    (h : versionsOf vs = .error r) :
    ∃ done v rest, vs = done ++ v :: rest ∧ VersionRefusal done v r := by
  obtain ⟨done, v, rest, l, hvs, hdone, herror⟩ := foldlM_eq_error h
  exact ⟨done, v, rest, hvs, addVersion_eq_error (versionsOf_versions hdone) herror⟩

/-! ## overloads -/

inductive OverloadRefusal (c : Content) (o : Located Overload) : Rejection → Prop
  | name (h : o.value.name = "" ∨ o.value.name.allPrintable = false) :
      OverloadRefusal c o ⟨.invalidName o.value.name, o.place.member "name"⟩
  | emptySignature (h : o.value.signature = []) :
      OverloadRefusal c o ⟨.emptySignature o.value.name, o.place.member "signature"⟩
  | undeclaredType {k : Nat} {key : LooseText} (hkey : o.value.signature[k]? = some key)
      (h : ∀ d ∈ c.types, d.key ≠ key) :
      OverloadRefusal c o ⟨.undeclaredType o.value.name key, (o.place.member "signature").item k⟩
  | noVersion (h : o.value.version = none) :
      OverloadRefusal c o ⟨.missingVersion o.value.name, o.place.member "version"⟩
  | undeclaredVersion {key : LooseText} (hkey : o.value.version = some key)
      (h : ∀ v ∈ c.versions, v.key ≠ key) :
      OverloadRefusal c o ⟨.undeclaredVersion o.value.name key, o.place.member "version"⟩

theorem resolve_eq_error {scope : TypeScope} {o : Located Overload} {i : Nat} {keys : List LooseText}
    {r : Rejection} (h : resolve scope o i keys = .error r) :
    ∃ (k : Nat) (key : LooseText), keys[k]? = some key ∧ scope.descriptor? key = none ∧
      r = ⟨.undeclaredType o.value.name key,
        (o.place.member "signature").item ((i + k : Nat) : Int)⟩ := by
  induction keys generalizing i with
  | nil => cases h
  | cons key keys ih =>
    rw [resolve] at h
    cases hd : scope.descriptor? key with
    | none =>
      rw [hd] at h
      obtain rfl := Except.error.inj h
      exact ⟨0, key, rfl, hd, rfl⟩
    | some d =>
      rw [hd] at h
      rcases bind_eq_error.mp h with h | ⟨rest, -, h⟩
      · obtain ⟨k, key', hkey, hnone, rfl⟩ := ih h
        exact ⟨k + 1, key', hkey, hnone, by rw [Nat.add_right_comm]; rfl⟩
      · cases h

section
variable {c : Content} {scope : TypeScope} {versions : List Version} {r : Rejection}
  (hscope : scope.Reflects c.types) (hversions : Versions c.versions versions)

include hversions in
theorem versionNumber_eq_error {o : Located Overload}
    (h : versionNumber versions o = .error r) : OverloadRefusal c o r := by
  unfold versionNumber at h
  split at h
  next hnone =>
    obtain rfl := Except.error.inj h
    exact .noVersion hnone
  next key hkey =>
    split at h
    next hnone =>
      obtain rfl := Except.error.inj h
      exact .undeclaredVersion hkey (hversions.findVersion?_eq_none hnone)
    · exact nomatch h

include hscope hversions

theorem checkOverload_eq_error {o : Located Overload}
    (h : checkOverload scope versions o = .error r) : OverloadRefusal c o r := by
  rw [checkOverload_eq] at h
  by_cases hn : o.value.name = "" ∨ o.value.name.allPrintable = false
  · rw [if_pos hn] at h
    obtain rfl := Except.error.inj h
    exact .name hn
  rw [if_neg hn] at h
  by_cases he : o.value.signature = []
  · rw [if_pos he] at h
    obtain rfl := Except.error.inj h
    exact .emptySignature he
  rw [if_neg he] at h
  rcases bind_eq_error.mp h with h | ⟨s, -, h⟩
  · obtain ⟨k, key, hkey, hnone, rfl⟩ := resolve_eq_error h
    rw [Nat.zero_add]
    exact .undeclaredType hkey (hscope.descriptor?_eq_none.mp hnone)
  rcases bind_eq_error.mp h with h | ⟨n, -, h⟩
  · exact versionNumber_eq_error hversions h
  · exact nomatch h

theorem makeRow_rejected {p : SignaturePool} {o : Located Overload}
    (h : makeRow scope versions p o = .error (.rejected r)) : OverloadRefusal c o r := by
  rcases bind_eq_error.mp h with h | ⟨⟨s, n⟩, -, h⟩
  · exact checkOverload_eq_error hscope hversions (mapError_eq_rejected h)
  -- what the pool refuses is told otherwise
  rcases bind_eq_error.mp h with h | ⟨q, -, h⟩
  · obtain ⟨e, -, heq⟩ := mapError_eq_error.mp h
    exact nomatch heq
  · exact nomatch h

theorem makeRows_rejected {p : SignaturePool} {os : List (Located Overload)}
    (h : makeRows scope versions p os = .error (.rejected r)) :
    ∃ o ∈ os, OverloadRefusal c o r := by
  induction os generalizing p with
  | nil => exact nomatch h
  | cons o os ih =>
    rw [makeRows] at h
    rcases bind_eq_error.mp h with h | ⟨⟨row, q⟩, -, h⟩
    · exact ⟨o, List.mem_cons_self, makeRow_rejected hscope hversions h⟩
    rcases bind_eq_error.mp h with h | ⟨rows, -, h⟩
    · obtain ⟨o', ho', hrefusal⟩ := ih h
      exact ⟨o', List.mem_cons_of_mem o ho', hrefusal⟩
    · exact nomatch h

end

/-! ## catalogs -/

/-- The declaration that a catalog is refused for. -/
inductive Catalog.Refusal (c : Catalog) (r : Rejection) : Prop
  | types {done rest : List (Located DeclaredType)} {d : Located DeclaredType}
      (hds : c.types = done ++ d :: rest) (h : TypeScope.Refusal done d r)
  | versions {done rest : List (Located Version)} {v : Located Version}
      (hvs : c.versions = done ++ v :: rest) (h : VersionRefusal done v r)
  | overloads {o : Located Overload} (ho : o ∈ c.overloads) (h : OverloadRefusal c.content o r)

/-- The first of the three stages that is refused: types, versions or overloads. -/
theorem Tables.build_stage {c : Catalog} {r : Rejection}
    (h : Tables.build c = .error (.rejected r)) : TypeScope.ofDeclared c.types = .error r ∨
      versionsOf c.versions = .error r ∨ ∃ o ∈ c.overloads, OverloadRefusal c.content o r := by
  rcases bind_eq_error.mp h with h | ⟨scope, hscope, h⟩
  · exact .inl (mapError_eq_rejected h)
  rcases bind_eq_error.mp h with h | ⟨versions, hversions, h⟩
  · exact .inr (.inl (mapError_eq_rejected h))
  have hreflects := TypeScope.ofDeclared_reflects (mapError_eq_ok.mp hscope)
  have hdeclared := versionsOf_versions (mapError_eq_ok.mp hversions)
  rcases bind_eq_error.mp h with h | ⟨⟨rows, pool⟩, -, h⟩
  · exact .inr (.inr (makeRows_rejected (c := c.content) hreflects hdeclared h))
  -- the index and the fingerprint fail otherwise
  rcases bind_eq_error.mp h with h | ⟨ix, -, h⟩
  · obtain ⟨e, -, heq⟩ := mapError_eq_error.mp h
    exact nomatch heq
  rcases bind_eq_error.mp h with h | ⟨f, -, h⟩
  · obtain ⟨e, -, heq⟩ := mapError_eq_error.mp h
    exact nomatch heq
  · exact nomatch h

theorem Tables.build_rejected {c : Catalog} {r : Rejection}
    (h : Tables.build c = .error (.rejected r)) : c.Refusal r := by
  rcases build_stage h with htypes | hversions | ⟨o, ho, hrefusal⟩
  · obtain ⟨done, d, rest, hds, hrefusal⟩ := TypeScope.ofDeclared_eq_error htypes
    exact .types hds hrefusal
  · obtain ⟨done, v, rest, hvs, hrefusal⟩ := versionsOf_eq_error hversions
    exact .versions hvs hrefusal
  · exact .overloads ho hrefusal

end OverloadTables
