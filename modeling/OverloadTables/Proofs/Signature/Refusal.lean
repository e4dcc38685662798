import OverloadTables.Proofs.Signature.Declared

/-!
# Why a declaration of a type is refused

By itself, or because of one of the declarations before it.

* `Origins ds s`           every entry and every base of the scope is from one of the declarations
                           `ds`;
* `Refusal done d r`       after `done`, the declaration `d` is refused for the reason `r`;
* `ofDeclared_eq_error`    some declaration is refused after those before it.
-/

namespace OverloadTables.TypeScope

/-! ## where a scope comes from -/

structure Origins (ds : List (Located DeclaredType)) (s : TypeScope) : Prop where
  entries : ∀ e ∈ s.entries, e.source ∈ ds
  bases : ∀ b ∈ s.owned, ∃ d ∈ ds, d.value.name = b.base.name ∧
    d.value.concrete = b.base.concrete ∧ d.value.key = b.owner

theorem origins_empty : Origins [] empty :=
  ⟨fun _ h => absurd h List.not_mem_nil, fun _ h => absurd h List.not_mem_nil⟩

section
variable {ds : List (Located DeclaredType)} {s s' : TypeScope} {d : Located DeclaredType}
  (hs : Origins ds s)
include hs

theorem Origins.again : Origins (ds ++ [d]) s := by
  refine ⟨fun e he => List.mem_append_left _ (hs.entries e he), fun b hb => ?_⟩
  obtain ⟨d', hd', hbase⟩ := hs.bases b hb
  exact ⟨d', List.mem_append_left _ hd', hbase⟩

theorem Origins.add (h : s.add d = .ok s') : Origins (ds ++ [d]) s' := by
  have hmem : d ∈ ds ++ [d] := List.mem_append_right _ List.mem_cons_self
  have hentries (i : Nat) : ∀ e ∈ s.entries ++ [entryOf d i], e.source ∈ ds ++ [d] := by
    intro e he
    rcases List.mem_append.mp he with he | he
    · exact hs.again.entries e he
    · rw [List.mem_singleton.mp he]
      exact hmem
  rcases add_eq_ok.mp h with ⟨-, rfl⟩ | ⟨i, b, -, -, rfl⟩
  · refine ⟨hentries _, fun b hb => ?_⟩
    rcases List.mem_append.mp hb with hb | hb
    · exact hs.again.bases b hb
    · obtain rfl := List.mem_singleton.mp hb
      exact ⟨d, hmem, rfl, rfl, rfl⟩
  · exact ⟨hentries i, hs.again.bases⟩

theorem Origins.declare (h : s.declare d = .ok s') : Origins (ds ++ [d]) s' := by
  obtain ⟨-, -, ⟨e, -, -, rfl⟩ | ⟨-, hadd⟩⟩ := declare_eq_ok.mp h
  · exact hs.again
  · exact hs.add hadd

end

/-! ## refusals -/

/-- Why a declaration is refused after others. -/
inductive Refusal (done : List (Located DeclaredType)) (d : Located DeclaredType) :
    Rejection → Prop
  | name (h : d.value.name.isIdentifier = false) :
      Refusal done d ⟨.invalidTypeName d.value.name, d.place.member "name"⟩
  | width (h : d.value.width < 0) :
      Refusal done d ⟨.negativeWidth d.value.key d.value.width, d.place.member "vec_width"⟩
  | again {first : Located DeclaredType} (hfirst : first ∈ done)
      (hkey : first.value.key = d.value.key) (hne : first.value ≠ d.value) :
      Refusal done d ⟨.typeConflict d.value.key first.place, d.place⟩
  | concrete {first : Located DeclaredType} (hfirst : first ∈ done)
      (hname : first.value.name = d.value.name)
      (hne : first.value.concrete ≠ d.value.concrete) :
      Refusal done d ⟨.concreteConflict d.value.name first.value.concrete d.value.concrete
        first.value.key, d.place.member "qual_type"⟩

section
variable {done : List (Located DeclaredType)} {s : TypeScope} {d : Located DeclaredType}
  {r : Rejection} (hs : Origins done s)
include hs

theorem Origins.add_eq_error (h : s.add d = .error r) : Refusal done d r := by
  unfold TypeScope.add at h
  split at h
  · exact nomatch h
  next i b hfound =>
    by_cases hc : b.base.concrete = d.value.concrete
    · rw [if_pos hc] at h
      exact nomatch h
    · rw [if_neg hc] at h
      obtain rfl := Except.error.inj h
      obtain ⟨k, -, hk, hname⟩ := findBase?_eq_some hfound
      obtain ⟨first, hfirst, hbase, hconcrete, howner⟩ := hs.bases b (List.mem_of_getElem? hk)
      rw [← howner, ← hconcrete]
      exact .concrete hfirst (hbase.trans hname) fun heq => hc (hconcrete.symm.trans heq)

theorem Origins.declare_eq_error (h : s.declare d = .error r) : Refusal done d r := by
  unfold TypeScope.declare at h
  cases hid : d.value.name.isIdentifier with
  | false =>
    rw [hid] at h
    obtain rfl := Except.error.inj h
    exact .name hid
  | true =>
    rw [hid] at h
    by_cases hw : d.value.width < 0
    · rw [if_neg nofun, if_pos hw] at h
      obtain rfl := Except.error.inj h
      exact .width hw
    · rw [if_neg nofun, if_neg hw] at h
      split at h
      next e he =>
        by_cases hv : e.source.value = d.value
        · rw [if_pos hv] at h
          exact nomatch h
        · rw [if_neg hv] at h
          obtain rfl := Except.error.inj h
          obtain ⟨hentry, hkey⟩ := entry?_eq_some he
          exact .again (hs.entries e hentry) hkey hv
      next => exact hs.add_eq_error h

end

/-- The declaration that is refused, and the scope that those before it make. -/
theorem ofDeclared_stops {ds : List (Located DeclaredType)} {r : Rejection}
    (h : ofDeclared ds = .error r) :
    ∃ done d rest s, ds = done ++ d :: rest ∧ Origins done s ∧ s.declare d = .error r := by
  obtain ⟨done, d, rest, s, hds, hdone, herror⟩ := foldlM_eq_error h
  have hs : Origins done s :=
    foldlM_invariant (P := Origins) (fun _ _ _ _ hs h => hs.declare h) [] origins_empty hdone
  exact ⟨done, d, rest, s, hds, hs, herror⟩

theorem ofDeclared_eq_error {ds : List (Located DeclaredType)} {r : Rejection}
    (h : ofDeclared ds = .error r) :
    ∃ done d rest, ds = done ++ d :: rest ∧ Refusal done d r := by
  obtain ⟨done, d, rest, s, hds, hs, herror⟩ := ofDeclared_stops h
  exact ⟨done, d, rest, hds, hs.declare_eq_error herror⟩

end OverloadTables.TypeScope
