import OverloadTables.Proofs.Except
import OverloadTables.Signature.TypeScope

/-!
# What every type scope keeps to

* `TypeScope.declare_eq_ok`   what a declaration does to a scope that accepts it;
* `TypeScope.Sound s`      base names are identifiers, and a descriptor has the number of the base
                           that its declaration names;
* `TypeScope.ofDeclared_sound`   declarations that are accepted make a sound scope.
-/

namespace OverloadTables.TypeScope

theorem findBase?_eq_some {name : LooseText} {i j : Nat} {l : List OwnedBase} {b : OwnedBase}
    (h : findBase? name i l = some (j, b)) : ∃ k, j = i + k ∧ l[k]? = some b ∧ b.base.name = name := by
  induction l generalizing i with
  | nil => exact nomatch h
  | cons c l ih =>
    rw [findBase?] at h
    by_cases hc : c.base.name = name
    · rw [if_pos hc] at h
      obtain ⟨rfl, rfl⟩ := Prod.mk.inj (Option.some.inj h)
      exact ⟨0, rfl, rfl, hc⟩
    · rw [if_neg hc] at h
      obtain ⟨k, rfl, hk, hb⟩ := ih h
      exact ⟨k + 1, by omega, hk, hb⟩

theorem findBase?_eq_none {name : LooseText} {i : Nat} {l : List OwnedBase} :
    findBase? name i l = none ↔ name ∉ l.map (·.base.name) := by
  induction l generalizing i with
  | nil => simp [findBase?]
  | cons b l ih =>
    rw [findBase?, List.map_cons, List.mem_cons, not_or]
    by_cases h : b.base.name = name
    · simp [h]
    · rw [if_neg h, ih]
      simp [Ne.symm h]

/-! ## one declaration more -/

section
variable {s s' : TypeScope} {d : Located DeclaredType}

theorem add_eq_ok : s.add d = .ok s' ↔
    (findBase? d.value.name 0 s.owned = none ∧
      s' = ⟨s.owned ++ [⟨⟨d.value.name, d.value.concrete⟩, d.value.key⟩],
        s.entries ++ [entryOf d s.owned.length]⟩) ∨
    (∃ i b, findBase? d.value.name 0 s.owned = some (i, b) ∧
      b.base.concrete = d.value.concrete ∧ s' = ⟨s.owned, s.entries ++ [entryOf d i]⟩) := by
  unfold add
  cases hf : findBase? d.value.name 0 s.owned with
  | none => simp [eq_comm]
  | some p =>
    obtain ⟨i, b⟩ := p
    show (if b.base.concrete = d.value.concrete then
      (.ok ⟨s.owned, s.entries ++ [entryOf d i]⟩ : Except Rejection TypeScope) else .error _) = _ ↔ _
    by_cases hc : b.base.concrete = d.value.concrete
    · rw [if_pos hc, Except.ok.injEq]
      constructor
      · rintro rfl
        exact .inr ⟨i, b, rfl, hc, rfl⟩
      · rintro (⟨e, -⟩ | ⟨_, _, e, -, rfl⟩)
        · exact nomatch e
        · obtain ⟨rfl, rfl⟩ := Prod.mk.inj (Option.some.inj e)
          rfl
    · rw [if_neg hc]
      constructor
      · intro e
        exact nomatch e
      · rintro (⟨e, -⟩ | ⟨_, _, e, hc', -⟩)
        · exact nomatch e
        · obtain ⟨rfl, rfl⟩ := Prod.mk.inj (Option.some.inj e)
          exact absurd hc' hc

theorem declare_eq_ok : s.declare d = .ok s' ↔
    d.value.name.isIdentifier = true ∧ 0 ≤ d.value.width ∧
      ((∃ e, s.entry? d.value.key = some e ∧ e.source.value = d.value ∧ s' = s) ∨
        (s.entry? d.value.key = none ∧ s.add d = .ok s')) := by
  unfold declare
  by_cases hid : d.value.name.isIdentifier = true
  · by_cases hw : d.value.width < 0
    · have hw' : ¬ 0 ≤ d.value.width := by omega
      simp [hid, hw, hw']
    · have hw' : 0 ≤ d.value.width := by omega
      cases he : s.entry? d.value.key with
      | none => simp [hid, hw, hw']
      | some e =>
        by_cases hv : e.source.value = d.value
        · simp [hid, hw, hw', hv, eq_comm]
        · simp [hid, hw, hv]
  · simp [hid]

end

/-! ## the invariant -/

/-- Names of bases are identifiers, and descriptors have the numbers of their bases. -/
structure Sound (s : TypeScope) : Prop where
  identifiers : ∀ b ∈ s.owned, b.base.name.isIdentifier = true
  numbered : ∀ e ∈ s.entries, ∃ (i : Nat) (b : OwnedBase), s.owned[i]? = some b ∧
    b.base.name = e.source.value.name ∧ e.descriptor.base = i

theorem sound_empty : Sound empty :=
  ⟨fun _ h => absurd h List.not_mem_nil, fun _ h => absurd h List.not_mem_nil⟩

section
variable {s s' : TypeScope} {d : Located DeclaredType} (hs : Sound s)
include hs

theorem add_sound (hd : d.value.name.isIdentifier = true) (h : s.add d = .ok s') :
    Sound s' := by
  rcases add_eq_ok.mp h with ⟨-, rfl⟩ | ⟨i, b, hf, -, rfl⟩
  · refine ⟨fun b hb => ?_, fun e he => ?_⟩
    · rcases List.mem_append.mp hb with hb | hb
      · exact hs.identifiers b hb
      · obtain rfl := List.mem_singleton.mp hb
        exact hd
    · rcases List.mem_append.mp he with he | he
      · obtain ⟨i, b, hi, hb, hn⟩ := hs.numbered e he
        refine ⟨i, b, ?_, hb, hn⟩
        rw [List.getElem?_append_left (List.getElem?_eq_some_iff.mp hi).1, hi]
      · obtain rfl := List.mem_singleton.mp he
        exact ⟨s.owned.length, _, List.getElem?_concat_length, rfl, rfl⟩
  · obtain ⟨k, hk, hb, hname⟩ := findBase?_eq_some hf
    obtain rfl : i = k := by omega
    refine ⟨hs.identifiers, fun e he => ?_⟩
    rcases List.mem_append.mp he with he | he
    · exact hs.numbered e he
    · obtain rfl := List.mem_singleton.mp he
      exact ⟨i, b, hb, hname, rfl⟩

theorem declare_sound (h : s.declare d = .ok s') : Sound s' := by
  obtain ⟨hid, -, ⟨e, -, -, rfl⟩ | ⟨-, hadd⟩⟩ := declare_eq_ok.mp h
  · exact hs
  · exact add_sound hs hid hadd

end

theorem ofDeclared_sound {ds : List (Located DeclaredType)} {s : TypeScope}
    (h : ofDeclared ds = .ok s) : Sound s :=
  foldlM_invariant (P := fun _ s => Sound s) (fun _ _ _ _ hs h => declare_sound hs h) []
    sound_empty h

/-- The descriptor of a key has the number of a base. -/
theorem Sound.descriptor {s : TypeScope} (hs : Sound s) {key : LooseText} {d : Descriptor}
    (h : s.descriptor? key = some d) : ∃ (i : Nat) (b : BaseType LooseText), d.base = i ∧
      s.bases[i]? = some b := by
  rw [descriptor?, Option.map_eq_some_iff] at h
  obtain ⟨e, he, rfl⟩ := h
  obtain ⟨i, b, hi, -, hn⟩ := hs.numbered e (List.mem_of_find?_eq_some he)
  refine ⟨i, b.base, hn, ?_⟩
  rw [bases, List.getElem?_map, hi]
  rfl

end OverloadTables.TypeScope
