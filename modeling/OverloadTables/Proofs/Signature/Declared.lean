import OverloadTables.Proofs.Distinct
import OverloadTables.Proofs.Signature.TypeScope

/-!
# What a type scope knows of the declarations

* `TypeScope.Reflects ds s`   the scope has the keys, the base names and the concrete types of the
                              declarations `ds`, base names in the order of first sight;
* `TypeScope.ofDeclared_reflects`   declarations that are accepted make such a scope.
-/

namespace OverloadTables.TypeScope

/-! ## the invariant -/

structure Reflects (ds : List DeclaredType) (s : TypeScope) : Prop where
  entries : ∀ e ∈ s.entries, e.source.value ∈ ds
  found : ∀ d ∈ ds, ∃ e, s.entry? d.key = some e ∧ e.source.value = d
  names : s.owned.map (·.base.name) = (ds.map (·.name)).eraseDups
  concretes : ∀ d ∈ ds, ∀ b ∈ s.owned, b.base.name = d.name → b.base.concrete = d.concrete

theorem reflects_empty : Reflects [] empty :=
  ⟨fun _ h => absurd h List.not_mem_nil, fun _ h => absurd h List.not_mem_nil, rfl,
    fun _ h => absurd h List.not_mem_nil⟩

theorem entry?_eq_some {s : TypeScope} {key : LooseText} {e : Entry} (h : s.entry? key = some e) :
    e ∈ s.entries ∧ e.source.value.key = key :=
  ⟨List.mem_of_find?_eq_some h, by simpa using List.find?_some h⟩

theorem entry?_concat (s : TypeScope) (owned : List OwnedBase) (e : Entry) (key : LooseText) :
    TypeScope.entry? ⟨owned, s.entries ++ [e]⟩ key
      = (s.entry? key).or (if e.source.value.key = key then some e else none) := by
  unfold entry?
  rw [List.find?_append]
  by_cases h : e.source.value.key = key <;> simp [h]

section
variable {ds : List DeclaredType} {s : TypeScope} (hs : Reflects ds s)
include hs

theorem Reflects.names_nodup : (s.bases.map (·.name)).Nodup := by
  have h := hs.names
  rw [bases, List.map_map]
  show (s.owned.map fun b => b.base.name).Nodup
  rw [h]
  exact nodup_eraseDups _

theorem Reflects.mem_names {name : LooseText} :
    name ∈ s.owned.map (·.base.name) ↔ ∃ d ∈ ds, d.name = name := by
  rw [hs.names, List.mem_eraseDups, List.mem_map]

/-- A key has an entry if and only if it is declared. -/
theorem Reflects.entry?_eq_none {key : LooseText} : s.entry? key = none ↔ ∀ d ∈ ds, d.key ≠ key := by
  constructor
  · rintro h d hd rfl
    obtain ⟨e, he, -⟩ := hs.found d hd
    rw [he] at h
    exact nomatch h
  · intro h
    cases he : s.entry? key with
    | none => rfl
    | some e =>
      obtain ⟨hmem, hkey⟩ := entry?_eq_some he
      exact absurd hkey (h _ (hs.entries e hmem))

theorem Reflects.descriptor?_eq_none {key : LooseText} :
    s.descriptor? key = none ↔ ∀ d ∈ ds, d.key ≠ key := by
  rw [descriptor?, Option.map_eq_none_iff, hs.entry?_eq_none]

theorem Reflects.agree {d e : DeclaredType} (hd : d ∈ ds) (he : e ∈ ds) (hn : d.name = e.name) :
    d.concrete = e.concrete := by
  obtain ⟨b, hb, hbn⟩ := List.mem_map.mp (hs.mem_names.mpr ⟨d, hd, rfl⟩)
  rw [← hs.concretes d hd b hb hbn, ← hs.concretes e he b hb (hbn.trans hn)]

/-- A declaration that is there already. -/
theorem Reflects.again {d : DeclaredType} (hd : d ∈ ds) : Reflects (ds ++ [d]) s := by
  have hmem : ∀ d', d' ∈ ds ++ [d] → d' ∈ ds := by
    intro d' hd'
    rcases List.mem_append.mp hd' with h | h
    · exact h
    · exact List.mem_singleton.mp h ▸ hd
  refine ⟨fun e he => List.mem_append_left _ (hs.entries e he), fun d' hd' => hs.found d' (hmem d' hd'),
    ?_, fun d' hd' => hs.concretes d' (hmem d' hd')⟩
  rw [hs.names, List.map_append, List.map_singleton,
    eraseDups_concat_of_mem (List.mem_map.mpr ⟨d, hd, rfl⟩)]

/-- The entries after a declaration under a new key, whatever its base. -/
theorem Reflects.found_concat {d : Located DeclaredType} (hnew : s.entry? d.value.key = none)
    (owned : List OwnedBase) (i : Nat) :
    (∀ e ∈ s.entries ++ [entryOf d i], e.source.value ∈ ds ++ [d.value]) ∧
      ∀ d' ∈ ds ++ [d.value], ∃ e,
        TypeScope.entry? ⟨owned, s.entries ++ [entryOf d i]⟩ d'.key = some e ∧
          e.source.value = d' := by
  constructor
  · intro e he
    rcases List.mem_append.mp he with he | he
    · exact List.mem_append_left _ (hs.entries e he)
    · rw [List.mem_singleton.mp he]
      exact List.mem_append_right _ List.mem_cons_self
  · intro d' hd'
    rw [entry?_concat]
    rcases List.mem_append.mp hd' with hd' | hd'
    · obtain ⟨e, he, hv⟩ := hs.found d' hd'
      exact ⟨e, by rw [he]; rfl, hv⟩
    · obtain rfl := List.mem_singleton.mp hd'
      exact ⟨entryOf d i, by rw [hnew]; exact if_pos rfl, rfl⟩

theorem Reflects.add {d : Located DeclaredType} {s' : TypeScope}
    (hnew : s.entry? d.value.key = none) (h : s.add d = .ok s') : Reflects (ds ++ [d.value]) s' := by
  rcases add_eq_ok.mp h with ⟨hf, rfl⟩ | ⟨i, b, hf, hc, rfl⟩
  · obtain ⟨hentries, hfound⟩ := hs.found_concat hnew
      (s.owned ++ [⟨⟨d.value.name, d.value.concrete⟩, d.value.key⟩]) s.owned.length
    have hname : d.value.name ∉ s.owned.map (·.base.name) := findBase?_eq_none.mp hf
    have hname' : d.value.name ∉ ds.map (·.name) := fun hm =>
      hname (hs.mem_names.mpr (List.mem_map.mp hm))
    refine ⟨hentries, hfound, ?_, fun d' hd' b hb hbn => ?_⟩
    · rw [List.map_append, List.map_append, hs.names, List.map_singleton, List.map_singleton,
        eraseDups_concat hname']
    rcases List.mem_append.mp hb with hb | hb <;> rcases List.mem_append.mp hd' with hd' | hd'
    · exact hs.concretes d' hd' b hb hbn
    · rw [List.mem_singleton.mp hd'] at hbn
      exact absurd (List.mem_map.mpr ⟨b, hb, hbn⟩) hname
    · rw [List.mem_singleton.mp hb] at hbn
      exact absurd (List.mem_map.mpr ⟨d', hd', hbn.symm⟩) hname'
    · rw [List.mem_singleton.mp hb, List.mem_singleton.mp hd']
  · obtain ⟨hentries, hfound⟩ := hs.found_concat hnew s.owned i
    obtain ⟨k, -, hk, hb⟩ := findBase?_eq_some hf
    have hmem : b ∈ s.owned := List.mem_of_getElem? hk
    obtain ⟨d₀, hd₀, hn₀⟩ := hs.mem_names.mp (List.mem_map.mpr ⟨b, hmem, hb⟩)
    refine ⟨hentries, hfound, ?_, fun d' hd' b' hb' hbn => ?_⟩
    · rw [hs.names, List.map_append, List.map_singleton,
        eraseDups_concat_of_mem (List.mem_map.mpr ⟨d₀, hd₀, hn₀⟩)]
    rcases List.mem_append.mp hd' with hd' | hd'
    · exact hs.concretes d' hd' b' hb' hbn
    · -- both bases of this name have what an earlier declaration says
      rw [List.mem_singleton.mp hd'] at hbn ⊢
      rw [hs.concretes d₀ hd₀ b' hb' (hbn.trans hn₀.symm), ← hc]
      exact (hs.concretes d₀ hd₀ b hmem (hb.trans hn₀.symm)).symm

theorem Reflects.declare {d : Located DeclaredType} {s' : TypeScope} (h : s.declare d = .ok s') :
    Reflects (ds ++ [d.value]) s' := by
  obtain ⟨-, -, ⟨e, he, hv, rfl⟩ | ⟨hnew, hadd⟩⟩ := declare_eq_ok.mp h
  · exact hs.again (hv ▸ hs.entries e (entry?_eq_some he).1)
  · exact hs.add hnew hadd

end

theorem ofDeclared_reflects {ds : List (Located DeclaredType)} {s : TypeScope}
    (h : ofDeclared ds = .ok s) : Reflects (ds.map (·.value)) s := by
  refine foldlM_invariant (P := fun done s => Reflects (done.map (·.value)) s) ?_ [] reflects_empty h
  intro done s d s' hs hd
  rw [List.map_append]
  exact hs.declare hd

end OverloadTables.TypeScope
