import OverloadTables.Proofs.Tables.Accepted
import OverloadTables.Proofs.Tables.Verdict

/-!
# Declarations of types in any order

* `TypeScope.declaration?`     the declaration that a key goes back to, put together from its
                               descriptor and the base with its number;
* `TypeScope.Holds ds s`       the scope holds the declarations `ds`, first, repeated or with a name
                               of others, and nothing else;
* `ofDeclared_ok_iff`          which declarations have a scope, by rules that speak of no order;
* `ofDeclared_rearranged`      a scope holds its declarations, and in another order they have a
                               scope too, in which each key goes back to the same declaration.
-/

namespace OverloadTables

/-- A catalog of types alone. -/
def Content.ofTypes (ds : List DeclaredType) : Content := ⟨ds, [], [], none⟩

namespace TypeScope

def declaration? (s : TypeScope) (key : LooseText) : Option DeclaredType := do
  let d ← s.descriptor? key
  let b ← s.bases[d.base.toNat]?
  return ⟨key, b.name, d.width, d.space, d.pointer, b.concrete⟩

/-- The names in the order of first sight, a concrete type for each, and the descriptors of the
declared keys and of no others. -/
structure Holds (ds : List DeclaredType) (s : TypeScope) : Prop where
  names : s.bases.map (·.name) = (ds.map (·.name)).eraseDups
  nodup : (s.bases.map (·.name)).Nodup
  paired : (s.bases.map (·.concrete)).length = (s.bases.map (·.name)).length
  declared : ∀ d ∈ ds, ∃ b : Nat,
    s.descriptor? d.key = some ⟨b, d.width, d.space, d.pointer⟩ ∧
      (s.bases.map (·.name))[b]? = some d.name ∧ (s.bases.map (·.concrete))[b]? = some d.concrete
  undeclared : ∀ key, (∀ d ∈ ds, d.key ≠ key) → s.descriptor? key = none

/-! ## which declarations are accepted -/

theorem ofDeclared_ok_iff (ds : List (Located DeclaredType)) :
    (∃ s, ofDeclared ds = .ok s) ↔ (Content.ofTypes (ds.map (·.value))).Acceptable := by
  have hrules := Catalog.violations_eq_nil ⟨ds, [], [], none, none⟩
  have htypes : Catalog.violations ⟨ds, [], [], none, none⟩ = inOrder typeViolations [] ds :=
    List.append_nil _
  rw [reports_ok_iff (ofDeclared_reports ds), ← htypes]
  exact hrules

/-! ## what is held -/

section
variable {ds : List (Located DeclaredType)} {s : TypeScope} (h : ofDeclared ds = .ok s)
include h

theorem ofDeclared_names : s.bases.map (·.name) = baseNames (ds.map (·.value)) := by
  rw [ofDeclared_bases h, List.map_map]
  exact List.map_id _

theorem ofDeclared_concretes :
    s.bases.map (·.concrete)
      = (baseNames (ds.map (·.value))).map (concreteIn (ds.map (·.value))) := by
  rw [ofDeclared_bases h, List.map_map]
  rfl

/-- Any declaration, not only the first one with its key or its name, is what the scope holds. -/
theorem ofDeclared_declared {d : DeclaredType} (hd : d ∈ ds.map (·.value)) : ∃ b : Nat,
    s.descriptor? d.key = some ⟨b, d.width, d.space, d.pointer⟩ ∧
      (s.bases.map (·.name))[b]? = some d.name ∧
      (s.bases.map (·.concrete))[b]? = some d.concrete := by
  have hrules := (ofDeclared_ok_iff ds).mp ⟨s, h⟩
  have hname : d.name ∈ baseNames (ds.map (·.value)) := mem_baseNames.mpr ⟨d, hd, rfl⟩
  have hplace : (baseNames (ds.map (·.value)))[(baseNames (ds.map (·.value))).idxOf d.name]?
      = some d.name := List.getElem?_idxOf hname
  have hconcrete : concreteIn (ds.map (·.value)) d.name = d.concrete := hrules.concreteIn_of_mem hd
  refine ⟨(baseNames (ds.map (·.value))).idxOf d.name, ?_, ?_, ?_⟩
  · rw [ofDeclared_descriptor? h]
    exact hrules.descriptor?_of_mem hd
  · rw [ofDeclared_names h, hplace]
  · rw [ofDeclared_concretes h, List.getElem?_map, hplace, Option.map_some, hconcrete]

theorem ofDeclared_holds : Holds (ds.map (·.value)) s where
  names := ofDeclared_names h
  nodup := (ofDeclared_reflects h).names_nodup
  paired := by rw [List.length_map, List.length_map]
  declared _ hd := ofDeclared_declared h hd
  undeclared _ hkey := (ofDeclared_reflects h).descriptor?_eq_none.mpr hkey

end

/-! ## what a key goes back to -/

section
variable {ds : List DeclaredType} {s : TypeScope} (hs : Holds ds s)
include hs

theorem Holds.declaration?_of_mem {d : DeclaredType} (hd : d ∈ ds) :
    s.declaration? d.key = some d := by
  obtain ⟨b, hb, hname, hconcrete⟩ := hs.declared d hd
  rw [List.getElem?_map, Option.map_eq_some_iff] at hname hconcrete
  obtain ⟨base, hbase, hname⟩ := hname
  obtain ⟨base', hbase', hconcrete⟩ := hconcrete
  obtain rfl : base = base' := Option.some.inj (hbase.symm.trans hbase')
  have hnat : ((b : Int)).toNat = b := Int.toNat_natCast b
  simp only [declaration?, hb, hnat, hbase, hname, hconcrete, Option.bind_eq_bind,
    Option.bind_some]
  rfl

theorem Holds.declaration?_eq_none {key : LooseText} (h : ∀ d ∈ ds, d.key ≠ key) :
    s.declaration? key = none := by
  rw [declaration?, hs.undeclared key h]
  rfl

/-- Scopes that hold the same declarations have the same behind each key. -/
theorem Holds.declaration?_eq {ds' : List DeclaredType} {s' : TypeScope} (hs' : Holds ds' s')
    (hmem : ∀ d, d ∈ ds ↔ d ∈ ds') (key : LooseText) : s'.declaration? key = s.declaration? key := by
  by_cases hkey : ∃ d ∈ ds, d.key = key
  · obtain ⟨d, hd, rfl⟩ := hkey
    rw [hs.declaration?_of_mem hd, hs'.declaration?_of_mem ((hmem d).mp hd)]
  · have hnone : ∀ d ∈ ds, d.key ≠ key := fun d hd e => hkey ⟨d, hd, e⟩
    rw [hs.declaration?_eq_none hnone,
      hs'.declaration?_eq_none fun d hd => hnone d ((hmem d).mpr hd)]

end

/-- **A scope holds its declarations, and their order does not matter** but for the numbers of the
bases. -/
theorem ofDeclared_rearranged {ds : List (Located DeclaredType)} {s : TypeScope}
    (h : ofDeclared ds = .ok s) :
    Holds (ds.map (·.value)) s ∧
      ∀ ds' : List (Located DeclaredType), ds'.Perm ds →
        ∃ s', ofDeclared ds' = .ok s' ∧ Holds (ds'.map (·.value)) s' ∧
          ∀ key, s'.declaration? key = s.declaration? key := by
  have hs := ofDeclared_holds h
  refine ⟨hs, fun ds' hperm => ?_⟩
  have hmem (d : DeclaredType) : d ∈ ds.map (·.value) ↔ d ∈ ds'.map (·.value) :=
    (hperm.map _).mem_iff.symm
  have hrules : (Content.ofTypes (ds'.map (·.value))).Acceptable :=
    ((ofDeclared_ok_iff ds).mp ⟨s, h⟩).of_mem (fun d => (hmem d).symm) (fun _ => Iff.rfl)
      fun _ => Iff.rfl
  obtain ⟨s', h'⟩ := (ofDeclared_ok_iff ds').mpr hrules
  have hs' := ofDeclared_holds h'
  exact ⟨s', h', hs', hs.declaration?_eq hs' hmem⟩

/-- Two types of one base around one of another, the first declared again at the end. -/
def repeated : List (Located DeclaredType) :=
  [⟨⟨"f", "float", 0, .default, false, some "Float"⟩, .root none⟩,
    ⟨⟨"g", "gentype", 0, .openclGlobal, true, none⟩, .root none⟩,
    ⟨⟨"f4", "float", 4, .default, false, some "Float"⟩, .root none⟩,
    ⟨⟨"f", "float", 0, .default, false, some "Float"⟩, (Place.root none).member "again"⟩]

theorem ofDeclared_rearranged_repeated : ∃ s s', ofDeclared repeated = .ok s ∧
    ofDeclared repeated.reverse = .ok s' ∧ s.bases.map (·.name) = ["float", "gentype"] ∧
      s.descriptor? "g" = some ⟨1, 0, .openclGlobal, true⟩ ∧ s.descriptor? "h" = none ∧
      ∀ key, s'.declaration? key = s.declaration? key := by
  obtain ⟨s, h, hg⟩ : ∃ s, ofDeclared repeated = .ok s ∧
      s.descriptor? "g" = some ⟨1, 0, .openclGlobal, true⟩ := ⟨_, rfl, rfl⟩
  obtain ⟨hs, horder⟩ := ofDeclared_rearranged h
  obtain ⟨s', h', -, hsame⟩ := horder repeated.reverse (List.reverse_perm repeated)
  refine ⟨s, s', h, h', ?_, hg, hs.undeclared "h" (by decide), hsame⟩
  rw [hs.names]
  rfl

end TypeScope
end OverloadTables
