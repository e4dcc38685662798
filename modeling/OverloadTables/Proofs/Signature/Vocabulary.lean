import OverloadTables.Proofs.Signature.Declared

/-!
# A type scope as a function of its declarations

* `baseNames ds`           the names of the declarations in the order of first sight;
* `descriptorIn names d`   the descriptor of a declaration, its base numbered among the names;
* `concreteIn ds name`     the concrete type that the first declaration of a name gives;
* `ofDeclared_bases`, `ofDeclared_descriptor?`   what the scope of accepted declarations holds.
-/

namespace OverloadTables

def baseNames (ds : List DeclaredType) : List LooseText := (ds.map (·.name)).eraseDups

def descriptorIn (names : List LooseText) (d : DeclaredType) : Descriptor :=
  ⟨names.idxOf d.name, d.width, d.space, d.pointer⟩

def concreteIn (ds : List DeclaredType) (name : LooseText) : Option LooseText :=
  (ds.find? (·.name = name)).bind (·.concrete)

namespace TypeScope

/-- Every entry has the width, the space and the indirection of its declaration. -/
def Described (s : TypeScope) : Prop := ∀ e ∈ s.entries, ∃ i, e = entryOf e.source i

theorem declare_described {s s' : TypeScope} {d : Located DeclaredType} (hs : Described s)
    (h : s.declare d = .ok s') : Described s' := by
  have hconcat (owned : List OwnedBase) (i : Nat) :
      Described ⟨owned, s.entries ++ [entryOf d i]⟩ := by
    intro e he
    rcases List.mem_append.mp he with he | he
    · exact hs e he
    · obtain rfl := List.mem_singleton.mp he
      exact ⟨i, rfl⟩
  obtain ⟨-, -, ⟨e, -, -, rfl⟩ | ⟨-, hadd⟩⟩ := declare_eq_ok.mp h
  · exact hs
  · rcases add_eq_ok.mp hadd with ⟨-, rfl⟩ | ⟨i, b, -, -, rfl⟩
    · exact hconcat _ _
    · exact hconcat _ _

theorem ofDeclared_described {ds : List (Located DeclaredType)} {s : TypeScope}
    (h : ofDeclared ds = .ok s) : Described s :=
  foldlM_invariant (P := fun _ s => Described s) (fun _ _ _ _ hs h => declare_described hs h) []
    (fun _ h => absurd h List.not_mem_nil) h

section
variable {ds : List DeclaredType} {s : TypeScope} (hs : Reflects ds s)
include hs

/-- The number of a base is the place of its name among the names. -/
theorem Reflects.idxOf_name {i : Nat} {b : OwnedBase} (h : s.owned[i]? = some b) :
    (baseNames ds).idxOf b.base.name = i := by
  have hnames : s.owned.map (·.base.name) = baseNames ds := hs.names
  have hi : (baseNames ds)[i]? = some b.base.name := by
    rw [← hnames, List.getElem?_map, h]
    rfl
  obtain ⟨hlt, hget⟩ := List.getElem?_eq_some_iff.mp hi
  rw [← hget]
  exact (nodup_eraseDups _).idxOf_getElem i hlt

theorem Reflects.concreteIn_name {b : OwnedBase} (hb : b ∈ s.owned) :
    concreteIn ds b.base.name = b.base.concrete := by
  obtain ⟨d, hd, hn⟩ := hs.mem_names.mp (List.mem_map.mpr ⟨b, hb, rfl⟩)
  cases hf : ds.find? (·.name = b.base.name) with
  | none =>
    have hnone := List.find?_eq_none.mp hf d hd
    exact absurd (decide_eq_true hn) hnone
  | some e =>
    obtain ⟨he, hname⟩ := of_find?_eq_some hf
    rw [concreteIn, hf, Option.bind_some]
    exact (hs.concretes e he b hb hname.symm).symm

theorem Reflects.bases_eq : s.bases = (baseNames ds).map fun n => ⟨n, concreteIn ds n⟩ := by
  have hnames : s.owned.map (·.base.name) = baseNames ds := hs.names
  rw [← hnames, List.map_map]
  refine List.map_congr_left fun b hb => ?_
  show b.base = ⟨b.base.name, concreteIn ds b.base.name⟩
  rw [hs.concreteIn_name hb]

/-- The descriptor of a key is that of the first declaration with this key. -/
theorem Reflects.descriptor?_eq (hsound : Sound s) (hd : Described s) (key : LooseText) :
    s.descriptor? key = (ds.find? (·.key = key)).map (descriptorIn (baseNames ds)) := by
  cases hf : ds.find? (·.key = key) with
  | none =>
    refine hs.descriptor?_eq_none.mpr fun d hd hkey => ?_
    exact absurd (decide_eq_true hkey) (List.find?_eq_none.mp hf d hd)
  | some d =>
    obtain ⟨hmem, rfl⟩ := of_find?_eq_some hf
    obtain ⟨e, he, rfl⟩ := hs.found d hmem
    have hentry := (entry?_eq_some he).1
    obtain ⟨i, b, hi, hname, hbase⟩ := hsound.numbered e hentry
    obtain ⟨j, hj⟩ := hd e hentry
    have hji : e.descriptor.base = j := congrArg (·.descriptor.base) hj
    have hidx := hs.idxOf_name hi
    rw [descriptor?, he, Option.map_some, Option.map_some, descriptorIn, ← hname, hidx, ← hbase,
      hji]
    exact congrArg (fun e => some e.descriptor) hj

end

/-- **The base types of accepted declarations.** -/
theorem ofDeclared_bases {ds : List (Located DeclaredType)} {s : TypeScope}
    (h : ofDeclared ds = .ok s) :
    s.bases = (baseNames (ds.map (·.value))).map fun n => ⟨n, concreteIn (ds.map (·.value)) n⟩ :=
  (ofDeclared_reflects h).bases_eq

/-- **The descriptor of a key in the scope of accepted declarations.** -/
theorem ofDeclared_descriptor? {ds : List (Located DeclaredType)} {s : TypeScope}
    (h : ofDeclared ds = .ok s) (key : LooseText) : s.descriptor? key =
      ((ds.map (·.value)).find? (·.key = key)).map (descriptorIn (baseNames (ds.map (·.value)))) :=
  (ofDeclared_reflects h).descriptor?_eq (ofDeclared_sound h) (ofDeclared_described h) key

end TypeScope
end OverloadTables
