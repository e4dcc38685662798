import OverloadTables.Proofs.SemanticType.Runs

/-!
# Towers

A stored type is known by the numbers of its parts.  Looked up part by part it is a tower: a base
with storeys on it.

* `Tower`                      a type with no numbers in it;
* `Unfolds get? id w`         the type with the number `id` is the tower `w`;
* `Unfolds.unique`             a number is of one tower;
* `Unfolds.stays`              it stays of this tower while no type is lost;
* `Sound.unfolds_injective`    in a sound list a tower has one number.
-/

namespace OverloadTables

/-- A type down to its base. -/
inductive Tower where
  | void
  | builtin (name : String)
  | vector (element : Tower) (width : Int)
  | qualified (inner : Tower) (space : AddressSpace)
  | pointer (pointee : Tower)
  deriving DecidableEq, Repr

def Tower.IsBase (w : Tower) : Prop := w = .void ∨ ∃ name, w = .builtin name

def Tower.IsQualified (w : Tower) : Prop := ∃ inner space, w = .qualified inner space

def SemanticType.IsBase (d : SemanticType) : Prop := d = .void ∨ ∃ name, d = .builtin name

/-- The type with the number `id`, its parts looked up down to the base. -/
inductive Unfolds (get? : Int → Option SemanticType) : Int → Tower → Prop where
  | void {id : Int} (h : get? id = some .void) : Unfolds get? id .void
  | builtin {id : Int} {name : String} (h : get? id = some (.builtin name)) :
      Unfolds get? id (.builtin name)
  | vector {id part width : Int} {w : Tower} (h : get? id = some (.vector part width))
      (hp : Unfolds get? part w) : Unfolds get? id (.vector w width)
  | qualified {id part : Int} {space : AddressSpace} {w : Tower}
      (h : get? id = some (.qualified part space)) (hp : Unfolds get? part w) :
      Unfolds get? id (.qualified w space)
  | pointer {id part : Int} {w : Tower} (h : get? id = some (.pointer part))
      (hp : Unfolds get? part w) : Unfolds get? id (.pointer w)

section
variable {get? get?' : Int → Option SemanticType} {id : Int} {w : Tower}

/-- A number is of one tower. -/
theorem Unfolds.unique (h : Unfolds get? id w) {w' : Tower} (h' : Unfolds get? id w') : w = w' := by
  induction h generalizing w' with
  | void h =>
    cases h' with
    | void _ => rfl
    | builtin h' | vector h' _ | qualified h' _ | pointer h' _ => exact nomatch h.symm.trans h'
  | builtin h =>
    cases h' with
    | builtin h' =>
      have hname := SemanticType.builtin.inj (Option.some.inj (h.symm.trans h'))
      rw [hname]
    | void h' | vector h' _ | qualified h' _ | pointer h' _ => exact nomatch h.symm.trans h'
  | vector h _ ih =>
    cases h' with
    | vector h' hp' =>
      obtain ⟨rfl, rfl⟩ := SemanticType.vector.inj (Option.some.inj (h.symm.trans h'))
      rw [ih hp']
    | void h' | builtin h' | qualified h' _ | pointer h' _ => exact nomatch h.symm.trans h'
  | qualified h _ ih =>
    cases h' with
    | qualified h' hp' =>
      obtain ⟨rfl, rfl⟩ := SemanticType.qualified.inj (Option.some.inj (h.symm.trans h'))
      rw [ih hp']
    | void h' | builtin h' | vector h' _ | pointer h' _ => exact nomatch h.symm.trans h'
  | pointer h _ ih =>
    cases h' with
    | pointer h' hp' =>
      obtain rfl := SemanticType.pointer.inj (Option.some.inj (h.symm.trans h'))
      rw [ih hp']
    | void h' | builtin h' | vector h' _ | qualified h' _ => exact nomatch h.symm.trans h'

theorem Unfolds.stays (hkept : ∀ id d, get? id = some d → get?' id = some d)
    (h : Unfolds get? id w) : Unfolds get?' id w := by
  induction h with
  | void h => exact .void (hkept _ _ h)
  | builtin h => exact .builtin (hkept _ _ h)
  | vector h _ ih => exact .vector (hkept _ _ h) ih
  | qualified h _ ih => exact .qualified (hkept _ _ h) ih
  | pointer h _ ih => exact .pointer (hkept _ _ h) ih

/-- The number of a base is that of a base. -/
theorem Unfolds.get?_base (h : Unfolds get? id w) (hw : w.IsBase) :
    ∃ d, get? id = some d ∧ d.IsBase := by
  cases h with
  | void h => exact ⟨.void, h, .inl rfl⟩
  | builtin h => exact ⟨_, h, .inr ⟨_, rfl⟩⟩
  | vector _ _ | qualified _ _ | pointer _ _ =>
    rcases hw with hw | ⟨name, hw⟩
    · exact nomatch hw
    · exact nomatch hw

/-- The number of a tower whose last storey is no qualification. -/
theorem Unfolds.get?_unqualified (h : Unfolds get? id w) (hw : ¬ w.IsQualified) :
    ∃ d, get? id = some d ∧ ¬ d.IsQualified := by
  cases h with
  | void h => exact ⟨_, h, nofun⟩
  | builtin h => exact ⟨_, h, nofun⟩
  | vector h _ => exact ⟨_, h, nofun⟩
  | qualified _ _ => exact absurd ⟨_, _, rfl⟩ hw
  | pointer h _ => exact ⟨_, h, nofun⟩

end

namespace TypeStore

section
variable {t t' : TypeStore} {id : Int} {w : Tower}

theorem unfolds_stays (hp : t.types <+: t'.types) (h : Unfolds t.get? id w) :
    Unfolds t'.get? id w := h.stays fun _ _ hd => get?_of_prefix hp hd

/-- In a sound list a tower has one number, since each of its storeys has. -/
theorem Sound.unfolds_injective (ht : Sound t) (h : Unfolds t.get? id w) {id' : Int}
    (h' : Unfolds t.get? id' w) : id = id' := by
  induction h generalizing id' with
  | void h =>
    obtain ⟨h'⟩ := h'
    exact ht.get?_injective h h'
  | builtin h =>
    cases h' with
    | builtin h' => exact ht.get?_injective h h'
  | vector h _ ih =>
    cases h' with
    | vector h' hp' =>
      obtain rfl := ih hp'
      exact ht.get?_injective h h'
  | qualified h _ ih =>
    cases h' with
    | qualified h' hp' =>
      obtain rfl := ih hp'
      exact ht.get?_injective h h'
  | pointer h _ ih =>
    cases h' with
    | pointer h' hp' =>
      obtain rfl := ih hp'
      exact ht.get?_injective h h'

end

end TypeStore
end OverloadTables
