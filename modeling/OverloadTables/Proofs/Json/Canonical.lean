import OverloadTables.Proofs.Json.Characters
import OverloadTables.Proofs.Json.Reader
import OverloadTables.Proofs.Sorting

/-!
# Canonical text

* `get?_sortedObject`          a look-up in a sorted object gives the sorted value;
* `regular_sorted`             a value without decimals and repeated keys stays one when sorted;
* `Plain v`                    no text of the value has a lone surrogate;
* `parseChars_canonical`       canonical text is read as the sorted value;
* `canonical_injective`        values with one canonical text are equal when sorted.
-/

namespace OverloadTables

namespace Members

variable {key : LooseText}

theorem get?_cons (m : LooseText × Json) (ms : Members) :
    get? key (m :: ms) = if m.1 = key then some m.2 else ms.get? key := rfl

/-- A member goes in front of the members with its own key, so it is the one found. -/
theorem get?_insertBy (m : LooseText × Json) (ms : Members) :
    get? key (insertBy (fun a b => decide (a.1 ≤ b.1)) m ms) = get? key (m :: ms) := by
  induction ms with
  | nil => rfl
  | cons b ms ih =>
    rw [insertBy]
    by_cases hle : m.1 ≤ b.1
    · rw [if_pos (decide_eq_true hle)]
    · rw [if_neg (by rw [decide_eq_false hle]; exact Bool.false_ne_true), get?_cons, ih, get?_cons,
        get?_cons, get?_cons]
      by_cases hm : m.1 = key
      · have hb : b.1 ≠ key := by
          intro hb
          rw [hm, hb] at hle
          exact hle (Std.le_refl key)
        rw [if_neg hb, if_pos hm, if_pos hm]
      · rw [if_neg hm, if_neg hm]

theorem get?_sortMembers (ms : Members) : (Json.sortMembers ms).get? key = ms.get? key := by
  induction ms with
  | nil => rfl
  | cons m ms ih =>
    show get? key (insertBy _ m (Json.sortMembers ms)) = _
    rw [get?_insertBy, get?_cons, get?_cons, ih]

end Members

namespace Json

theorem sortedItems_eq_map (vs : List Json) : sortedItems vs = vs.map sorted := by
  induction vs with
  | nil => rfl
  | cons v vs ih => rw [sortedItems, ih, List.map_cons]

theorem sortedMembers_eq_map (ms : Members) :
    sortedMembers ms = ms.map fun m => (m.1, sorted m.2) := by
  induction ms with
  | nil => rfl
  | cons m ms ih => rw [sortedMembers, ih, List.map_cons]

/-- The members of an object when it is sorted. -/
def sortedObject (ms : Members) : Members := sortMembers (sortedMembers ms)

/-- **A look-up in a sorted object gives the sorted value.** -/
theorem get?_sortedObject (ms : Members) (key : LooseText) :
    (sortedObject ms).get? key = (ms.get? key).map sorted := by
  rw [sortedObject, Members.get?_sortMembers]
  induction ms with
  | nil => rfl
  | cons m ms ih =>
    rw [sortedMembers, Members.get?_cons, Members.get?_cons, ih]
    split
    · rfl
    · rfl

theorem sorted_arr (vs : List Json) : sorted (.arr vs) = .arr (vs.map sorted) := by
  rw [sorted, sortedItems_eq_map]

theorem sorted_obj (ms : Members) :
    sorted (.obj ms) = .obj (sortedObject ms) := by
  rw [sorted, sortedObject]

/-- Objects that are equal when sorted have the same values, sorted, under every key. -/
theorem get?_of_sorted_eq {ms ms' : Members} (h : sorted (.obj ms) = sorted (.obj ms'))
    (key : LooseText) : (ms.get? key).map sorted = (ms'.get? key).map sorted := by
  rw [sorted_obj, sorted_obj] at h
  rw [← get?_sortedObject, ← get?_sortedObject, Json.obj.inj h]

theorem keys_sortedObject (ms : Members) :
    ((sortedObject ms).map Prod.fst).Perm (ms.map Prod.fst) := by
  have hkeys : (sortedMembers ms).map Prod.fst = ms.map Prod.fst := by
    rw [sortedMembers_eq_map, List.map_map]
    rfl
  rw [← hkeys]
  exact (sortBy_perm _ _).map Prod.fst

theorem regular_sorted {v : Json} (hv : Regular v) : Regular (sorted v) := by
  induction hv with
  | null => exact .null
  | bool b => exact .bool b
  | int n => exact .int n
  | str s => exact .str s
  | @arr vs _ ih =>
    rw [sorted_arr]
    exact .arr (List.forall_mem_map.mpr ih)
  | @obj ms hk _ ih =>
    rw [sorted_obj]
    refine .obj ((keys_sortedObject ms).nodup_iff.mpr hk) fun m' hm' => ?_
    rw [sortedObject, sortMembers, (sortBy_perm _ _).mem_iff, sortedMembers_eq_map] at hm'
    obtain ⟨m, hm, rfl⟩ := List.mem_map.mp hm'
    exact ih m hm

theorem all_sorted {P : LooseText → Prop} {Q : Int → Prop} {v : Json} (hv : All P Q v) :
    All P Q (sorted v) := by
  induction hv with
  | null => exact .null
  | bool b => exact .bool b
  | int h => exact .int h
  | real x => exact .real x
  | str h => exact .str h
  | @arr vs _ ih =>
    rw [sorted_arr]
    exact .arr (List.forall_mem_map.mpr ih)
  | @obj ms hk _ ih =>
    rw [sorted_obj]
    refine .obj (fun m' hm' => ?_) fun m' hm' => ?_
    all_goals
      rw [sortedObject, sortMembers, (sortBy_perm _ _).mem_iff, sortedMembers_eq_map] at hm'
      obtain ⟨m, hm, rfl⟩ := List.mem_map.mp hm'
    · exact hk m hm
    · exact ih m hm

/-! ## canonical text -/

/-- No text of the value has a lone surrogate. -/
abbrev Plain (v : Json) : Prop := All LooseText.IsPlain (fun _ => True) v

theorem Plain.keepsAll {v : Json} (h : Plain v) (l : Layout) : l.KeepsAll v :=
  h.imp (fun _ => l.keeps_of_isPlain) fun _ => id

theorem toList_canonical (v : Json) : (canonical v).toList = write .compact 0 (sorted v) := by
  rw [canonical, render, String.toList_ofList]

/-- **Canonical text is read as the sorted value.** -/
theorem parseChars_canonical {v : Json} (hv : Regular v) (ht : Plain v) :
    parseChars (canonical v).toList = .ok (sorted v) := by
  have hplain : Plain (sorted v) := all_sorted ht
  rw [toList_canonical]
  exact parseChars_write (by decide) (regular_sorted hv) (hplain.keepsAll _)

/-- Canonical text stands on one line and has none of the characters that end one. -/
theorem canonical_lineEnds {v : Json} (hv : Regular v) (ht : Plain v) :
    '\r' ∉ (canonical v).toList ∧ '\n' ∉ (canonical v).toList := by
  have hplain : Plain (sorted v) := all_sorted ht
  rw [toList_canonical]
  have huses := uses_write .compact (by decide) (regular_sorted hv) (hplain.keepsAll _) 0
  refine ⟨fun h => ?_, fun h => ?_⟩
  all_goals
    rcases huses _ h with h | ⟨-, h⟩ | ⟨h, -⟩
    · exact absurd h (by decide)
    · exact h rfl
    · exact absurd h (by decide)

theorem canonical_injective {v w : Json} (hv : Regular v) (hw : Regular w) (htv : Plain v)
    (htw : Plain w) (h : canonical v = canonical w) : sorted v = sorted w := by
  have hread := parseChars_canonical hv htv
  rw [h, parseChars_canonical hw htw] at hread
  exact (Except.ok.inj hread).symm

end Json
end OverloadTables
