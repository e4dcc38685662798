import OverloadTables.Json.Encode
import OverloadTables.Proofs.Json.Canonical
import OverloadTables.Proofs.Text.Decimal

/-!
# Which values have bytes

* `WithinLimits v`         every integer of the value is within the limit;
* `Encodable v`            so it is, and no text has a lone surrogate;
* `canonicalBytes_eq_ok`   exactly the encodable values have canonical bytes, those of their
                           canonical text;
* `canonicalBytes_eq_error`    of the others, integers are told before surrogates.
-/

namespace OverloadTables

theorem LooseText.lone?_eq_none {t : LooseText} : t.lone? = none ↔ t.IsPlain := by
  cases t with
  | text s => exact iff_of_true rfl rfl
  | lone before u rest => exact iff_of_false nofun not_isPlain_lone

namespace Json

/-- Every integer of the value is within the limit. -/
abbrev WithinLimits (v : Json) : Prop := All (fun _ => True) (fun n => Text.withinLimit n = true) v

/-- No text of the value has a lone surrogate, and every integer is within the limit. -/
abbrev Encodable (v : Json) : Prop :=
  All LooseText.IsPlain (fun n => Text.withinLimit n = true) v

theorem encodable_iff {v : Json} : Encodable v ↔ WithinLimits v ∧ Plain v := by
  refine ⟨fun h => ⟨h.imp (fun _ _ => trivial) fun _ => id, h.imp (fun _ => id) fun _ _ => trivial⟩,
    fun h => (all_and.mpr h).imp (fun _ => And.right) fun _ => And.left⟩

/-! ## the tests -/

mutual

theorem digitsFit_iff (v : Json) : digitsFit v = true ↔ WithinLimits v := by
  cases v with
  | null => exact iff_of_true rfl .null
  | bool b => exact iff_of_true rfl (.bool b)
  | real x => exact iff_of_true rfl (.real x)
  | str t => exact iff_of_true rfl (.str trivial)
  | int n =>
    rw [digitsFit]
    exact (all_int (Q := fun n => Text.withinLimit n = true)).symm
  | arr vs =>
    rw [digitsFit, digitsFitItems_iff vs]
    exact all_arr.symm
  | obj ms =>
    rw [digitsFit, digitsFitMembers_iff ms]
    exact ⟨fun h => .obj (fun _ _ => trivial) h, fun h => (all_obj.mp h).2⟩

theorem digitsFitItems_iff (vs : List Json) :
    digitsFitItems vs = true ↔ ∀ v ∈ vs, WithinLimits v := by
  cases vs with
  | nil => exact iff_of_true rfl (List.forall_mem_nil _)
  | cons v vs =>
    rw [digitsFitItems, Bool.and_eq_true, digitsFit_iff v, digitsFitItems_iff vs,
      List.forall_mem_cons]

theorem digitsFitMembers_iff (ms : List (LooseText × Json)) :
    digitsFitMembers ms = true ↔ ∀ m ∈ ms, WithinLimits m.2 := by
  cases ms with
  | nil => exact iff_of_true rfl (List.forall_mem_nil _)
  | cons m ms =>
    obtain ⟨k, v⟩ := m
    rw [digitsFitMembers, Bool.and_eq_true, digitsFit_iff v, digitsFitMembers_iff ms,
      List.forall_mem_cons]

end

mutual

theorem lone?_eq_none (v : Json) : lone? v = none ↔ Plain v := by
  cases v with
  | null => exact iff_of_true rfl .null
  | bool b => exact iff_of_true rfl (.bool b)
  | real x => exact iff_of_true rfl (.real x)
  | int n => exact iff_of_true rfl (.int trivial)
  | str t =>
    rw [lone?, LooseText.lone?_eq_none]
    exact all_str.symm
  | arr vs =>
    rw [lone?, loneItems?_eq_none vs]
    exact all_arr.symm
  | obj ms =>
    rw [lone?, loneMembers?_eq_none ms]
    exact all_obj.symm

theorem loneItems?_eq_none (vs : List Json) : loneItems? vs = none ↔ ∀ v ∈ vs, Plain v := by
  cases vs with
  | nil => exact iff_of_true rfl (List.forall_mem_nil _)
  | cons v vs =>
    rw [loneItems?, Option.or_eq_none_iff, lone?_eq_none v, loneItems?_eq_none vs,
      List.forall_mem_cons]

theorem loneMembers?_eq_none (ms : List (LooseText × Json)) :
    loneMembers? ms = none ↔ (∀ m ∈ ms, m.1.IsPlain) ∧ ∀ m ∈ ms, Plain m.2 := by
  cases ms with
  | nil => exact iff_of_true rfl ⟨List.forall_mem_nil _, List.forall_mem_nil _⟩
  | cons m ms =>
    obtain ⟨k, v⟩ := m
    rw [loneMembers?, Option.or_eq_none_iff, Option.or_eq_none_iff, LooseText.lone?_eq_none,
      lone?_eq_none v, loneMembers?_eq_none ms, List.forall_mem_cons, List.forall_mem_cons]
    exact and_and_and_comm

end

/-! ## sorting -/

section
variable {P : LooseText → Prop} {Q : Int → Prop}

mutual

/-- Sorting loses no text and no integer. -/
theorem all_of_sorted (v : Json) (h : All P Q (sorted v)) : All P Q v := by
  cases v with
  | null | bool _ | real _ | int _ | str _ => exact h
  | arr vs =>
    rw [sorted, all_arr] at h
    exact .arr (all_of_sortedItems vs h)
  | obj ms =>
    rw [sorted, all_obj] at h
    have hmem {m : LooseText × Json} (hm : m ∈ sortedMembers ms) :
        m ∈ sortMembers (sortedMembers ms) := (sortBy_perm _ _).mem_iff.mpr hm
    obtain ⟨hk, hv⟩ := all_of_sortedMembers ms fun m hm => ⟨h.1 m (hmem hm), h.2 m (hmem hm)⟩
    exact .obj hk hv

theorem all_of_sortedItems (vs : List Json) (h : ∀ v ∈ sortedItems vs, All P Q v) :
    ∀ v ∈ vs, All P Q v := by
  cases vs with
  | nil => exact List.forall_mem_nil _
  | cons v vs =>
    rw [sortedItems, List.forall_mem_cons] at h
    exact List.forall_mem_cons.mpr ⟨all_of_sorted v h.1, all_of_sortedItems vs h.2⟩

theorem all_of_sortedMembers (ms : List (LooseText × Json))
    (h : ∀ m ∈ sortedMembers ms, P m.1 ∧ All P Q m.2) :
    (∀ m ∈ ms, P m.1) ∧ ∀ m ∈ ms, All P Q m.2 := by
  cases ms with
  | nil => exact ⟨List.forall_mem_nil _, List.forall_mem_nil _⟩
  | cons m ms =>
    obtain ⟨k, v⟩ := m
    rw [sortedMembers, List.forall_mem_cons] at h
    obtain ⟨⟨hk, hv⟩, hrest⟩ := h
    obtain ⟨hks, hvs⟩ := all_of_sortedMembers ms hrest
    exact ⟨List.forall_mem_cons.mpr ⟨hk, hks⟩,
      List.forall_mem_cons.mpr ⟨all_of_sorted v hv, hvs⟩⟩

end

theorem all_sorted_iff {v : Json} : All P Q (sorted v) ↔ All P Q v := ⟨all_of_sorted v, all_sorted⟩

end

/-! ## bytes -/

variable {v : Json}

/-- **Exactly the encodable values have canonical bytes**, those of their canonical text. -/
theorem canonicalBytes_eq_ok {bytes : ByteArray} :
    canonicalBytes v = .ok bytes ↔ Encodable v ∧ bytes = (canonical v).toUTF8 := by
  have hplain : lone? (sorted v) = none ↔ Plain v := (lone?_eq_none _).trans all_sorted_iff
  rw [canonicalBytes, encodable_iff, ← digitsFit_iff, ← hplain, and_assoc]
  cases hdigits : digitsFit v with
  | false => exact iff_of_false nofun (fun h => nomatch h.1)
  | true =>
    rw [if_pos rfl, and_iff_right rfl]
    cases lone? (sorted v) with
    | none => exact ⟨fun h => ⟨rfl, (Except.ok.inj h).symm⟩, fun h => congrArg _ h.2.symm⟩
    | some u => exact iff_of_false nofun fun h => nomatch h.1

/-- **What is told of a value without bytes**: integers first, and surrogates where these fit. -/
theorem canonicalBytes_eq_error :
    (¬ WithinLimits v → canonicalBytes v = .error .tooManyDigits) ∧
      (WithinLimits v → ¬ Plain v → ∃ first place count,
        canonicalBytes v = .error (.surrogates first place count)) := by
  rw [← digitsFit_iff, canonicalBytes]
  refine ⟨fun h => if_neg h, fun h hsurrogates => ?_⟩
  rw [if_pos h]
  cases hlone : lone? (sorted v) with
  | none => exact absurd (all_sorted_iff.mp ((lone?_eq_none _).mp hlone)) hsurrogates
  | some u => exact ⟨_, _, _, rfl⟩

end Json
end OverloadTables
