import OverloadTables.Grouping
import OverloadTables.Proofs.Distinct

/-!
# Groups hold what falls under their names

* `Groups.add_map`     one member more, in groups given by their names;
* `group_eq`           the names in the order of first sight, each with its members in order;
* `group_perm`         the members of all groups are those of the list.
-/

namespace OverloadTables

variable {α : Type}

/-- A member goes to the end of the group of its name, which is the last one if the name is new. -/
theorem Groups.add_map (name : String) (a : α) (members : String → List α) (names : List String)
    (h : names.Nodup) :
    Groups.add name a (names.map fun n => (n, members n))
      = if name ∈ names then
          names.map fun n => (n, if n = name then members n ++ [a] else members n)
        else names.map (fun n => (n, members n)) ++ [(name, [a])] := by
  induction names with
  | nil => rfl
  | cons n names ih =>
    obtain ⟨hn, hnames⟩ := List.nodup_cons.mp h
    rw [List.map_cons, Groups.add, ih hnames]
    by_cases e : n = name
    · subst e
      have hrest : names.map (fun m => (m, if m = n then members m ++ [a] else members m))
          = names.map fun m => (m, members m) := by
        apply List.map_congr_left
        intro m hm
        have hne : m ≠ n := fun e => hn (e ▸ hm)
        rw [if_neg hne]
      simp [hrest]
    · rw [if_neg e]
      by_cases hm : name ∈ names
      · simp [hm, e]
      · simp [hm, Ne.symm e]

/-- **Grouping keeps the order of first sight among names and the order of members.** -/
theorem group_eq (name : α → String) (l : List α) :
    group name l
      = (l.map name).eraseDups.map fun n => (n, l.filter fun a => name a = n) := by
  induction l using List.reverseRecOn with
  | nil => rfl
  | append_singleton l a ih =>
    have hstep : group name (l ++ [a]) = (group name l).add (name a) a := by
      simp [group, List.foldl_append]
    rw [hstep, ih, Groups.add_map (name a) a _ _ (nodup_eraseDups _), List.map_append,
      List.map_singleton]
    by_cases hm : name a ∈ l.map name
    · rw [if_pos (List.mem_eraseDups.mpr hm), eraseDups_concat_of_mem hm]
      apply List.map_congr_left
      intro n _
      by_cases e : n = name a
      · simp [e]
      · simp [e, Ne.symm e]
    · rw [if_neg (fun h => hm (List.mem_eraseDups.mp h)), eraseDups_concat hm, List.map_append]
      have hnone : l.filter (fun b => name b = name a) = [] := by
        rw [List.filter_eq_nil_iff]
        intro b hb e
        exact hm (List.mem_map.mpr ⟨b, hb, by simpa using e⟩)
      congr 1
      · apply List.map_congr_left
        intro n hn
        have e : name a ≠ n := fun e => hm (List.mem_eraseDups.mp (e ▸ hn))
        simp [e]
      · simp [hnone]

theorem Groups.add_perm (name : String) (a : α) (gs : Groups α) :
    ((gs.add name a).flatMap (·.2)).Perm (gs.flatMap (·.2) ++ [a]) := by
  induction gs with
  | nil => exact List.Perm.refl [a]
  | cons g gs ih =>
    obtain ⟨n, as⟩ := g
    rw [Groups.add]
    by_cases e : n = name
    · rw [if_pos e, List.flatMap_cons, List.flatMap_cons, List.append_assoc, List.append_assoc]
      exact List.perm_append_comm.append_left as
    · rw [if_neg e, List.flatMap_cons, List.flatMap_cons, List.append_assoc]
      exact ih.append_left as

theorem group_perm (name : α → String) (l : List α) :
    ((group name l).flatMap (·.2)).Perm l := by
  induction l using List.reverseRecOn with
  | nil => exact List.Perm.refl []
  | append_singleton l a ih =>
    have hstep : group name (l ++ [a]) = (group name l).add (name a) a := by
      simp [group, List.foldl_append]
    rw [hstep]
    exact (Groups.add_perm _ _ _).trans (ih.append_right [a])

end OverloadTables
