import OverloadTables.Proofs.Grouping

/-!
# Grouping is stable

* `Groups.Stable name l gs`   the groups `gs` are those of the list `l`, told by the list alone;
* `Groups.Stable.unique`      no others are;
* `Groups.Apart name gs`      groups that each have a name of their own and members of that name;
* `Groups.Apart.regroup`      the members of such groups, put in a row, make the groups again;
* `group_stable`              grouping gives the groups of the list, and given their members in a
                              row it gives them again.
-/

namespace OverloadTables

namespace Groups

variable {α : Type} {name : α → String} {l : List α} {gs : Groups α} {n : String}

/-- Groups in which nothing is lost, merged or moved. -/
structure Stable (name : α → String) (l : List α) (gs : Groups α) : Prop where
  /-- The names are those of the members. -/
  named : ∀ n, n ∈ gs.map (·.1) ↔ ∃ a ∈ l, name a = n
  /-- A name that was first seen before another one stands before it, and none stands twice. -/
  firstSeen : (gs.map (·.1)).Pairwise fun m n => (l.map name).idxOf m < (l.map name).idxOf n
  /-- Equal members stay apart: each is there as often as in the list. -/
  members : ∀ g ∈ gs, g.2 = l.filter fun a => name a = g.1
  nonempty : ∀ g ∈ gs, g.2 ≠ []
  whole : (gs.flatMap (·.2)).Perm l

/-- Groups with members, each under its own name and apart from the other groups. -/
structure Apart (name : α → String) (gs : Groups α) : Prop where
  nodup : (gs.map (·.1)).Nodup
  named : ∀ g ∈ gs, ∀ a ∈ g.2, name a = g.1
  nonempty : ∀ g ∈ gs, g.2 ≠ []

/-! ## the groups of a list -/

namespace Stable

theorem nodup (h : Stable name l gs) : (gs.map (·.1)).Nodup := by
  apply h.firstSeen.imp
  intro m n hlt e
  rw [e] at hlt
  omega

theorem apart (h : Stable name l gs) : Apart name gs where
  nodup := h.nodup
  named g hg a ha := by
    rw [h.members g hg] at ha
    exact of_decide_eq_true (List.mem_filter.mp ha).2
  nonempty := h.nonempty

/-- The order of first sight leaves no choice. -/
theorem unique {gs' : Groups α} (h : Stable name l gs) (h' : Stable name l gs') : gs = gs' := by
  have hsame : (gs.map (·.1)).Perm (gs'.map (·.1)) := by
    apply (List.perm_ext_iff_of_nodup h.nodup h'.nodup).mpr
    intro n
    rw [h.named, h'.named]
  have hnames : gs.map (·.1) = gs'.map (·.1) := by
    apply hsame.eq_of_pairwise _ h.firstSeen h'.firstSeen
    intro m n _ _ hmn hnm
    omega
  have hgroups {gs : Groups α} (h : Stable name l gs) :
      gs = (gs.map (·.1)).map fun n => (n, l.filter fun a => name a = n) := by
    rw [List.map_map]
    conv_lhs => rw [← List.map_id gs]
    apply List.map_congr_left
    intro g hg
    exact Prod.ext rfl (h.members g hg)
  rw [hgroups h, hgroups h', hnames]

end Stable

/-! ## members in a row -/

theorem add_new (h : n ∉ gs.map (·.1)) (a : α) : Groups.add n a gs = gs ++ [(n, [a])] := by
  induction gs with
  | nil => rfl
  | cons g gs ih =>
    obtain ⟨m, as⟩ := g
    rw [List.map_cons, List.mem_cons, not_or] at h
    rw [Groups.add, if_neg (Ne.symm h.1), ih h.2]
    rfl

theorem add_last (h : n ∉ gs.map (·.1)) (bs : List α) (a : α) :
    Groups.add n a (gs ++ [(n, bs)]) = gs ++ [(n, bs ++ [a])] := by
  induction gs with
  | nil => exact if_pos rfl
  | cons g gs ih =>
    obtain ⟨m, as⟩ := g
    rw [List.map_cons, List.mem_cons, not_or] at h
    rw [List.cons_append, Groups.add, if_neg (Ne.symm h.1), ih h.2]
    rfl

/-- Members of one name go to the last group, if it is the group of that name. -/
theorem foldl_add_last (h : n ∉ gs.map (·.1)) (bs as : List α) (has : ∀ a ∈ as, name a = n) :
    as.foldl (fun gs a => Groups.add (name a) a gs) (gs ++ [(n, bs)]) = gs ++ [(n, bs ++ as)] := by
  induction as generalizing bs with
  | nil => rw [List.foldl_nil, List.append_nil]
  | cons a as ih =>
    obtain ⟨ha, has⟩ := List.forall_mem_cons.mp has
    rw [List.foldl_cons, ha, add_last h, ih _ has, List.append_assoc]
    rfl

/-- **The members of groups that are apart, put in a row, make the groups again.** -/
theorem Apart.regroup (h : Apart name gs) : group name (gs.flatMap (·.2)) = gs := by
  induction gs using List.reverseRecOn with
  | nil => rfl
  | append_singleton gs g ih =>
    obtain ⟨n, as⟩ := g
    obtain ⟨hnodup, hnamed, hnonempty⟩ := h
    rw [List.map_append, List.map_singleton, List.nodup_append] at hnodup
    obtain ⟨hnames, -, hlast⟩ := hnodup
    have hn : n ∉ gs.map (·.1) := by
      intro hm
      exact hlast n hm n (List.mem_singleton_self n) rfl
    have hfront : Apart name gs :=
      ⟨hnames, fun g hg => hnamed g (List.mem_append_left _ hg),
        fun g hg => hnonempty g (List.mem_append_left _ hg)⟩
    have hend : (n, as) ∈ gs ++ [(n, as)] := List.mem_append_right _ (List.mem_singleton_self _)
    have has : ∀ a ∈ as, name a = n := hnamed _ hend
    have hrow : group name ((gs ++ [(n, as)]).flatMap (·.2))
        = as.foldl (fun gs a => Groups.add (name a) a gs) (group name (gs.flatMap (·.2))) := by
      rw [List.flatMap_append, List.flatMap_singleton, group, List.foldl_append]
      rfl
    rw [hrow, ih hfront]
    -- the first member opens the group of the new name, the others follow it
    cases as with
    | nil => exact absurd rfl (hnonempty _ hend)
    | cons a as =>
      obtain ⟨ha, has⟩ := List.forall_mem_cons.mp has
      rw [List.foldl_cons, ha, add_new hn, foldl_add_last hn _ _ has]
      rfl

end Groups

variable {α : Type}

theorem group_names (name : α → String) (l : List α) :
    (group name l).map (·.1) = (l.map name).eraseDups := by
  rw [group_eq, List.map_map]
  exact List.map_id _

theorem group_members {name : α → String} {l : List α} {g : String × List α}
    (hg : g ∈ group name l) : g.2 = l.filter (fun a => name a = g.1) ∧ ∃ a ∈ l, name a = g.1 := by
  rw [group_eq] at hg
  obtain ⟨n, hn, rfl⟩ := List.mem_map.mp hg
  exact ⟨rfl, List.mem_map.mp (List.mem_eraseDups.mp hn)⟩

theorem stable_group (name : α → String) (l : List α) : Groups.Stable name l (group name l) where
  named n := by rw [group_names, List.mem_eraseDups, List.mem_map]
  firstSeen := by
    rw [group_names]
    exact pairwise_idxOf_eraseDups _
  members g hg := (group_members hg).1
  nonempty g hg := by
    obtain ⟨hmembers, a, ha, hname⟩ := group_members hg
    intro hnil
    rw [hmembers, List.filter_eq_nil_iff] at hnil
    exact hnil a ha (decide_eq_true hname)
  whole := group_perm name l

/-- **Grouping is stable**: it gives the groups of the list and no others, and the same groups again
from their members in a row. -/
theorem group_stable (name : α → String) (l : List α) :
    (∀ gs, Groups.Stable name l gs ↔ gs = group name l) ∧
      group name ((group name l).flatMap (·.2)) = group name l := by
  have hgroup := stable_group name l
  refine ⟨fun gs => ?_, hgroup.apart.regroup⟩
  constructor
  · intro h
    exact h.unique hgroup
  · rintro rfl
    exact hgroup

/-- Equal members stay apart, and a name that comes again does not move. -/
example : group (·.1) [("cos", 1), ("sin", 2), ("cos", 1), ("abs", 3)]
    = [("cos", [("cos", 1), ("cos", 1)]), ("sin", [("sin", 2)]), ("abs", [("abs", 3)])] := by
  decide

end OverloadTables
