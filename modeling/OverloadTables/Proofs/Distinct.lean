import Mathlib.Algebra.Ring.Nat
import Mathlib.Data.List.Induction
import Mathlib.Data.List.Nodup

/-!
# Members of a list in the order of first sight

`List.eraseDups` keeps the first of equal members.

* `eraseDups_concat_of_mem`, `eraseDups_concat`   one member more, seen before or new;
* `nodup_eraseDups`        no member stays twice;
* `prefix_eraseDups`, `eraseDups_perm`   more members, or the same in another order;
* `eraseDups_map`          the same members under names of their own;
* `idxOf_lt_iff_mem`, `pairwise_idxOf_eraseDups`   what is kept before a member is what was first
                           seen before it;
* `countP_mem_eq_sum`      members counted by the parts of a list without repetition;
* `of_find?_eq_some`, `find?_agree`   what is true of the first member with a property;
* `perm_of_filter_eq`, `flatMap_filter_perm`   the members of a list under each key;
* `map_eq_map_of_map_eq`, `prefix_of_map`   lists with the same images, as far as an image
                           tells its member.
-/

namespace OverloadTables

section
variable {α : Type} [BEq α] [LawfulBEq α]

theorem removeAll_singleton_of_mem {a : α} {l : List α} (h : a ∈ l) : [a].removeAll l = [] := by
  simp [List.removeAll, h]

theorem removeAll_singleton {a : α} {l : List α} (h : a ∉ l) : [a].removeAll l = [a] := by
  simp [List.removeAll, h]

theorem eraseDups_concat_of_mem {a : α} {l : List α} (h : a ∈ l) :
    (l ++ [a]).eraseDups = l.eraseDups := by
  rw [List.eraseDups_append, removeAll_singleton_of_mem h, List.eraseDups_nil, List.append_nil]

theorem eraseDups_concat {a : α} {l : List α} (h : a ∉ l) :
    (l ++ [a]).eraseDups = l.eraseDups ++ [a] := by
  rw [List.eraseDups_append, removeAll_singleton h]
  rfl

theorem nodup_eraseDups (l : List α) : l.eraseDups.Nodup := by
  induction l using List.reverseRecOn with
  | nil => exact List.nodup_nil
  | append_singleton l a ih =>
    by_cases h : a ∈ l
    · rw [eraseDups_concat_of_mem h]
      exact ih
    · rw [eraseDups_concat h, List.nodup_append]
      refine ⟨ih, List.nodup_singleton a, fun b hb c hc e => ?_⟩
      rw [List.mem_singleton] at hc
      exact h (List.mem_eraseDups.mp (hc ▸ e ▸ hb))

/-- Members that come later are kept after those kept before. -/
theorem prefix_eraseDups {l m : List α} (h : l <+: m) : l.eraseDups <+: m.eraseDups := by
  obtain ⟨more, rfl⟩ := h
  rw [List.eraseDups_append]
  exact List.prefix_append _ _

theorem eraseDups_map {β : Type} [BEq β] [LawfulBEq β] {f : α → β} (hf : Function.Injective f)
    (l : List α) : (l.map f).eraseDups = l.eraseDups.map f := by
  induction l using List.reverseRecOn with
  | nil => rfl
  | append_singleton l a ih =>
    rw [List.map_append, List.map_singleton]
    by_cases h : a ∈ l
    · rw [eraseDups_concat_of_mem (List.mem_map_of_mem h), eraseDups_concat_of_mem h, ih]
    · have hf' : f a ∉ l.map f := fun h' => h ((List.mem_map_of_injective hf).mp h')
      rw [eraseDups_concat hf', eraseDups_concat h, ih, List.map_append, List.map_singleton]

/-- What comes later does not change which of two members was first seen before the other. -/
theorem idxOf_append_lt {a : α} {l : List α} (m : List α) (ha : a ∈ l) (b : α) :
    (l ++ m).idxOf b < (l ++ m).idxOf a ↔ l.idxOf b < l.idxOf a := by
  rw [List.idxOf_append_of_mem ha]
  by_cases hb : b ∈ l
  · rw [List.idxOf_append_of_mem hb]
  · rw [List.idxOf_append_of_notMem hb]
    have := List.idxOf_lt_length_iff.mpr ha
    have := List.idxOf_eq_length_iff.mpr hb
    omega

/-- What stands before a kept member is what was first seen before it. -/
theorem idxOf_lt_iff_mem {l before after : List α} {a : α}
    (h : l.eraseDups = before ++ a :: after) (b : α) : l.idxOf b < l.idxOf a ↔ b ∈ before := by
  induction l using List.reverseRecOn generalizing after with
  | nil => simp at h
  | append_singleton l c ih =>
    by_cases hc : c ∈ l
    · rw [eraseDups_concat_of_mem hc] at h
      have ha : a ∈ l := List.mem_eraseDups.mp (by simp [h])
      rw [idxOf_append_lt [c] ha, ih h]
    · rw [eraseDups_concat hc] at h
      rcases List.eq_nil_or_concat after with rfl | ⟨after', d, rfl⟩
      · -- the new member is `a` itself: all of `l` was seen before it
        obtain ⟨hbefore, hca⟩ := List.append_inj' h rfl
        obtain rfl : c = a := by simpa using hca
        rw [List.idxOf_append_of_notMem hc, ← hbefore, List.mem_eraseDups]
        by_cases hb : b ∈ l
        · simp [List.idxOf_append_of_mem hb, hb, List.idxOf_lt_length_iff.mpr hb]
        · simp [List.idxOf_append_of_notMem hb, hb]
      · have h' : l.eraseDups ++ [c] = (before ++ a :: after') ++ [d] := by simpa using h
        have hl := (List.append_inj' h' rfl).1
        have ha : a ∈ l := List.mem_eraseDups.mp (by simp [hl])
        rw [idxOf_append_lt [c] ha, ih hl]

theorem pairwise_idxOf_eraseDups (l : List α) :
    l.eraseDups.Pairwise fun a b => l.idxOf a < l.idxOf b := by
  rw [List.pairwise_iff_getElem]
  intro i j hi hj hij
  have hsplit : l.eraseDups
      = l.eraseDups.take j ++ l.eraseDups[j] :: l.eraseDups.drop (j + 1) := by
    rw [← List.drop_eq_getElem_cons, List.take_append_drop]
  apply (idxOf_lt_iff_mem hsplit _).mpr
  exact List.mem_take_iff_getElem.mpr ⟨i, by omega, rfl⟩

end

section
variable {α β : Type} [DecidableEq α]

theorem countP_mem_cons (f : β → α) (l : List β) {k : α} {keys : List α} (hk : k ∉ keys) :
    l.countP (fun b => f b ∈ k :: keys)
      = l.countP (fun b => f b = k) + l.countP (fun b => f b ∈ keys) := by
  induction l with
  | nil => rfl
  | cons b l ih =>
    rw [List.countP_cons, List.countP_cons, List.countP_cons, ih]
    by_cases hb : f b = k
    · have hn : f b ∉ keys := hb ▸ hk
      simp only [hb, hb ▸ hn, List.mem_cons, true_or, decide_true, decide_false, ↓reduceIte]
      simp
      omega
    · simp only [List.mem_cons, hb, false_or, decide_false]
      simp
      omega

/-- The members that fall under some key of a list without repetition, counted key by key. -/
theorem countP_mem_eq_sum (f : β → α) (l : List β) {keys : List α} (h : keys.Nodup) :
    l.countP (fun b => f b ∈ keys) = (keys.map fun k => (l.filter fun b => f b = k).length).sum := by
  induction keys with
  | nil => simp
  | cons k keys ih =>
    obtain ⟨hk, hkeys⟩ := List.nodup_cons.mp h
    rw [List.map_cons, List.sum_cons, ← ih hkeys, ← List.countP_eq_length_filter,
      countP_mem_cons f l hk]

end

/-- Lists that have the same members under each key have the same members, as often. -/
theorem perm_of_filter_eq {α κ : Type} [DecidableEq α] [DecidableEq κ] (key : α → κ) {l m : List α}
    (h : ∀ k, l.filter (key · = k) = m.filter (key · = k)) : l.Perm m := by
  refine List.perm_iff_count.mpr fun a => ?_
  have hcount (n : List α) : (n.filter (key · = key a)).count a = n.count a :=
    List.count_filter (decide_eq_true rfl)
  rw [← hcount l, h, hcount m]

/-- The members under each key of a list without repetition are all, if every key is there. -/
theorem flatMap_filter_perm {α κ : Type} [DecidableEq κ] (key : α → κ) {keys : List κ}
    (hkeys : keys.Nodup) {l : List α} (hl : ∀ a ∈ l, key a ∈ keys) :
    (keys.flatMap fun k => l.filter (key · = k)).Perm l := by
  induction keys generalizing l with
  | nil =>
    cases l with
    | nil => exact .nil
    | cons a l => exact absurd (hl a List.mem_cons_self) List.not_mem_nil
  | cons k keys ih =>
    obtain ⟨hk, hkeys⟩ := List.nodup_cons.mp hkeys
    have hrest : ∀ a ∈ l.filter (key · ≠ k), key a ∈ keys := by
      intro a ha
      obtain ⟨ha, hne⟩ := List.mem_filter.mp ha
      exact (List.mem_cons.mp (hl a ha)).resolve_left (of_decide_eq_true hne)
    -- the members under the other keys are those of the list without the members under `k`
    have hothers : (keys.flatMap fun k' => l.filter (key · = k'))
        = keys.flatMap fun k' => (l.filter (key · ≠ k)).filter (key · = k') := by
      refine List.flatMap_congr fun k' hk' => ?_
      rw [List.filter_filter]
      refine List.filter_congr fun a _ => ?_
      have hne : k' ≠ k := fun e => hk (e ▸ hk')
      by_cases e : key a = k'
      · simp [e, hne]
      · simp [e]
    rw [List.flatMap_cons, hothers]
    refine ((ih hkeys hrest).append_left _).trans ?_
    have hparts := List.filter_append_perm (fun a => decide (key a = k)) l
    simpa only [decide_not] using hparts

theorem of_find?_eq_some {α : Type} {p : α → Prop} [DecidablePred p] {l : List α} {a : α}
    (h : l.find? (fun b => decide (p b)) = some a) : a ∈ l ∧ p a := by
  have hp := List.find?_some h
  exact ⟨List.mem_of_find?_eq_some h, of_decide_eq_true hp⟩

/-- Where all members with a property agree in something, the first one tells it of any. -/
theorem find?_agree {α β : Type} {p : α → Prop} [DecidablePred p] (f : α → β) {l : List α} {a : α}
    (ha : a ∈ l) (hp : p a) (hagree : ∀ b ∈ l, p b → f b = f a) :
    ∃ b, l.find? (fun b => decide (p b)) = some b ∧ f b = f a := by
  cases hf : l.find? (fun b => decide (p b)) with
  | none => exact absurd (decide_eq_true hp) (List.find?_eq_none.mp hf a ha)
  | some b =>
    obtain ⟨hb, hpb⟩ := of_find?_eq_some hf
    exact ⟨b, rfl, hagree b hb hpb⟩

theorem map_eq_map_of_map_eq {α β γ δ : Type} {f : α → γ} {f' : β → γ} {g : α → δ} {g' : β → δ}
    {l : List α} {m : List β} (hfg : ∀ a ∈ l, ∀ b ∈ m, f a = f' b → g a = g' b)
    (h : l.map f = m.map f') : l.map g = m.map g' := by
  induction l generalizing m with
  | nil =>
    rw [List.map_nil, eq_comm, List.map_eq_nil_iff] at h
    rw [h]
    rfl
  | cons a l ih =>
    cases m with
    | nil => exact nomatch h
    | cons b m =>
      obtain ⟨hab, hlm⟩ := List.cons.inj h
      have hhead : g a = g' b := hfg a List.mem_cons_self b List.mem_cons_self hab
      have htail : l.map g = m.map g' :=
        ih (fun a ha b hb => hfg a (List.mem_cons_of_mem _ ha) b (List.mem_cons_of_mem _ hb)) hlm
      rw [List.map_cons, List.map_cons, hhead, htail]

theorem prefix_of_map {α γ : Type} {f f' : α → γ} {l m : List α}
    (hff : ∀ a ∈ l, ∀ b ∈ m, f a = f' b → a = b) (h : l.map f <+: m.map f') : l <+: m := by
  obtain ⟨more, h⟩ := h
  obtain ⟨front, rest, rfl, hfront, -⟩ := List.append_eq_map_iff.mp h
  have hid : l.map id = front.map id :=
    map_eq_map_of_map_eq (fun a ha b hb => hff a ha b (List.mem_append_left _ hb)) hfront.symm
  rw [List.map_id, List.map_id] at hid
  rw [hid]
  exact List.prefix_append _ _

end OverloadTables
