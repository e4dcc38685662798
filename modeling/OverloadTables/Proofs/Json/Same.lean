import OverloadTables.Diagnostic
import OverloadTables.Proofs.Distinct
import OverloadTables.Proofs.Json.Canonical

/-!
# Values that are the same but for the order of members

* `Same v w`               one value, the members of an object in any order at every depth;
* `same_sorted`            sorting keeps a value the same;
* `member_told`, `array_told`   what objects and arrays that are equal when sorted have in common.
-/

namespace OverloadTables

namespace Members

/-- A value that is found under a key is the value of a member. -/
theorem mem_of_get? {key : LooseText} {v : Json} {ms : Members} (h : ms.get? key = some v) :
    (key, v) ∈ ms := by
  induction ms with
  | nil => exact nomatch h
  | cons m ms ih =>
    obtain ⟨k, w⟩ := m
    rw [get?_cons] at h
    by_cases hk : k = key
    · rw [if_pos hk] at h
      obtain rfl := Option.some.inj h
      rw [hk]
      exact List.mem_cons_self
    · rw [if_neg hk] at h
      exact List.mem_cons_of_mem _ (ih h)

theorem get?_append (key : LooseText) (a b : Members) :
    get? key (a ++ b) = (a.get? key).or (b.get? key) := by
  induction a with
  | nil => rfl
  | cons m a ih =>
    rw [List.cons_append, get?_cons, get?_cons, ih]
    split
    · rfl
    · rfl

theorem get?_singleton (key : LooseText) (v : Json) : get? key [(key, v)] = some v := by
  rw [get?_cons, if_pos rfl]

theorem get?_eq_none {key : LooseText} {ms : Members} (h : key ∉ ms.map Prod.fst) :
    ms.get? key = none :=
  Option.eq_none_iff_forall_ne_some.mpr fun _ hv =>
    h (List.mem_map_of_mem (mem_of_get? hv))

/-- With keys that come once each, the value of a member is found under its key. -/
theorem get?_of_mem {key : LooseText} {v : Json} {ms : Members} (hkeys : (ms.map Prod.fst).Nodup)
    (h : (key, v) ∈ ms) : ms.get? key = some v := by
  induction ms with
  | nil => exact absurd h List.not_mem_nil
  | cons m ms ih =>
    obtain ⟨hm, hms⟩ := List.nodup_cons.mp hkeys
    rw [get?_cons]
    rcases List.mem_cons.mp h with rfl | h
    · rw [if_pos rfl]
    · have hne : m.1 ≠ key := fun e => hm (e ▸ List.mem_map_of_mem h)
      rw [if_neg hne, ih hms h]

/-- The order of members with different keys does not matter to a look-up. -/
theorem get?_perm {ms ns : Members} (hkeys : (ms.map Prod.fst).Nodup) (hperm : ns.Perm ms)
    (key : LooseText) : ns.get? key = ms.get? key := by
  have hkeys' : (ns.map Prod.fst).Nodup := (hperm.map Prod.fst).nodup_iff.mpr hkeys
  refine Option.ext fun v => ⟨fun h => ?_, fun h => ?_⟩
  · exact get?_of_mem hkeys (hperm.subset (mem_of_get? h))
  · exact get?_of_mem hkeys' (hperm.symm.subset (mem_of_get? h))

/-- A member in the midst of others does not matter to another key. -/
theorem get?_middle_of_ne {key k : LooseText} (hne : k ≠ key) (x : Json) (a b : Members) :
    get? key (a ++ (k, x) :: b) = get? key (a ++ b) := by
  rw [get?_append, get?_append, get?_cons, if_neg hne]

theorem get?_middle {key : LooseText} {a : Members} (ha : key ∉ a.map Prod.fst) (x : Json)
    (b : Members) : get? key (a ++ (key, x) :: b) = some x := by
  rw [get?_append, get?_eq_none ha, Option.none_or, get?_cons, if_pos rfl]

end Members

namespace Json

/-- The values are equal but for the order of members: arrays item by item, objects key by key. -/
inductive Same : Json → Json → Prop where
  | null : Same .null .null
  | bool (b : Bool) : Same (.bool b) (.bool b)
  | int (n : Int) : Same (.int n) (.int n)
  | real (x : Decimal) : Same (.real x) (.real x)
  | str (s : LooseText) : Same (.str s) (.str s)
  | arr {vs ws : List Json} (hlength : vs.length = ws.length)
      (h : ∀ (i : Nat) (v w : Json), vs[i]? = some v → ws[i]? = some w → Same v w) :
      Same (.arr vs) (.arr ws)
  | obj {ms ns : Members} (hkeys : ∀ key, (ms.get? key).isSome = (ns.get? key).isSome)
      (h : ∀ (key : LooseText) (v w : Json), ms.get? key = some v → ns.get? key = some w → Same v w) :
      Same (.obj ms) (.obj ns)

/-- **Sorting keeps a value the same.** -/
theorem same_sorted {v : Json} (hv : Regular v) : Same (sorted v) v := by
  induction hv with
  | null => exact .null
  | bool b => exact .bool b
  | int n => exact .int n
  | str s => exact .str s
  | @arr vs _ ih =>
    rw [sorted_arr]
    refine .arr (List.length_map sorted) fun i w v hw hv => ?_
    rw [List.getElem?_map, hv] at hw
    obtain rfl := Option.some.inj hw
    exact ih v (List.mem_of_getElem? hv)
  | @obj ms _ _ ih =>
    rw [sorted_obj]
    refine .obj (fun key => ?_) fun key w v hw hv => ?_
    · rw [get?_sortedObject, Option.isSome_map]
    · rw [get?_sortedObject, hv] at hw
      obtain rfl := Option.some.inj hw
      exact ih (key, v) (Members.mem_of_get? hv)

end Json

open Json (sorted get?_of_sorted_eq)

/-- Objects that are equal when sorted tell the values under a key, as far as these are sorted. -/
theorem member_told {ms ms' : Members} (h : sorted (.obj ms) = sorted (.obj ms')) (key : LooseText)
    {v v' : Json} (hv : ms.get? key = some v) (hv' : ms'.get? key = some v') :
    sorted v = sorted v' := by
  have hkey := get?_of_sorted_eq h key
  rw [hv, hv'] at hkey
  exact Option.some.inj hkey

/-- The members of an array are told as far as each of them is. -/
theorem array_told {α γ : Type} {write : α → Json} {f : α → γ}
    (hwrite : ∀ a b, sorted (write a) = sorted (write b) → f a = f b) {as as' : List α}
    (h : sorted (.arr (as.map write)) = sorted (.arr (as'.map write))) : as.map f = as'.map f := by
  rw [Json.sorted_arr, Json.sorted_arr, List.map_map, List.map_map] at h
  exact map_eq_map_of_map_eq (fun a _ b _ => hwrite a b) (Json.arr.inj h)

theorem string_told {s s' : String} (h : sorted (.str s) = sorted (.str s')) : s = s' :=
  LooseText.text_injective (Json.str.inj h)

theorem regular_textOrNull (s : Option String) : Json.Regular (Diagnostic.textOrNull s) := by
  cases s with
  | none => exact .null
  | some s => exact .str s

theorem plain_textOrNull (s : Option String) : Json.Plain (Diagnostic.textOrNull s) := by
  cases s with
  | none => exact .null
  | some s => exact .str rfl

/-- A text that may be missing is told by a value that is null where it is. -/
theorem textOrNull_told {s s' : Option String}
    (h : sorted (Diagnostic.textOrNull s) = sorted (Diagnostic.textOrNull s')) : s = s' := by
  cases s with
  | none =>
    cases s' with
    | none => rfl
    | some t' => exact nomatch h
  | some t =>
    cases s' with
    | none => exact nomatch h
    | some t' => exact congrArg some (LooseText.text.inj (Json.str.inj h))

end OverloadTables
