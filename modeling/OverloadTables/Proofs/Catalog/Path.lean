import OverloadTables.Json.Basic
import OverloadTables.Place
import OverloadTables.Proofs.Except
import OverloadTables.Proofs.Script.Condition
import Mathlib.Data.List.SplitBy

/-!
# Paths in a document

A path such as `builtins[3].signature[1]` is read as the steps it spells, and the steps are followed
from the root of the document.

* `PathStep`, `stepsOf?`       names of members and numbers of items, and those that a path spells;
* `Json.follow?`           the value that steps lead to;
* `Json.Leads v path x`    the steps lead to the value `x`, or, where `x` is none, the last of them
                           names a member that its object lacks;
* `Place.follow`           the place that steps lead to from another place;
* `stepsOf?_follow`        the path of that place spells the steps.
-/

namespace OverloadTables

/-- A step into a document. -/
inductive PathStep where
  | member (name : String)
  | item (i : Nat)
  deriving DecidableEq, Repr

namespace PathStep

/-- A step as paths have it. -/
def text : PathStep → String
  | .member name => "." ++ name
  | .item i => "[" ++ toString (i : Int) ++ "]"

/-- A step begins with this character. -/
def opens (c : Char) : Bool := c = '.' || c = '['

/-- The step with the given characters. -/
def ofChars? : List Char → Option PathStep
  | '.' :: c :: cs => some (.member (String.ofList (c :: cs)))
  | '[' :: cs =>
    match Script.number? cs with
    | some (i, [']']) => some (.item i)
    | _ => none
  | _ => none

/-- The text of the step tells it: the name of a member is not empty, and no step begins in it. -/
def plain : PathStep → Bool
  | .member name => name ≠ "" && name.toList.all fun c => !opens c
  | .item _ => true

theorem plain_member {name : String} :
    plain (.member name) = true ↔ name ≠ "" ∧ ∀ c ∈ name.toList, opens c = false := by
  rw [plain, Bool.and_eq_true, decide_eq_true_eq, List.all_eq_true]
  simp only [Bool.not_eq_true']

end PathStep

/-- The steps of a path.  The first one names a member of the root, and has no point. -/
def stepsOf? (path : String) : Option (List PathStep) :=
  (('.' :: path.toList).splitBy fun _ c => !PathStep.opens c).mapM PathStep.ofChars?

/-! ## steps in a document -/

namespace Json

def follow? : List PathStep → Json → Option Json
  | [], v => some v
  | .member name :: path, .obj ms => (Members.get? name ms).bind (follow? path)
  | .item i :: path, .arr vs => vs[i]?.bind (follow? path)
  | _ :: _, _ => none

/-- Where steps end inside a document, be it at the place of a member that is not there. -/
inductive Leads (v : Json) : List PathStep → Option Json → Prop
  | here {path : List PathStep} {x : Json} (h : follow? path v = some x) : Leads v path (some x)
  | absent {path : List PathStep} {ms : Members} {name : String}
      (h : follow? path v = some (.obj ms)) (hname : ms.get? name = none) :
      Leads v (path ++ [.member name]) none

theorem follow?_append (p q : List PathStep) (v : Json) :
    follow? (p ++ q) v = (follow? p v).bind (follow? q) := by
  induction p generalizing v with
  | nil => rfl
  | cons s p ih =>
    cases s with
    | member name =>
      cases v with
      | obj ms =>
        rw [List.cons_append, follow?, follow?, Option.bind_assoc]
        exact Option.bind_congr fun w _ => ih w
      | _ => rfl
    | item i =>
      cases v with
      | arr vs =>
        rw [List.cons_append, follow?, follow?, Option.bind_assoc]
        exact Option.bind_congr fun w _ => ih w
      | _ => rfl

theorem follow?_member_eq_some {v x : Json} {path : List PathStep} {name : String} :
    v.follow? (path ++ [.member name]) = some x ↔
      ∃ ms : Members, v.follow? path = some (.obj ms) ∧ ms.get? name = some x := by
  rw [follow?_append, Option.bind_eq_some_iff]
  constructor
  · rintro ⟨w, hw, hx⟩
    cases w with
    | obj ms =>
      obtain ⟨y, hy, hyx⟩ := Option.bind_eq_some_iff.mp hx
      obtain rfl := Option.some.inj hyx
      exact ⟨ms, hw, hy⟩
    | _ => exact nomatch hx
  · rintro ⟨ms, hms, hx⟩
    exact ⟨.obj ms, hms, by rw [follow?, hx]; rfl⟩

/-- Where steps lead is determined by them. -/
theorem Leads.eq_follow? {v : Json} {path : List PathStep} {x : Option Json} (h : Leads v path x) :
    x = v.follow? path := by
  cases h with
  | here h => exact h.symm
  | absent h hname =>
    refine (Option.eq_none_iff_forall_ne_some.mpr fun y hy => ?_).symm
    obtain ⟨ms', hms', hget⟩ := follow?_member_eq_some.mp hy
    obtain rfl := Json.obj.inj (Option.some.inj (h.symm.trans hms'))
    rw [hname] at hget
    cases hget

/-- Steps on from a value that is there. -/
theorem Leads.below {v w : Json} {p q : List PathStep} {x : Option Json} (hp : follow? p v = some w)
    (hq : Leads w q x) : Leads v (p ++ q) x := by
  cases hq with
  | here h =>
    refine .here ?_
    rw [follow?_append, hp]
    exact h
  | absent h hname =>
    rw [← List.append_assoc]
    refine .absent ?_ hname
    rw [follow?_append, hp]
    exact h

theorem leads_member (ms : Members) (name : String) :
    Leads (.obj ms) [.member name] (ms.get? name) := by
  cases h : ms.get? name with
  | none =>
    show Leads (.obj ms) ([] ++ [.member name]) none
    exact .absent rfl h
  | some x =>
    refine .here ?_
    rw [follow?, h]
    rfl

end Json

/-! ## steps from a place -/

namespace PathStep

theorem text_member (name : String) : (text (.member name)).toList = '.' :: name.toList := by
  rw [text, String.toList_append]
  rfl

theorem text_item (i : Nat) :
    (text (.item i)).toList = '[' :: ((toString i).toList ++ [']']) := by
  rw [text, String.toList_append, String.toList_append]
  rfl

theorem ofChars?_text {s : PathStep} (h : s.plain = true) : ofChars? s.text.toList = some s := by
  cases s with
  | member name =>
    obtain ⟨hne, -⟩ := plain_member.mp h
    rw [text_member]
    cases hname : name.toList with
    | nil => exact absurd (String.toList_eq_nil_iff.mp hname) hne
    | cons c cs =>
      rw [ofChars?, ← hname, String.ofList_toList]
  | item i =>
    rw [text_item, ofChars?, Script.number?_toString i (Script.noDigit_cons rfl [])]
    rfl

/-- Only its first character begins a step. -/
theorem text_shape {s : PathStep} (h : s.plain = true) :
    ∃ c cs, s.text.toList = c :: cs ∧ opens c = true ∧ ∀ d ∈ cs, opens d = false := by
  cases s with
  | member name => exact ⟨'.', name.toList, text_member name, rfl, (plain_member.mp h).2⟩
  | item i =>
    refine ⟨'[', _, text_item i, rfl, fun d hd => ?_⟩
    rcases List.mem_append.mp hd with hd | hd
    · have hdigit : d.isDigit = true := Text.isDigit_of_mem_nat hd
      rw [opens, Bool.or_eq_false_iff, decide_eq_false_iff_not, decide_eq_false_iff_not]
      constructor
      · rintro rfl
        exact nomatch hdigit
      · rintro rfl
        exact nomatch hdigit
    · obtain rfl := List.mem_singleton.mp hd
      rfl

/-- The texts of steps, one after the other, are taken apart again. -/
theorem splitBy_texts {path : List PathStep} (h : ∀ s ∈ path, s.plain = true) :
    (path.flatMap fun s => s.text.toList).splitBy (fun _ c => !opens c)
      = path.map fun s => s.text.toList := by
  rw [List.flatMap_def]
  refine List.splitBy_flatten ?_ ?_ ?_
  · intro hnil
    obtain ⟨s, hs, htext⟩ := List.mem_map.mp hnil
    obtain ⟨c, cs, hshape, -⟩ := text_shape (h s hs)
    rw [hshape] at htext
    exact nomatch htext
  · refine List.forall_mem_map.mpr fun s hs => ?_
    obtain ⟨c, cs, hshape, -, hcs⟩ := text_shape (h s hs)
    have hrest : ∀ d ∈ cs, (!opens d) = true := fun d hd => by rw [hcs d hd]; rfl
    rw [hshape]
    exact (List.pairwise_cons.mpr ⟨hrest,
      List.pairwise_of_forall_mem_list fun _ _ d hd => hrest d hd⟩).isChain
  · refine (List.pairwise_of_forall_mem_list ?_).isChain
    refine List.forall_mem_map.mpr fun s hs => List.forall_mem_map.mpr fun t ht => ?_
    obtain ⟨c, cs, hs, -⟩ := text_shape (h s hs)
    obtain ⟨d, ds, ht, hd, -⟩ := text_shape (h t ht)
    refine ⟨by rw [hs]; exact List.cons_ne_nil _ _, by rw [ht]; exact List.cons_ne_nil _ _, ?_⟩
    simp only [ht, List.head_cons, hd, Bool.not_true]

end PathStep

def Place.follow (p : Place) (path : List PathStep) : Place :=
  path.foldl (fun p s => p.extend s.text) p

theorem Place.follow_append (p : Place) (path path' : List PathStep) :
    p.follow (path ++ path') = (p.follow path).follow path' := List.foldl_append

/-- Below a place with a path, steps are written behind this path. -/
theorem Place.follow_some (file : Option String) (start : String) (path : List PathStep) :
    ∃ text, Place.follow ⟨file, some start⟩ path = ⟨file, some text⟩ ∧
      text.toList = start.toList ++ path.flatMap fun s => s.text.toList := by
  induction path generalizing start with
  | nil => exact ⟨start, rfl, (List.append_nil _).symm⟩
  | cons s path ih =>
    obtain ⟨text, hfollow, htext⟩ := ih (start ++ s.text)
    refine ⟨text, hfollow, ?_⟩
    rw [htext, String.toList_append, List.append_assoc, List.flatMap_cons]

/-- From the root, the steps stand behind one another, and the first one loses its point. -/
theorem Place.follow_member (file : Option String) {name : String} (path : List PathStep)
    (hname : PathStep.plain (.member name) = true) :
    ∃ text, (Place.root file).follow (.member name :: path) = ⟨file, some text⟩ ∧
      '.' :: text.toList = (PathStep.member name :: path).flatMap fun s => s.text.toList := by
  -- the point in front of the name is the only one to be dropped
  have hfirst : (Place.dropPoints (PathStep.text (.member name))).toList = name.toList := by
    rw [Place.dropPoints, String.toList_ofList, PathStep.text_member]
    cases hchars : name.toList with
    | nil => rfl
    | cons c cs =>
      have hc : PathStep.opens c = false :=
        (PathStep.plain_member.mp hname).2 c (hchars ▸ List.mem_cons_self)
      have hpoint : (c == '.') = false := (Bool.or_eq_false_iff.mp hc).1
      rw [List.dropWhile_cons_of_pos rfl, List.dropWhile_cons_of_neg (by rw [hpoint]; nofun)]
  obtain ⟨text, hfollow, htext⟩ :=
    Place.follow_some file (Place.dropPoints (PathStep.text (.member name))) path
  refine ⟨text, hfollow, ?_⟩
  rw [htext, hfirst, List.flatMap_cons, PathStep.text_member]
  rfl

/-- **The path of a place spells the steps that lead there.** -/
theorem stepsOf?_follow (file : Option String) {name : String} {path : List PathStep}
    (h : ∀ s ∈ .member name :: path, s.plain = true) :
    ∃ text, (Place.root file).follow (.member name :: path) = ⟨file, some text⟩ ∧
      stepsOf? text = some (.member name :: path) := by
  obtain ⟨text, hfollow, hall⟩ := Place.follow_member file path (h _ List.mem_cons_self)
  refine ⟨text, hfollow, ?_⟩
  rw [stepsOf?, hall, PathStep.splitBy_texts h]
  have hback : ∀ s ∈ .member name :: path, PathStep.ofChars? s.text.toList = some (id s) :=
    fun s hs => PathStep.ofChars?_text (h s hs)
  rw [mapM_map_some hback, List.map_id]

example : stepsOf? "builtins[3].signature[1]"
    = some [.member "builtins", .item 3, .member "signature", .item 1] := by rfl

end OverloadTables
