import OverloadTables.Catalog.Fault
import Mathlib.Data.List.Pairwise

/-!
# Checks and the first violation

Checks stop at the first rule that is broken.  All broken rules, in the order of the checks, are a
list, and what a check that failed tells is the first member of it.

* `Violation`              a broken rule, the place of the culprit and the integers to be told;
* `breach`, `inOrder`      the violations of one rule, and of a list whose members are judged with
                           those before them at hand;
* `Reports told x vs`      `x` succeeds if there are no violations `vs`, and else tells the first;
* `reports_check`, `reports_bind`, `reports_mapM`, `reports_foldlM`   checks one after the other.
-/

namespace OverloadTables

/-- A broken rule: the code of its error, the place of the culprit and the integers that the message
spells. -/
structure Violation where
  code : String
  place : Place
  integers : List Int
  deriving DecidableEq, Repr

/-! ## broken rules -/

def breach (holds : Bool) (code : String) (place : Place) (integers : List Int := []) :
    List Violation :=
  if holds then [] else [⟨code, place, integers⟩]

/-- The violations of the members of a list, each judged with those before it at hand. -/
def inOrder {α : Type} (viol : List α → α → List Violation) : List α → List α → List Violation
  | _, [] => []
  | before, a :: l => viol before a ++ inOrder viol (before ++ [a]) l

theorem breach_eq_nil {holds : Bool} {code : String} {place : Place} {integers : List Int} :
    breach holds code place integers = [] ↔ holds = true := by
  cases holds with
  | true => exact iff_of_true rfl rfl
  | false =>
    constructor
    · intro h
      cases h
    · intro h
      cases h

theorem integers_of_breach {holds : Bool} {code : String} {place : Place} {integers : List Int}
    {v : Violation} (h : v ∈ breach holds code place integers) : v.integers = integers := by
  cases holds with
  | true => exact nomatch h
  | false => exact congrArg Violation.integers (List.mem_singleton.mp h)

/-- The violations in order are those of the members, each with those before it at hand. -/
theorem mem_inOrder {α : Type} {viol : List α → α → List Violation} {v : Violation}
    {before l : List α} (h : v ∈ inOrder viol before l) :
    ∃ front a rest, l = front ++ a :: rest ∧ v ∈ viol (before ++ front) a := by
  induction l generalizing before with
  | nil => exact nomatch h
  | cons a l ih =>
    rcases List.mem_append.mp h with h | h
    · exact ⟨[], a, l, rfl, by rwa [List.append_nil]⟩
    · obtain ⟨front, b, rest, rfl, hv⟩ := ih h
      refine ⟨a :: front, b, rest, rfl, ?_⟩
      rwa [List.append_assoc] at hv

section
variable {α : Type} {p : α → Prop} [DecidablePred p] {l : List α} {code : String} {place : Place}
  {integers : List Int}

theorem breach_all (h : ∀ a ∈ l, p a) : breach (l.all fun a => p a) code place integers = [] :=
  breach_eq_nil.mpr (List.all_eq_true.mpr fun a ha => decide_eq_true (h a ha))

theorem breach_all_of_not {a : α} (ha : a ∈ l) (h : ¬ p a) :
    breach (l.all fun a => p a) code place integers = [⟨code, place, integers⟩] := by
  have hfails : (l.all fun a => p a) = false :=
    List.all_eq_false.mpr ⟨a, ha, by rwa [decide_eq_true_eq]⟩
  rw [hfails]
  rfl

end

section
variable {α : Type} {viol : List α → α → List Violation} {own : α → Prop} {agree : α → α → Prop}
  (h : ∀ before a, viol before a = [] ↔ own a ∧ ∀ b ∈ before, agree b a)
include h

theorem inOrder_eq_nil (before l : List α) : inOrder viol before l = [] ↔
    (∀ a ∈ l, own a) ∧ (∀ b ∈ before, ∀ a ∈ l, agree b a) ∧ l.Pairwise agree := by
  induction l generalizing before with
  | nil => simp [inOrder]
  | cons a l ih =>
    rw [inOrder, List.append_eq_nil_iff, h, ih, List.pairwise_cons]
    simp only [List.forall_mem_cons, List.mem_append, List.mem_singleton]
    constructor
    · rintro ⟨⟨ha, hb⟩, hl, hagree, hpair⟩
      exact ⟨⟨ha, hl⟩, fun b hmem => ⟨hb b hmem, hagree b (.inl hmem)⟩, hagree a (.inr rfl), hpair⟩
    · rintro ⟨⟨ha, hl⟩, hb, hal, hpair⟩
      refine ⟨⟨ha, fun b hmem => (hb b hmem).1⟩, hl, ?_, hpair⟩
      rintro b (hmem | rfl)
      · exact (hb b hmem).2
      · exact hal

/-- Members that agree with those before them agree with one another. -/
theorem inOrder_nil_eq_nil (hrefl : ∀ a, agree a a) (hsymm : ∀ a b, agree a b → agree b a)
    (l : List α) : inOrder viol [] l = [] ↔
      (∀ a ∈ l, own a) ∧ ∀ a ∈ l, ∀ b ∈ l, agree a b := by
  rw [inOrder_eq_nil h]
  constructor
  · rintro ⟨hown, -, hpair⟩
    have : Std.Symm agree := ⟨hsymm⟩
    exact ⟨hown, List.Pairwise.forall_of_forall (fun a _ => hrefl a) hpair⟩
  · rintro ⟨hown, hall⟩
    exact ⟨hown, fun b hb => absurd hb List.not_mem_nil,
      List.pairwise_of_forall_mem_list hall⟩

end

/-! ## checks that tell the first violation -/

section
variable {ε α β : Type}

/-- `x` succeeds where nothing is wrong, and fails and tells the first of the violations
otherwise. -/
def Reports (told : ε → Violation → Prop) (x : Except ε α) (vs : List Violation) : Prop :=
  match x with
  | .ok _ => vs = []
  | .error e => ∃ v rest, told e v ∧ vs = v :: rest

variable {told : ε → Violation → Prop} {x : Except ε α} {vs ws : List Violation}

theorem reports_bind {f : α → Except ε β} (hx : Reports told x vs)
    (hf : ∀ a, x = .ok a → Reports told (f a) ws) : Reports told (x >>= f) (vs ++ ws) := by
  cases x with
  | error e =>
    obtain ⟨v, rest, he, rfl⟩ := hx
    exact ⟨v, rest ++ ws, he, rfl⟩
  | ok a =>
    obtain rfl : vs = [] := hx
    exact hf a rfl

/-- A step that cannot fail on what passed the checks. -/
theorem reports_then {f : α → Except ε β} (hx : Reports told x vs)
    (hf : ∀ a, x = .ok a → ∃ b, f a = .ok b) : Reports told (x >>= f) vs := by
  rw [← List.append_nil vs]
  refine reports_bind hx fun a ha => ?_
  obtain ⟨b, hb⟩ := hf a ha
  rw [hb]
  rfl

theorem reports_ok_iff (hx : Reports told x vs) : (∃ a, x = .ok a) ↔ vs = [] := by
  cases x with
  | ok a =>
    obtain rfl : vs = [] := hx
    exact iff_of_true ⟨a, rfl⟩ rfl
  | error e =>
    obtain ⟨v, rest, -, rfl⟩ := hx
    exact ⟨nofun, nofun⟩

theorem reports_breach {code : String} {place : Place} {integers : List Int} {e : ε}
    (he : told e ⟨code, place, integers⟩) :
    Reports told (.error e : Except ε α) (breach false code place integers ++ vs) := ⟨_, vs, he, rfl⟩

theorem reports_check {p : Prop} [Decidable p] {holds : Bool} {code : String} {place : Place}
    {integers : List Int} {e : ε} (hp : p ↔ holds = false) (he : told e ⟨code, place, integers⟩)
    (hx : holds = true → Reports told x vs) :
    Reports told (if p then .error e else x) (breach holds code place integers ++ vs) := by
  cases holds with
  | true =>
    rw [if_neg fun h => Bool.noConfusion (hp.mp h)]
    exact hx rfl
  | false =>
    rw [if_pos (hp.mpr rfl)]
    exact reports_breach he

theorem reports_mapError {ε' : Type} {told' : ε' → Violation → Prop} {f : ε → ε'}
    (hf : ∀ e v, told e v → told' (f e) v) (hx : Reports told x vs) :
    Reports told' (x.mapError f) vs := by
  cases x with
  | error e =>
    obtain ⟨v, rest, he, hvs⟩ := hx
    exact ⟨v, rest, hf e v he, hvs⟩
  | ok a => exact hx

theorem reports_mapM {f : α → Except ε β} {viol : α → List Violation} {l : List α}
    (h : ∀ a ∈ l, Reports told (f a) (viol a)) : Reports told (l.mapM f) (l.flatMap viol) := by
  induction l with
  | nil => rfl
  | cons a l ih =>
    obtain ⟨ha, hl⟩ := List.forall_mem_cons.mp h
    rw [List.mapM_cons, List.flatMap_cons]
    exact reports_bind ha fun b _ => reports_then (ih hl) fun bs _ => ⟨b :: bs, rfl⟩

/-- Steps that are judged with the members before at hand; `P` is what is known of these. -/
theorem reports_foldlM {P : List α → β → Prop} {f : β → α → Except ε β}
    {viol : List α → α → List Violation}
    (step : ∀ done b a, P done b → Reports told (f b a) (viol done a))
    (keeps : ∀ done b a b', P done b → f b a = .ok b' → P (done ++ [a]) b')
    {done : List α} (l : List α) {b : β} (hb : P done b) :
    Reports told (l.foldlM f b) (inOrder viol done l) := by
  -- on the members to come; those that were passed are in `done`
  induction l generalizing done b with
  | nil => rfl
  | cons a l ih =>
    rw [List.foldlM_cons, inOrder]
    exact reports_bind (step done b a hb) fun b' hb' => ih (keeps done b a b' hb hb')

end

/-- The violation that a rejection tells. -/
def Rejection.violation (r : Rejection) : Violation := ⟨r.fault.code, r.place, r.fault.integers⟩

def Rejection.Tells (r : Rejection) (v : Violation) : Prop := v = r.violation

/-- The message can be written. -/
def Violation.Writable (v : Violation) : Prop := ∀ n ∈ v.integers, Text.withinLimit n = true

end OverloadTables
