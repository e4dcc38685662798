import OverloadTables.Proofs.SemanticType.Store
import OverloadTables.Proofs.Steps

/-!
# Runs of requests to a list of types

* `TypeStore.run`          the answers to requests in order, and the list after them; a request that
                           is refused leaves the list as it was;
* `TypeStore.get?_of_answer`   the number that answers a request for a type of its own is of that
                           type from then on;
* `TypeStore.requalify_answer`   a type that is qualified is not qualified again by the same space.
-/

namespace OverloadTables.TypeStore

open TypeTable (Request Refused plan_eq_some)

/-- One request to a list that goes on after a refusal. -/
def step (t : TypeStore) (r : Request) : Except TypeFault Int × TypeStore :=
  match t.request r with
  | .ok (id, t') => (.ok id, t')
  | .error e => (.error e, t)

def run (t : TypeStore) (rs : List Request) : List (Except TypeFault Int) × TypeStore :=
  Steps.run step t rs

/-- The answers to requests of an empty list. -/
def answers (rs : List Request) : List (Except TypeFault Int) := (empty.run rs).1

def after (rs : List Request) : TypeStore := (empty.run rs).2

/-! ## steps -/

section
variable {t t' : TypeStore} {r : Request} {id : Int} {e : TypeFault}

theorem step_answered (h : (t.step r).1 = .ok id) : t.request r = .ok (id, (t.step r).2) := by
  unfold step at h ⊢
  cases hr : t.request r with
  | ok p =>
    rw [hr] at h
    rw [← Except.ok.inj h]
  | error e =>
    rw [hr] at h
    exact nomatch h

theorem step_refused (h : (t.step r).1 = .error e) : (t.step r).2 = t ∧ Refused t.get? r e := by
  unfold step at h ⊢
  cases hr : t.request r with
  | ok p =>
    rw [hr] at h
    exact nomatch h
  | error e' =>
    rw [hr] at h
    refine ⟨rfl, ?_⟩
    rw [← Except.error.inj h]
    exact request_eq_error.mp hr

theorem step_of_refused (h : Refused t.get? r e) : t.step r = (.error e, t) := by
  unfold step
  rw [request_eq_error.mpr h]

theorem prefix_step (t : TypeStore) (r : Request) : t.types <+: (t.step r).2.types := by
  cases h : (t.step r).1 with
  | ok id => exact prefix_request (step_answered h)
  | error e =>
    have hsame : (t.step r).2.types = t.types := congrArg (·.types) (step_refused h).1
    exact ⟨[], by rw [List.append_nil, hsame]⟩

theorem Sound.step (ht : Sound t) (r : Request) : Sound (t.step r).2 := by
  cases h : (t.step r).1 with
  | ok id => exact ht.request (step_answered h)
  | error e =>
    rw [(step_refused h).1]
    exact ht

end

/-! ## runs -/

theorem run_append (t : TypeStore) (a b : List Request) :
    t.run (a ++ b) = ((t.run a).1 ++ ((t.run a).2.run b).1, ((t.run a).2.run b).2) :=
  Steps.run_append step t a b

theorem prefix_run (t : TypeStore) (rs : List Request) : t.types <+: (t.run rs).2.types := by
  induction rs generalizing t with
  | nil => exact List.prefix_rfl
  | cons r rs ih => exact (prefix_step t r).trans (ih _)

theorem Sound.run {t : TypeStore} (ht : Sound t) (rs : List Request) : Sound (t.run rs).2 :=
  Steps.run_keeps (fun _ r h => h.step r) ht rs

theorem sound_after (rs : List Request) : Sound (after rs) := sound_empty.run rs

theorem prefix_after (a b : List Request) : (after a).types <+: (after (a ++ b)).types := by
  rw [after, after, run_append]
  exact prefix_run _ b

theorem answers_concat (rs : List Request) (r : Request) :
    answers (rs ++ [r]) = answers rs ++ [((after rs).step r).1] :=
  congrArg Prod.fst (Steps.run_concat step empty rs r)

theorem after_concat (rs : List Request) (r : Request) :
    after (rs ++ [r]) = ((after rs).step r).2 :=
  congrArg Prod.snd (Steps.run_concat step empty rs r)

/-! ## moments of a run -/

theorem prefix_after_take {i j : Nat} (h : i ≤ j) (rs : List Request) :
    (after (rs.take i)).types <+: (after (rs.take j)).types := by
  have htake : (rs.take j).take i = rs.take i := by rw [List.take_take, Nat.min_eq_left h]
  have hsplit : rs.take j = rs.take i ++ (rs.take j).drop i := by
    rw [← htake, List.take_append_drop]
  rw [hsplit]
  exact prefix_after _ _

theorem prefix_after_all (rs : List Request) (i : Nat) :
    (after (rs.take i)).types <+: (after rs).types := by
  have := prefix_after (rs.take i) (rs.drop i)
  rwa [List.take_append_drop] at this

section
variable {rs : List Request} {i : Nat} {r : Request}

theorem answers_getElem? (hr : rs[i]? = some r) :
    (answers rs)[i]? = some ((after (rs.take i)).step r).1 := Steps.run_answer hr

theorem after_take_succ (hr : rs[i]? = some r) :
    after (rs.take (i + 1)) = ((after (rs.take i)).step r).2 := Steps.run_take_succ hr

theorem step_fst_of_answers {answer : Except TypeFault Int} (hr : rs[i]? = some r)
    (ha : (answers rs)[i]? = some answer) : ((after (rs.take i)).step r).1 = answer := by
  rw [answers_getElem? hr] at ha
  exact Option.some.inj ha

/-- The number that answers a proper request is that of its type from then on. -/
theorem get?_of_answer {id : Int} (hr : rs[i]? = some r) (ha : (answers rs)[i]? = some (.ok id))
    (hp : r.Proper (after (rs.take i)).get?) : (after rs).get? id = some r.type := by
  have hstep := step_answered (step_fst_of_answers hr ha)
  have hnow : (after (rs.take (i + 1))).get? id = some r.type := by
    rw [after_take_succ hr]
    rcases request_cases hstep with ⟨-, -, hi⟩ | ⟨space, rfl, -, hsame⟩
    · exact get?_intern hi
    · -- a proper request is not answered by the number it is to qualify
      obtain ⟨hs, hq⟩ := hp
      rcases hsame with rfl | ⟨part, hpart⟩
      · exact absurd rfl hs
      · exact absurd ⟨part, space, rfl⟩ (hq _ hpart)
  exact get?_of_prefix (prefix_after_all rs (i + 1)) hnow

/-- A qualification answers with a number that a later one by the same space leaves as it is. -/
theorem requalify_answer {inner id : Int} {space : AddressSpace} {j : Nat} (hij : i < j)
    (hr : rs[i]? = some (.qualify inner space)) (ha : (answers rs)[i]? = some (.ok id))
    (hr' : rs[j]? = some (.qualify id space)) : (answers rs)[j]? = some (.ok id) := by
  have hstep := step_answered (step_fst_of_answers hr ha)
  have hnow : space = .default ∨
      ∃ part, (after (rs.take (i + 1))).get? id = some (.qualified part space) := by
    rw [after_take_succ hr]
    rcases request_cases hstep with ⟨-, -, hi⟩ | ⟨space', e, ht, hsame⟩
    · exact .inr ⟨inner, get?_intern hi⟩
    · obtain ⟨rfl, rfl⟩ := Request.qualify.inj e
      rw [ht]
      exact hsame
  have hlater : (Request.qualify id space).plan (after (rs.take j)).get? = .ok (some id) := by
    refine plan_eq_some.mpr ⟨space, rfl, hnow.imp_right fun ⟨part, hpart⟩ => ⟨part, ?_⟩⟩
    exact get?_of_prefix (prefix_after_take hij rs) hpart
  rw [answers_getElem? hr', step, request, hlater]

end

theorem refused_iff {rs : List Request} {i : Nat} {r : Request} {e : TypeFault}
    (hr : rs[i]? = some r) :
    (answers rs)[i]? = some (.error e) ↔ Refused (after (rs.take i)).get? r e := by
  rw [answers_getElem? hr, Option.some.injEq]
  constructor
  · intro h
    exact (step_refused h).2
  · intro h
    rw [step_of_refused h]

end OverloadTables.TypeStore
