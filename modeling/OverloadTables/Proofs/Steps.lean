/-!
# Runs of a machine

A machine answers each request and goes on to its next state.

* `run step s rs`      the answers to requests in order, and the state after them;
* `run_answer`, `run_take_succ`   the answer at a moment of a run, and the state after it;
* `run_keeps`          what every step keeps, a run keeps;
* `run_follows`        two machines that answer alike, step by step;
* `run_eraseIdx`       a run without a request that has changed nothing.
-/

namespace OverloadTables.Steps

variable {σ ρ α : Type} (step : σ → ρ → α × σ)

def run : σ → List ρ → List α × σ
  | s, [] => ([], s)
  | s, r :: rs => ((step s r).1 :: (run (step s r).2 rs).1, (run (step s r).2 rs).2)

theorem run_append (s : σ) (a b : List ρ) :
    run step s (a ++ b) = ((run step s a).1 ++ (run step (run step s a).2 b).1,
      (run step (run step s a).2 b).2) := by
  induction a generalizing s with
  | nil => rfl
  | cons r a ih =>
    rw [List.cons_append, run, ih]
    rfl

theorem run_concat (s : σ) (a : List ρ) (r : ρ) :
    run step s (a ++ [r]) = ((run step s a).1 ++ [(step (run step s a).2 r).1],
      (step (run step s a).2 r).2) := run_append step s a [r]

theorem length_run (s : σ) (rs : List ρ) : (run step s rs).1.length = rs.length := by
  induction rs generalizing s with
  | nil => rfl
  | cons r rs ih => rw [run, List.length_cons, ih, List.length_cons]

variable {step}

theorem run_keeps {P : σ → Prop} (h : ∀ s r, P s → P (step s r).2) {s : σ} (hs : P s)
    (rs : List ρ) : P (run step s rs).2 := by
  induction rs generalizing s with
  | nil => exact hs
  | cons r rs ih => exact ih (h s r hs)

/-- Machines that answer alike in states that belong together, and go on to such states. -/
theorem run_follows {τ : Type} {step' : τ → ρ → α × τ} {R : σ → τ → Prop}
    (h : ∀ s t r, R s t → (step' t r).1 = (step s r).1 ∧ R (step s r).2 (step' t r).2)
    {s : σ} {t : τ} (hst : R s t) (rs : List ρ) :
    (run step' t rs).1 = (run step s rs).1 ∧ R (run step s rs).2 (run step' t rs).2 := by
  induction rs generalizing s t with
  | nil => exact ⟨rfl, hst⟩
  | cons r rs ih =>
    obtain ⟨hanswer, hnext⟩ := h s t r hst
    obtain ⟨hanswers, hlast⟩ := ih hnext
    refine ⟨?_, hlast⟩
    rw [run, run, hanswer, hanswers]

/-! ## moments of a run -/

section
variable {s : σ} {rs : List ρ} {i : Nat} {r : ρ} (hr : rs[i]? = some r)
include hr

theorem eq_take_cons_drop : rs = rs.take i ++ r :: rs.drop (i + 1) ∧ (rs.take i).length = i := by
  obtain ⟨hi, rfl⟩ := List.getElem?_eq_some_iff.mp hr
  constructor
  · rw [← List.drop_eq_getElem_cons, List.take_append_drop]
  · rw [List.length_take, Nat.min_eq_left (Nat.le_of_lt hi)]

/-- The answer at a moment is that of the state at this moment. -/
theorem run_answer : (run step s rs).1[i]? = some (step (run step s (rs.take i)).2 r).1 := by
  obtain ⟨hsplit, hlen⟩ := eq_take_cons_drop hr
  have hplace : (run step s (rs.take i)).1.length = i := by rw [length_run, hlen]
  have hrun := run_append step s (rs.take i) (r :: rs.drop (i + 1))
  rw [← hsplit] at hrun
  rw [hrun]
  show ((run step s (rs.take i)).1 ++ _)[i]? = _
  rw [List.getElem?_append_right (Nat.le_of_eq hplace), hplace, Nat.sub_self]
  rfl

theorem run_take_succ :
    (run step s (rs.take (i + 1))).2 = (step (run step s (rs.take i)).2 r).2 := by
  rw [List.take_add_one, hr]
  exact congrArg Prod.snd (run_concat step s (rs.take i) r)

/-- A request that has changed nothing can be left out with its answer. -/
theorem run_eraseIdx
    (hsame : (step (run step s (rs.take i)).2 r).2 = (run step s (rs.take i)).2) :
    run step s (rs.eraseIdx i) = ((run step s rs).1.eraseIdx i, (run step s rs).2) := by
  obtain ⟨hsplit, hlen⟩ := eq_take_cons_drop hr
  have hplace : (run step s (rs.take i)).1.length = i := by rw [length_run, hlen]
  have hwith := run_append step s (rs.take i) (r :: rs.drop (i + 1))
  rw [← hsplit, run, hsame] at hwith
  have hrest : rs.eraseIdx i = rs.take i ++ rs.drop (i + 1) := List.eraseIdx_eq_take_drop_succ ..
  rw [hrest, run_append, hwith]
  show ((run step s (rs.take i)).1 ++ _, _) = (List.eraseIdx ((run step s (rs.take i)).1 ++ _) i, _)
  rw [List.eraseIdx_append_of_length_le (Nat.le_of_eq hplace), hplace, Nat.sub_self]
  rfl

end

end OverloadTables.Steps
