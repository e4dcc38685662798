import OverloadTables.Json.Reader
import OverloadTables.Proofs.Except
import OverloadTables.Proofs.Json.Token
import OverloadTables.Proofs.Text.Decimal

/-!
# What is read is made of what was scanned

* `apart_joinPieces`       a scanned text has no high surrogate right before a low one;
* `Token.Made P Q`         the text of a token has the property `P`, an integer in it has `Q`;
* `State.Made P Q`         so has all that was read up to a state;
* `step_made`              a token that is made so keeps it so;
* `parseLimited_all`       what is so of every value that is read where integers have a limit.
-/

namespace OverloadTables.Json

open LooseText (Joins not_joins_char not_char_joins)

/-! ## surrogates in a scanned text -/

/-- A unit is read as a surrogate only if it is one. -/
theorem unitPoint_cases (u : Nat) :
    (Text.unitPoint u).code = u ∨ ∃ c, Text.unitPoint u = .char c := by
  by_cases h : (Text.isHighSurrogate u || Text.isLowSurrogate u) = true
  · exact .inl (code_unitPoint h)
  · exact .inr ⟨_, by rw [Text.unitPoint, if_neg h]⟩

theorem high_of_unitPoint {u : Nat} {q : Point} (h : Joins (Text.unitPoint u) q) :
    Text.isHighSurrogate u = true := by
  rcases unitPoint_cases u with hu | ⟨c, hu⟩
  · rw [← hu]
    exact h.1
  · rw [hu] at h
    exact absurd h (not_char_joins c q)

theorem low_of_unitPoint {p : Point} {u : Nat} (h : Joins p (Text.unitPoint u)) :
    Text.isLowSurrogate u = true := by
  rcases unitPoint_cases u with hu | ⟨c, hu⟩
  · rw [← hu]
    exact h.2
  · rw [hu] at h
    exact absurd h (not_joins_char p c)

theorem head?_joinPieces_unit {v : Nat} {ps : List Piece} {q : Point}
    (h : q ∈ (joinPieces (.unit v :: ps)).head?) : q = Text.unitPoint v ∨ ∃ c, q = .char c := by
  cases ps with
  | nil => exact .inl (Option.some.inj h).symm
  | cons p ps =>
    cases p with
    | plain c => exact .inl (Option.some.inj h).symm
    | unit w =>
      rw [joinPieces] at h
      split at h
      · exact .inr ⟨_, (Option.some.inj h).symm⟩
      · exact .inl (Option.some.inj h).symm

/-- Surrogates that stand for a character are joined, so that none are left. -/
theorem isChain_joinPieces (ps : List Piece) : (joinPieces ps).IsChain fun p q => ¬ Joins p q := by
  fun_induction joinPieces ps with
  | case1 => exact .nil
  | case2 c ps ih => exact List.isChain_cons.mpr ⟨fun q _ => not_char_joins c q, ih⟩
  | case3 u v ps hpair ih => exact List.isChain_cons.mpr ⟨fun q _ => not_char_joins _ q, ih⟩
  | case4 u v ps hpair ih =>
    refine List.isChain_cons.mpr ⟨fun q hq hjoins => ?_, ih⟩
    rcases head?_joinPieces_unit hq with rfl | ⟨c, rfl⟩
    · exact hpair (Bool.and_eq_true_iff.mpr
        ⟨high_of_unitPoint hjoins, low_of_unitPoint hjoins⟩)
    · exact not_joins_char _ c hjoins
  | case5 u ps hunit ih =>
    refine List.isChain_cons.mpr ⟨fun q hq hjoins => ?_, ih⟩
    cases ps with
    | nil => exact nomatch hq
    | cons p ps =>
      cases p with
      | plain c =>
        obtain rfl := Option.some.inj hq
        exact not_joins_char _ c hjoins
      | unit v => exact hunit v ps rfl

theorem apart_joinPieces (ps : List Piece) : (LooseText.ofPoints (joinPieces ps)).Apart := by
  rw [LooseText.Apart, LooseText.points_ofPoints]
  exact isChain_joinPieces ps

/-! ## tokens -/

/-- A value that is one token and no text, an integer of the property `Q` if it is one. -/
inductive Scalar (Q : Int → Prop) : Json → Prop where
  | null : Scalar Q .null
  | bool (b : Bool) : Scalar Q (.bool b)
  | int {n : Int} (h : Q n) : Scalar Q (.int n)
  | real (x : Decimal) : Scalar Q (.real x)

theorem Scalar.all {P : LooseText → Prop} {Q : Int → Prop} {v : Json} (h : Scalar Q v) :
    All P Q v := by
  cases h with
  | null => exact .null
  | bool b => exact .bool b
  | int h => exact .int h
  | real x => exact .real x

/-- The text of a token has the property `P`, an integer in it has `Q`. -/
def Token.Made (P : LooseText → Prop) (Q : Int → Prop) : Token → Prop
  | .text t => P t
  | .scalar v => Scalar Q v
  | _ => True

theorem scalar_scanNumberTail (negative : Bool) (digits r : List Char) :
    Scalar (fun _ => True) (scanNumberTail negative digits r).1 := by
  unfold scanNumberTail
  dsimp only
  split
  · exact .real _
  · split
    · exact .int trivial
    · exact .real _

theorem scalar_scanNumber {negative : Bool} {cs r : List Char} {v : Json}
    (h : scanNumber negative cs = some (v, r)) : Scalar (fun _ => True) v := by
  have hv : v ∈ (scanNumber negative cs).map Prod.fst := by
    rw [h]
    rfl
  cases cs with
  | nil => cases h
  | cons c cs =>
    rw [scanNumber] at hv
    split at hv
    · obtain rfl := Option.some.inj hv
      exact scalar_scanNumberTail ..
    · split at hv
      · obtain rfl := Option.some.inj hv
        exact scalar_scanNumberTail ..
      · cases hv

theorem numberToken_made (P : LooseText → Prop) (negative : Bool) (cs : List Char) :
    (numberToken negative cs).1.Made P fun _ => True := by
  rw [numberToken]
  cases hscan : scanNumber negative cs with
  | none => exact trivial
  | some vr => exact scalar_scanNumber hscan

/-- A string that is scanned has no surrogates left to join. -/
theorem tokenAt_made (c : Char) (r : List Char) :
    (tokenAt c r).1.Made LooseText.Apart fun _ => True := by
  unfold tokenAt
  split
  case h_7 =>
    split
    · exact apart_joinPieces _
    · exact trivial
  case h_8 => exact .null
  case h_9 | h_10 => exact .bool _
  case h_11 | h_12 | h_13 => exact .real _
  case h_14 | h_15 => exact numberToken_made ..
  all_goals exact trivial

theorem lexemesFrom_made (fuel line : Nat) (cs : List Char) :
    ∀ l ∈ lexemesFrom fuel line cs, l.token.Made LooseText.Apart fun _ => True := by
  fun_induction lexemesFrom fuel line cs with
  | case1 => exact List.forall_mem_nil _
  | case2 => exact List.forall_mem_nil _
  | case3 fuel line c r hc ih => exact ih
  | case4 fuel line c r hc token rest ht ih =>
    refine List.forall_mem_cons.mpr ⟨?_, ih⟩
    have h := tokenAt_made c r
    rwa [ht] at h

/-- Where integers have a limit, an integer that is left is within it. -/
theorem Token.Made.limited {P : LooseText → Prop} {t : Token} (h : t.Made P fun _ => True) :
    t.limited.Made P fun n => Text.withinLimit n = true := by
  cases t with
  | text t => exact h
  | scalar v =>
    cases h with
    | @int n _ =>
      rw [Token.limited]
      split
      next hn => exact .int hn
      next => exact trivial
    | null => exact .null
    | bool b => exact .bool b
    | real x => exact .real x
  | _ => exact trivial

/-! ## states -/

section
variable {P : LooseText → Prop} {Q : Int → Prop}

/-- What is read of an array or an object is made so. -/
def Frame.Made (P : LooseText → Prop) (Q : Int → Prop) : Frame → Prop
  | .items done => All P Q (.arr done)
  | .members done k => All P Q (.obj done) ∧ P k

def Expect.Made (P : LooseText → Prop) (Q : Int → Prop) : Expect → Prop
  | .key done => All P Q (.obj done)
  | .colon done k => All P Q (.obj done) ∧ P k
  | .after v => All P Q v
  | _ => True

/-- All that was read up to the state is made so. -/
structure State.Made (P : LooseText → Prop) (Q : Int → Prop) (s : State) : Prop where
  expect : s.expect.Made P Q
  stack : ∀ f ∈ s.stack, f.Made P Q

theorem All.set {ms : Members} {k : LooseText} {v : Json} (h : All P Q (.obj ms)) (hk : P k)
    (hv : All P Q v) : All P Q (.obj (ms.set k v)) := by
  induction ms with
  | nil => exact all_cons.mpr ⟨hk, hv, h⟩
  | cons m ms ih =>
    obtain ⟨hmk, hmv, hms⟩ := all_cons.mp h
    rw [Members.set]
    split
    · exact all_cons.mpr ⟨hmk, hv, hms⟩
    · exact all_cons.mpr ⟨hmk, hmv, ih hms⟩

/-! ## steps -/

variable {s s' : State} {t : Token} {stack : List Frame}

theorem start_made (hstack : ∀ f ∈ stack, f.Made P Q) (ht : t.Made P Q)
    (h : start stack t = .ok s) : s.Made P Q := by
  cases t with
  | text t =>
    cases h
    exact ⟨.str ht, hstack⟩
  | scalar v =>
    cases h
    exact ⟨ht.all, hstack⟩
  | openBracket =>
    cases h
    exact ⟨trivial, List.forall_mem_cons.mpr ⟨.arr (List.forall_mem_nil _), hstack⟩⟩
  | openBrace =>
    cases h
    exact ⟨trivial, hstack⟩
  | _ => exact nomatch h

theorem startKey_made {done : Members} (hstack : ∀ f ∈ stack, f.Made P Q)
    (hdone : All P Q (.obj done)) (ht : t.Made P Q) (h : startKey stack done t = .ok s) :
    s.Made P Q := by
  cases t with
  | text k =>
    cases h
    exact ⟨⟨hdone, ht⟩, hstack⟩
  | _ => exact nomatch h

theorem continueFrame_made {v : Json} (hstack : ∀ f ∈ stack, f.Made P Q) (hv : All P Q v)
    (h : continueFrame v stack t = .ok s) : s.Made P Q := by
  cases stack with
  | nil => exact nomatch h
  | cons f rest =>
    obtain ⟨hf, hrest⟩ := List.forall_mem_cons.mp hstack
    cases f with
    | items done =>
      have hitems : ∀ w ∈ v :: done, All P Q w := List.forall_mem_cons.mpr ⟨hv, all_arr.mp hf⟩
      cases t with
      | comma =>
        cases h
        exact ⟨trivial, List.forall_mem_cons.mpr ⟨.arr hitems, hrest⟩⟩
      | closeBracket =>
        cases h
        exact ⟨.arr fun w hw => hitems w (List.mem_reverse.mp hw), hrest⟩
      | _ => exact nomatch h
    | members done k =>
      have hmembers := hf.1.set hf.2 hv
      cases t with
      | comma =>
        cases h
        exact ⟨hmembers, hrest⟩
      | closeBrace =>
        cases h
        exact ⟨hmembers, hrest⟩
      | _ => exact nomatch h

/-- **A token that is made so keeps what is read so.** -/
theorem step_made (hs : s.Made P Q) (ht : t.Made P Q) (h : step s t = .ok s') : s'.Made P Q := by
  obtain ⟨e, stack⟩ := s
  obtain ⟨he, hstack⟩ := hs
  cases e with
  | value => exact start_made hstack ht h
  | firstItem =>
    unfold step at h
    dsimp only at h
    split at h
    · cases h
      exact ⟨.arr (List.forall_mem_nil _), (List.forall_mem_cons.mp hstack).2⟩
    · exact start_made hstack ht h
  | firstKey =>
    unfold step at h
    dsimp only at h
    split at h
    · cases h
      exact ⟨all_nil.mpr trivial, hstack⟩
    · exact startKey_made hstack (all_nil.mpr trivial) ht h
  | key done => exact startKey_made hstack he ht h
  | colon done k =>
    unfold step at h
    dsimp only at h
    split at h
    · cases h
      exact ⟨trivial, List.forall_mem_cons.mpr ⟨he, hstack⟩⟩
    · exact nomatch h
  | after v => exact continueFrame_made hstack he h

theorem finish_made {v : Json} (hs : s.Made P Q) (h : finish s = .ok v) : All P Q v := by
  obtain ⟨e, stack⟩ := s
  cases e with
  | after w =>
    cases stack with
    | nil =>
      cases h
      exact hs.expect
    | cons f rest => exact nomatch h
  | _ => exact nomatch h

theorem run_made {lastLine : Nat} {ls : List Lexeme} {v : Json} (hs : s.Made P Q)
    (hls : ∀ l ∈ ls, l.token.Made P Q) (h : run lastLine s ls = .ok v) : All P Q v := by
  induction ls generalizing s with
  | nil => exact finish_made hs (mapError_eq_ok.mp h)
  | cons l ls ih =>
    obtain ⟨hl, hls⟩ := List.forall_mem_cons.mp hls
    rw [run] at h
    split at h
    next s' hstep => exact ih (step_made hs hl hstep) hls h
    next => exact nomatch h

theorem readTokens_made {lastLine : Nat} {ls : List Lexeme} {v : Json}
    (hls : ∀ l ∈ ls, l.token.Made P Q) (h : readTokens lastLine ls = .ok v) : All P Q v :=
  run_made (s := ⟨.value, []⟩) ⟨trivial, List.forall_mem_nil _⟩ hls h

end

/-! ## texts -/

/-- **What is read where integers have a limit**: no text has a high surrogate right before a low
one, and no integer is beyond the limit. -/
theorem parseLimited_all {cs : List Char} {v : Json} (h : parseLimited cs = .ok v) :
    All LooseText.Apart (fun n => Text.withinLimit n = true) v := by
  unfold parseLimited at h
  split at h
  · exact nomatch h
  · refine readTokens_made (List.forall_mem_map.mpr fun l hl => ?_) h
    exact (lexemesFrom_made _ _ _ l hl).limited

end OverloadTables.Json
