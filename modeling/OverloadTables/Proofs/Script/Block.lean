/-!
# Blocks by depth

Lines that stand at a depth are read as a program.  A clause opens a chain or goes on with one, and
has the lines below it that stand deeper as its block.  A block is not empty, all its lines stand
at one depth, and a clause that goes on with a chain comes right after a clause of the chain.
Lines are read from the last to the first, so that the blocks below a clause are known before it.

* `Script.Code.run`        what a program does;
* `Script.readOnto ls L`   the levels that lines leave open above the levels `L`;
* `Script.block? outer ls` the program of lines that stand deeper than `outer`;
* `readOnto_opens`, `readOnto_continues`   one clause more.
-/

namespace OverloadTables.Script

/-- What stands on a line: a clause with its test, or a statement. -/
inductive Content (τ σ : Type) where
  | opens (test : τ)
  | continues (test : τ)
  | does (statement : σ)
  deriving DecidableEq, Repr

structure Line (τ σ : Type) where
  depth : Nat
  content : Content τ σ
  deriving DecidableEq, Repr

/-- A program: statements and forks in order. -/
inductive Code (τ σ : Type) where
  | pass
  | step (statement : σ) (next : Code τ σ)
  | fork (test : τ) (yes no next : Code τ σ)
  deriving DecidableEq, Repr

variable {τ σ : Type}

/-- What a program does: the first statement with an answer gives the answer. -/
def Code.run {m : Type → Type} [Monad m] {α : Type} (holds : τ → m Bool)
    (perform : σ → m (Option α)) : Code τ σ → m (Option α)
  | .pass => pure none
  | .step statement next => do
    match ← perform statement with
    | some a => pure (some a)
    | none => next.run holds perform
  | .fork test yes no next => do
    match ← (if ← holds test then yes.run holds perform else no.run holds perform) with
    | some a => pure (some a)
    | none => next.run holds perform

/-- What was read of one depth: clauses that wait for the one that opens their chain, and the code
after them. -/
structure Level (τ σ : Type) where
  depth : Nat
  chain : Option (Code τ σ)
  code : Code τ σ
  deriving DecidableEq, Repr

/-- The level of a depth and those around it, where nothing deeper is open. -/
def atDepth (d : Nat) : List (Level τ σ) → Option (Level τ σ × List (Level τ σ))
  | [] => some (⟨d, none, .pass⟩, [])
  | b :: L =>
    if b.depth = d then some (b, L)
    else if b.depth < d then some (⟨d, none, .pass⟩, b :: L)
    else none

/-- The levels with a clause at depth `d` above them; the deepest one is its block. -/
def addClause (d : Nat) (make : Code τ σ → Level τ σ → Level τ σ) :
    List (Level τ σ) → Option (List (Level τ σ))
  | [] => none
  | body :: L =>
    if d < body.depth ∧ body.chain.isNone then
      (atDepth d L).map fun p => make body.code p.1 :: p.2
    else none

def addLine (l : Line τ σ) (L : List (Level τ σ)) : Option (List (Level τ σ)) :=
  match l.content with
  | .opens test => addClause l.depth
    (fun body b => ⟨l.depth, none, .fork test body (b.chain.getD .pass) b.code⟩) L
  | .continues test => addClause l.depth
    (fun body b => ⟨l.depth, some (.fork test body (b.chain.getD .pass) .pass), b.code⟩) L
  | .does statement =>
    match atDepth l.depth L with
    | none => none
    | some (b, L) =>
      if b.chain.isNone then some (⟨l.depth, none, .step statement b.code⟩ :: L) else none

def readOnto : List (Line τ σ) → List (Level τ σ) → Option (List (Level τ σ))
  | [], L => some L
  | l :: ls, L => (readOnto ls L).bind (addLine l)

/-- The program of lines that stand deeper than `outer`. -/
def block? (outer : Nat) (ls : List (Line τ σ)) : Option (Code τ σ) :=
  match readOnto ls [] with
  | some [b] => if outer < b.depth ∧ b.chain.isNone then some b.code else none
  | _ => none

/-! ## reading in parts -/

theorem readOnto_append (a b : List (Line τ σ)) (L : List (Level τ σ)) :
    readOnto (a ++ b) L = (readOnto b L).bind (readOnto a) := by
  induction a with
  | nil => cases h : readOnto b L <;> simp [readOnto, h]
  | cons l a ih => rw [List.cons_append, readOnto, ih, Option.bind_assoc]; rfl

/-- Nothing as deep as `d` is open. -/
def Shallower (d : Nat) (L : List (Level τ σ)) : Prop := ∀ b ∈ L.head?, b.depth < d

theorem atDepth_of_shallower {d : Nat} {L : List (Level τ σ)} (h : Shallower d L) :
    atDepth d L = some (⟨d, none, .pass⟩, L) := by
  cases L with
  | nil => rfl
  | cons b L =>
    have hb : b.depth < d := h b rfl
    rw [atDepth, if_neg (by omega), if_pos hb]

theorem atDepth_cons (b : Level τ σ) (L : List (Level τ σ)) :
    atDepth b.depth (b :: L) = some (b, L) := by
  rw [atDepth, if_pos rfl]

theorem shallower_of_atDepth {d : Nat} {L L' : List (Level τ σ)} {b : Level τ σ}
    (h : atDepth d L = some (b, L')) : Shallower (d + 1) L := by
  intro top htop
  cases L with
  | nil => exact nomatch htop
  | cons b' L =>
    obtain rfl := Option.some.inj htop
    rw [atDepth] at h
    by_cases he : b'.depth = d
    · omega
    · rw [if_neg he] at h
      by_cases hlt : b'.depth < d
      · omega
      · rw [if_neg hlt] at h
        exact nomatch h

/-- Lines that make a block of their own above shallower levels. -/
def Reads (d : Nat) (ls : List (Line τ σ)) (code : Code τ σ) : Prop :=
  ∀ L, Shallower d L → readOnto ls L = some (⟨d, none, code⟩ :: L)

theorem reads_statement (d : Nat) (s : σ) :
    Reads d ([⟨d, .does s⟩] : List (Line τ σ)) (.step s .pass) := by
  intro L hL
  simp only [readOnto, Option.bind_some, addLine, atDepth_of_shallower hL, Option.isNone_none, ↓reduceIte]

section
variable {d : Nat} {body more : List (Line τ σ)} {code : Code τ σ} {b : Level τ σ}
  {L L' M : List (Level τ σ)} (hbody : Reads (d + 1) body code) (test : τ)

section
variable (hmore : readOnto more L = some M) (hM : atDepth d M = some (b, L'))
include hbody hmore hM

theorem readOnto_opens : readOnto (⟨d, .opens test⟩ :: body ++ more) L
    = some (⟨d, none, .fork test code (b.chain.getD .pass) b.code⟩ :: L') := by
  rw [readOnto_append, hmore, Option.bind_some, readOnto, hbody M (shallower_of_atDepth hM)]
  simp only [Option.bind_some, addLine, addClause, Nat.lt_add_one, Option.isNone_none, and_self,
    ↓reduceIte, hM, Option.map_some]

theorem readOnto_continues : readOnto (⟨d, .continues test⟩ :: body ++ more) L
    = some (⟨d, some (.fork test code (b.chain.getD .pass) .pass), b.code⟩ :: L') := by
  rw [readOnto_append, hmore, Option.bind_some, readOnto, hbody M (shallower_of_atDepth hM)]
  simp only [Option.bind_some, addLine, addClause, Nat.lt_add_one, Option.isNone_none, and_self,
    ↓reduceIte, hM, Option.map_some]

end

include hbody in
theorem reads_clause : Reads d (⟨d, .opens test⟩ :: body) (.fork test code .pass .pass) := by
  intro L hL
  have hnone : readOnto ([] : List (Line τ σ)) L = some L := rfl
  have := readOnto_opens hbody test hnone (atDepth_of_shallower hL)
  rwa [List.append_nil] at this

end

/-! ## running in parts -/

section
variable {m : Type → Type} [Monad m] [LawfulMonad m] {α : Type} {holds : τ → m Bool}
  {perform : σ → m (Option α)}

theorem bind_answer (x : m (Option α)) :
    (x >>= fun r => match r with
      | some a => pure (some a)
      | none => pure none) = x := by
  have hpure : (fun r : Option α => match r with
      | some a => (pure (some a) : m (Option α))
      | none => pure none) = pure := by
    funext r
    cases r <;> rfl
  rw [hpure, bind_pure]

theorem run_step (statement : σ) :
    (Code.step statement .pass).run holds perform = perform statement :=
  bind_answer _

/-- What comes after a fork is done if no branch answers. -/
theorem run_fork_next (test : τ) (yes no next : Code τ σ) :
    (Code.fork test yes no next).run holds perform
      = ((Code.fork test yes no .pass).run holds perform >>= fun r => match r with
        | some a => pure (some a)
        | none => next.run holds perform) := by
  rw [Code.run, Code.run, bind_assoc]
  congr 1
  funext b
  exact congrArg (· >>= _) (bind_answer _).symm

theorem run_fork_bind (test : τ) (yes no : Code τ σ) :
    (Code.fork test yes no .pass).run holds perform
      = (holds test >>= fun b => if b then yes.run holds perform else no.run holds perform) := by
  rw [Code.run]
  congr 1
  funext b
  exact bind_answer _

theorem run_fork {test : τ} {yes no : Code τ σ} {b : Bool} (h : holds test = pure b) :
    (Code.fork test yes no .pass).run holds perform
      = if b then yes.run holds perform else no.run holds perform := by
  rw [run_fork_bind, h, pure_bind]

end

end OverloadTables.Script
