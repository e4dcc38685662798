import OverloadTables.Proofs.Script.Reader
import OverloadTables.SemanticType.Projection
import OverloadTables.Text.Identifier

/-!
# The projector as a program

A function of a context `ctx` and a descriptor `ty` is read line by line: clauses that ask for the
base, the width and the pointer of `ty`, assignments of what `ctx` answers to `rt`, and the answer
`rt`.  Whatever else stands on a line is refused.

* `Projector.program?`     the program of a function;
* `does_void`, `does_builtin` and the like   what the statements of a projector do;
* `Projector.holds`, `Projector.perform`   what tests and statements do for a descriptor;
* `Projector.call`         what a function asks of its context, and its answer;
* `Asks`                   a program that asks nothing but what is said;
* `asks_chain`             a chain over base types asks for the first that is met.
-/

namespace OverloadTables.Script.Projector

/-! ## reading -/

inductive Test where
  /-- The base has the number of a member of the enumeration. -/
  | base (member : String)
  | wide
  | pointer
  deriving DecidableEq, Repr

inductive Action where
  /-- A docstring does nothing. -/
  | note
  | void
  | builtin (name : String)
  | vector
  | qualify
  | pointer
  | answer
  deriving DecidableEq, Repr

def test? (cs : List Char) : Option Test :=
  if cs = "ty.vector_width > 0".toList then some .wide
  else if cs = "ty.is_pointer".toList then some .pointer
  else do
    let member ← skip "ty.type_id == TypeID.".toList cs
    if Text.isIdentifierChars member then some (.base (String.ofList member)) else none

/-- A docstring without escapes on one line. -/
def note? (cs : List Char) : Option Action := do
  let cs ← skip "\"\"\"".toList cs
  let rest := cs.dropWhile fun c => c ≠ '"' && c ≠ '\\'
  if rest = "\"\"\"".toList then some .note else none

def builtin? (cs : List Char) : Option Action := do
  let cs ← skip "rt = ctx.ensure_builtin(".toList cs
  let (name, cs) ← readLiteral cs
  if cs = ")".toList then some (.builtin (String.ofList name)) else none

def action? (cs : List Char) : Option Action :=
  if cs = "rt = ctx.ensure_void()".toList then some .void
  else if cs = "rt = ctx.ensure_ext_vector(rt, ty.vector_width)".toList then some .vector
  else if cs = "rt = ctx.ensure_addr_space_qual(rt, ty.addr_space)".toList then some .qualify
  else if cs = "rt = ctx.ensure_pointer(rt)".toList then some .pointer
  else if cs = "return rt".toList then some .answer
  else builtin? cs <|> note? cs

def reader : Reader Test Action := ⟨test?, action?⟩

def head : String := "def project_type(ctx: Any, ty: SignatureType) -> Any:"

/-- The program of a function with these lines, of which blank ones stand above its head. -/
def program? (ls : List String) : Option (Code Test Action) :=
  match ls.dropWhile isBlank with
  | [] => none
  | first :: body => if first = head then reader.program? body else none

/-! ## lines of a projector

A literal is an `ofList` of its letters, so that `String.toList_ofList` gives them without decoding
it, and whole texts are compared as strings. -/

theorem action?_text (text : String) : action? text.toList
    = if text = "rt = ctx.ensure_void()" then some .void
      else if text = "rt = ctx.ensure_ext_vector(rt, ty.vector_width)" then some .vector
      else if text = "rt = ctx.ensure_addr_space_qual(rt, ty.addr_space)" then some .qualify
      else if text = "rt = ctx.ensure_pointer(rt)" then some .pointer
      else if text = "return rt" then some .answer
      else builtin? text.toList <|> note? text.toList := by
  simp only [action?, String.toList_inj]

theorem test?_text (text : String) : test? text.toList
    = if text = "ty.vector_width > 0" then some .wide
      else if text = "ty.is_pointer" then some .pointer
      else (skip "ty.type_id == TypeID.".toList text.toList).bind fun member =>
        if Text.isIdentifierChars member then some (.base (String.ofList member)) else none := by
  simp only [test?, String.toList_inj]
  rfl

theorem does_of_action {text : String} {s : Action} (h : action? text.toList = some s)
    (hhead : text.toList.head? = some 'r') : reader.Does text s := .of_head h hhead (by decide)

theorem does_void : reader.Does "rt = ctx.ensure_void()" .void :=
  does_of_action ((action?_text _).trans (by simp)) (by rw [String.toList_ofList]; rfl)

theorem does_vector : reader.Does "rt = ctx.ensure_ext_vector(rt, ty.vector_width)" .vector :=
  does_of_action ((action?_text _).trans (by simp)) (by rw [String.toList_ofList]; rfl)

theorem does_qualify :
    reader.Does "rt = ctx.ensure_addr_space_qual(rt, ty.addr_space)" .qualify :=
  does_of_action ((action?_text _).trans (by simp)) (by rw [String.toList_ofList]; rfl)

theorem does_pointer : reader.Does "rt = ctx.ensure_pointer(rt)" .pointer :=
  does_of_action ((action?_text _).trans (by simp)) (by rw [String.toList_ofList]; rfl)

theorem does_answer : reader.Does "return rt" .answer :=
  does_of_action ((action?_text _).trans (by simp)) (by rw [String.toList_ofList]; rfl)

theorem skip_eq {p cs : List Char} {rest : Option (List Char)} (h : skip p cs = rest) :
    skip (String.ofList p).toList (String.ofList cs).toList = rest := by
  rw [String.toList_ofList, String.toList_ofList, h]

/-- A text that does not begin with `p` is none that does. -/
theorem append_ne {p text : String} (h : skip p.toList text.toList = none) (rest : String) :
    p ++ rest ≠ text := by
  rintro rfl
  rw [String.toList_append, skip_append] at h
  cases h

theorem builtin?_quote (concrete : String) :
    builtin? ("rt = ctx.ensure_builtin(" ++ (Text.quote concrete ++ ")")).toList
      = some (.builtin concrete) := by
  have hread : readLiteral (Text.quoteChars concrete.toList ++ [')'])
      = some (concrete.toList, [')']) := by
    refine readLiteral_quoteChars _ _ fun h => ?_
    rcases isQuote_quoteMark concrete.toList with hq | hq <;> rw [hq] at h <;> cases h
  have hquote : (Text.quote concrete).toList = Text.quoteChars concrete.toList :=
    String.toList_ofList
  have hclose : ")".toList = [')'] := rfl
  rw [String.toList_append, String.toList_append, hquote, hclose, builtin?, skip_append,
    Option.bind_eq_bind, Option.bind_some, hread]
  show some (Action.builtin (String.ofList concrete.toList)) = _
  rw [String.ofList_toList]

theorem does_builtin (concrete : String) :
    reader.Does ("rt = ctx.ensure_builtin(" ++ (Text.quote concrete ++ ")")) (.builtin concrete) := by
  have hvoid : skip "rt = ctx.ensure_builtin(".toList
      "rt = ctx.ensure_void()".toList = none := skip_eq rfl
  have hvector : skip "rt = ctx.ensure_builtin(".toList
      "rt = ctx.ensure_ext_vector(rt, ty.vector_width)".toList = none := skip_eq rfl
  have hqualify : skip "rt = ctx.ensure_builtin(".toList
      "rt = ctx.ensure_addr_space_qual(rt, ty.addr_space)".toList = none := skip_eq rfl
  have hpointer : skip "rt = ctx.ensure_builtin(".toList
      "rt = ctx.ensure_pointer(rt)".toList = none := skip_eq rfl
  have hanswer : skip "rt = ctx.ensure_builtin(".toList
      "return rt".toList = none := skip_eq rfl
  refine does_of_action ?_ ?_
  · rw [action?_text, if_neg (append_ne hvoid _), if_neg (append_ne hvector _),
      if_neg (append_ne hqualify _), if_neg (append_ne hpointer _), if_neg (append_ne hanswer _),
      builtin?_quote]
    rfl
  · rw [String.toList_append, String.toList_ofList]
    rfl

theorem test?_wide : reader.test "ty.vector_width > 0".toList = some .wide := by
  show test? "ty.vector_width > 0".toList = _
  rw [test?_text, if_pos rfl]

theorem test?_pointer : reader.test "ty.is_pointer".toList = some .pointer := by
  show test? "ty.is_pointer".toList = _
  rw [test?_text, if_neg (by simp), if_pos rfl]

theorem test?_base {name : String} (h : Text.isIdentifier name = true) :
    reader.test ("ty.type_id == TypeID." ++ name).toList = some (.base name) := by
  have hwide : skip "ty.type_id == TypeID.".toList "ty.vector_width > 0".toList = none :=
    skip_eq rfl
  have hpointer : skip "ty.type_id == TypeID.".toList "ty.is_pointer".toList = none :=
    skip_eq rfl
  have hmember : Text.isIdentifierChars name.toList = true := h
  show test? ("ty.type_id == TypeID." ++ name).toList = _
  rw [test?_text, if_neg (append_ne hwide _), if_neg (append_ne hpointer _), String.toList_append,
    skip_append, Option.bind_some, if_pos hmember, String.ofList_toList]

/-! ## running -/

inductive Fault where
  /-- The lines are no function that is understood here. -/
  | malformed
  /-- `rt` is asked for before it was assigned. -/
  | unbound
  /-- The enumeration has no such member. -/
  | noMember
  deriving DecidableEq, Repr

/-- A step of a function, which may ask the context and assign `rt`. -/
abbrev Step (m : Type → Type) (τ : Type) := StateT (Option τ) (ExceptT Fault m)

section
variable {m : Type → Type} [Monad m] {τ : Type}

/-- The end of a step without an answer of the function, with `t` as `rt`. -/
def leave (t : τ) : m (Option τ × Option τ) := pure (none, some t)

/-- The answer of the context becomes `rt`. -/
def assign (x : m τ) : Step m τ (Option τ) := fun _ => ExceptT.lift (x >>= leave)

def bound : Step m τ τ := do
  match ← get with
  | none => throw .unbound
  | some t => pure t

variable (members : List String) (supply : TypeSupplier m τ) (d : Descriptor)

/-- A test on the descriptor `d`.  A member of the enumeration has its position as its number. -/
def holds : Test → Step m τ Bool
  | .base member =>
    if member ∈ members then pure (d.base = members.idxOf member) else throw .noMember
  | .wide => pure (0 < d.width)
  | .pointer => pure d.pointer

/-- A statement for the descriptor `d`; an answer ends the function. -/
def perform : Action → Step m τ (Option τ)
  | .note => pure none
  | .void => assign supply.void
  | .builtin name => assign (supply.builtin name)
  | .vector => do assign (supply.vector (← bound) d.width)
  | .qualify => do assign (supply.qualify (← bound) d.space)
  | .pointer => do assign (supply.pointer (← bound))
  | .answer => do return some (← bound)

/-- What the function with the lines `ls` asks of the context `supply` for the descriptor `d`, and
its answer, where the enumeration has these members. -/
def call (ls : List String) : m (Except Fault (Option τ)) :=
  match program? ls with
  | none => pure (.error .malformed)
  | some code => ((code.run (holds members d) (perform supply d)).run' none).run

end

/-! ## programs that ask -/

section
variable {m : Type → Type} [Monad m] {τ : Type} {members : List String}
  {supply : TypeSupplier m τ} {d : Descriptor}

variable (members supply d) in
/-- With `st` as `rt` the program asks what `x` asks, and ends with its answer, if it gives one, and
with the last `rt`. -/
def Asks (code : Code Test Action) (st : Option τ) (x : m (Option τ × Option τ)) : Prop :=
  code.run (holds members d) (perform supply d) st = ExceptT.lift x

variable [LawfulMonad m] {next yes no : Code Test Action} {st : Option τ} {t : τ} {x : m τ}
  {k : τ → m (Option τ × Option τ)}

theorem lift_bind {ε α β : Type} (x : m α) (f : α → ExceptT ε m β) :
    (ExceptT.lift x >>= f) = ExceptT.mk (x >>= fun a => (f a).run) := by
  apply ExceptT.ext
  rw [ExceptT.run_bind_lift]
  rfl

theorem lift_pure {α : Type} (a : α) :
    (ExceptT.lift (pure a : m α) : ExceptT Fault m α) = pure a := by
  apply ExceptT.ext
  rw [ExceptT.run_lift, map_pure, ExceptT.run_pure]

theorem asks_pass : Asks members supply d .pass (some t) (leave t) := by
  unfold Asks leave
  rw [lift_pure]
  rfl

/-- What is done after a part that leaves the answer of `x` as `rt`. -/
theorem asks_after {part : Step m τ (Option τ)}
    (hpart : part st = ExceptT.lift (x >>= leave))
    (hnext : ∀ t', Asks members supply d next (some t') (k t')) :
    (part >>= fun r => match r with
      | some a => (pure (some a) : Step m τ (Option τ))
      | none => next.run (holds members d) (perform supply d)) st = ExceptT.lift (x >>= k) := by
  show (part st >>= _) = _
  rw [hpart, lift_bind, bind_assoc]
  apply ExceptT.ext
  rw [ExceptT.run_mk, ExceptT.run_lift, map_bind]
  congr 1
  funext t'
  rw [leave, pure_bind]
  show (next.run (holds members d) (perform supply d) (some t')).run = _
  rw [hnext t', ExceptT.run_lift]

theorem asks_step {s : Action} (hs : perform supply d s st = assign x st)
    (hnext : ∀ t', Asks members supply d next (some t') (k t')) :
    Asks members supply d (.step s next) st (x >>= k) :=
  asks_after hs hnext

theorem asks_note {y : m (Option τ × Option τ)} (h : Asks members supply d next st y) :
    Asks members supply d (.step .note next) st y := by
  unfold Asks at h ⊢
  rw [Code.run, perform, pure_bind]
  exact h

theorem bound_bind {α : Type} (f : τ → Step m τ α) : (bound >>= f) (some t) = f t (some t) := by
  have hbound : (bound : Step m τ τ) (some t) = pure (t, some t) := by
    show ((pure (some t, some t) : ExceptT Fault m (Option τ × Option τ)) >>= _) = _
    rw [pure_bind]
    rfl
  show (bound (some t) >>= fun p => f p.1 p.2) = _
  rw [hbound, pure_bind]

theorem asks_answer :
    Asks members supply d (.step .answer next) (some t) (pure (some t, some t)) := by
  unfold Asks
  rw [Code.run, perform, bind_assoc, bound_bind, pure_bind, lift_pure]
  rfl

theorem asks_fork {test : Test} {b : Bool} (hb : holds members d test = (pure b : Step m τ Bool))
    (hbranch : Asks members supply d (if b then yes else no) (some t) (x >>= leave))
    (hnext : ∀ t', Asks members supply d next (some t') (k t')) :
    Asks members supply d (.fork test yes no next) (some t) (x >>= k) := by
  unfold Asks
  rw [Code.run, hb, pure_bind]
  refine asks_after ?_ hnext
  rw [← hbranch]
  cases b <;> rfl

end

/-! ## the projector's parts -/

section
variable {m : Type → Type} [Monad m] [LawfulMonad m] {τ : Type} {members : List String}
  {supply : TypeSupplier m τ} {d : Descriptor} {next : Code Test Action} {t : τ}
  {k : τ → m (Option τ × Option τ)}

/-- The chain over base types with their concrete types. -/
def chain : List (String × String) → Code Test Action → Code Test Action
  | [], next => next
  | (name, concrete) :: rest, next =>
    .fork (.base name) (.step (.builtin concrete) .pass) (chain rest .pass) next

variable (supply) in
/-- What is asked for a base type with this concrete type, if it has one. -/
def askConcrete (t : τ) : Option String → m τ
  | none => pure t
  | some name => supply.builtin name

/-- **A chain asks for the concrete type of the base with the number of the descriptor.** -/
theorem asks_chain {pairs : List (String × String)} (hmem : ∀ p ∈ pairs, p.1 ∈ members)
    (hnext : ∀ t', Asks members supply d next (some t') (k t')) :
    Asks members supply d (chain pairs next) (some t)
      (askConcrete supply t ((pairs.find? fun p => d.base = members.idxOf p.1).map (·.2))
        >>= k) := by
  induction pairs generalizing next k with
  | nil =>
    show Asks members supply d next (some t) (pure t >>= k)
    rw [pure_bind]
    exact hnext t
  | cons p pairs ih =>
    obtain ⟨name, concrete⟩ := p
    obtain ⟨hname, hmem⟩ := List.forall_mem_cons.mp hmem
    have hholds : holds members d (.base name)
        = (pure (d.base = members.idxOf name) : Step m τ Bool) := by
      rw [holds, if_pos hname]
    refine asks_fork hholds ?_ hnext
    -- the rest of the chain stands in the branch of this clause, with nothing after it
    rw [List.find?_cons]
    by_cases hb : d.base = members.idxOf name
    · rw [decide_eq_true hb, if_pos rfl]
      exact asks_step rfl fun _ => asks_pass
    · rw [decide_eq_false hb, if_neg Bool.false_ne_true]
      exact ih hmem fun _ => asks_pass

def tail : Code Test Action :=
  .fork .wide (.step .vector .pass) .pass
    (.fork .pointer (.step .qualify (.step .pointer .pass)) .pass (.step .answer .pass))

variable (supply d) in
/-- What is asked after the base: the vector, and the pointer to the qualified type. -/
def askWidth (t : τ) : m τ := if 0 < d.width then supply.vector t d.width else pure t

variable (supply d) in
def askPointer (t : τ) : m τ :=
  if d.pointer then supply.qualify t d.space >>= supply.pointer else pure t

theorem asks_tail : Asks members supply d tail (some t)
    (askWidth supply d t >>= fun t => askPointer supply d t >>= fun t => pure (some t, some t)) := by
  have hwide : holds members d .wide = (pure (0 < d.width) : Step m τ Bool) := rfl
  have hpointer : holds members d .pointer = (pure d.pointer : Step m τ Bool) := rfl
  refine asks_fork hwide ?_ fun t => asks_fork hpointer ?_ fun t => asks_answer
  · by_cases hw : 0 < d.width
    · rw [decide_eq_true hw, if_pos rfl, askWidth, if_pos hw]
      exact asks_step (bound_bind _) fun _ => asks_pass
    · rw [decide_eq_false hw, if_neg Bool.false_ne_true, askWidth, if_neg hw, pure_bind]
      exact asks_pass
  · cases hp : d.pointer with
    | true =>
      rw [if_pos rfl, askPointer, if_pos hp, bind_assoc]
      exact asks_step (bound_bind _) fun _ => asks_step (bound_bind _) fun _ => asks_pass
    | false =>
      rw [if_neg Bool.false_ne_true, askPointer, hp, if_neg Bool.false_ne_true, pure_bind]
      exact asks_pass

theorem project_eq (concretes : List (Option String)) : project supply concretes d
    = supply.void >>= fun t => askConcrete supply t (concreteOf concretes d.base) >>= fun t =>
        askWidth supply d t >>= askPointer supply d := by
  unfold project askConcrete askWidth askPointer
  cases concreteOf concretes d.base <;> by_cases hw : 0 < d.width <;> cases d.pointer <;>
    simp [hw]

/-- The program of a projector with the chain over `pairs`. -/
def code (pairs : List (String × String)) : Code Test Action :=
  .step .note (.step .void (chain pairs tail))

/-- **The program of a projector asks what `project` asks**, if its chain finds the concrete type
of the base. -/
theorem run_code {pairs : List (String × String)} {concretes : List (Option String)}
    (hmem : ∀ p ∈ pairs, p.1 ∈ members)
    (hfind : (pairs.find? fun p => d.base = members.idxOf p.1).map (·.2)
      = concreteOf concretes d.base) :
    (((code pairs).run (holds members d) (perform supply d)).run' none).run
      = (fun t => .ok (some t)) <$> project supply concretes d := by
  have hasks : Asks members supply d (code pairs) none
      (project supply concretes d >>= fun t => pure (some t, some t)) := by
    rw [project_eq, ← hfind]
    simp only [bind_assoc]
    exact asks_note (asks_step rfl fun t => asks_chain hmem fun t => asks_tail)
  show (Prod.fst <$> (code pairs).run (holds members d) (perform supply d) none).run = _
  rw [hasks, ExceptT.run_map, ExceptT.run_lift, bind_pure_comp, Functor.map_map, Functor.map_map]
  rfl

end

end OverloadTables.Script.Projector
