import OverloadTables.Document.Source
import OverloadTables.Proofs.Script.Reader

/-!
# The dispatcher as a program

A function of `name` is read line by line: clauses with conditions on `name` and on its length,
assignments of the length, and answers with two numbers.  Whatever else stands on a line is refused.

* `Script.dispatcherReader`   how its lines are read;
* `Script.holds`, `Script.perform`   what conditions and statements do for a subject;
* `Script.call ls s`       the answer of the function whose lines are `ls` for `s`;
* `Reader.line?_render`    a written line read back.
-/

namespace OverloadTables.Script

/-! ## reading -/

inductive Statement where
  /-- The length becomes that of the subject. -/
  | measure
  | answer (e : Extent)
  deriving DecidableEq, Repr

def measure? (cs : List Char) : Option Statement := do
  let cs ← skip "length = len(name)".toList cs
  if cs = [] then some .measure else none

def answer? (cs : List Char) : Option Statement := do
  let cs ← skip "return (".toList cs
  let (start, cs) ← number? cs
  let cs ← skip ", ".toList cs
  let (count, cs) ← number? cs
  let cs ← skip ")".toList cs
  if cs = [] then some (.answer ⟨start, count⟩) else none

def statement? (cs : List Char) : Option Statement := measure? cs <|> answer? cs

def notText? (cs : List Char) : Option Condition := do
  let cs ← skip "not isinstance(name, str)".toList cs
  if cs = [] then some .notText else none

def condition? (cs : List Char) : Option Condition :=
  notText? cs <|> test? Source.dispatchNames cs

/-- How the lines of a dispatcher are read. -/
def dispatcherReader : Reader Condition Statement := ⟨condition?, statement?⟩

/-- The line that begins and ends a docstring. -/
def docMark : String := "\t\"\"\""

/-- The lines below the docstring of a function. -/
def belowDocstring (ls : List String) : List String :=
  ((ls.dropWhile (· ≠ docMark)).tail.dropWhile (· ≠ docMark)).tail

/-! ## running -/

inductive Fault where
  /-- The lines are no function that is understood here. -/
  | malformed
  /-- The length is asked for before it was assigned. -/
  | unbound
  /-- A position is not one of the subject. -/
  | outOfRange
  deriving DecidableEq, Repr

/-- A step of a function, which may assign the length. -/
abbrev Step := StateT (Option Nat) (Except Fault)

/-- A condition on the subject `s`, which is a text. -/
def holds (s : List Char) : Condition → Step Bool
  | .notText => pure false
  | .length n => do
    match ← get with
    | none => throw .unbound
    | some k => pure (k = n)
  | .item position text =>
    match s[position]? with
    | none => throw .outOfRange
    | some c => pure ([c] = text)
  | .slice start stop text => pure ((s.take stop).drop start = text)
  | .tail start text => pure (s.drop start = text)

/-- A statement for the subject `s`; an answer ends the function. -/
def perform (s : List Char) : Statement → Step (Option Extent)
  | .measure => do
    set (some s.length)
    pure none
  | .answer e => pure (some e)

/-- The answer of a function for a subject; none if it ends without one. -/
def call (ls : List String) (s : String) : Except Fault (Option Extent) :=
  match dispatcherReader.program? (belowDocstring ls) with
  | none => .error .malformed
  | some code => (code.run (holds s.toList) (perform s.toList)).run' none

/-- A test that is settled in a state. -/
theorem run_fork_state {s : List Char} {σ α : Type} {perform : σ → Step (Option α)}
    {test : Condition} {b : Bool} {st : Option Nat} (h : holds s test st = .ok (b, st))
    (yes no : Code Condition σ) :
    (Code.fork test yes no .pass).run (holds s) perform st
      = if b then yes.run (holds s) perform st else no.run (holds s) perform st := by
  rw [run_fork_bind]
  show (holds s test st >>= fun p => (if p.1 then yes.run (holds s) perform
    else no.run (holds s) perform) p.2) = _
  rw [h]
  cases b <;> rfl

/-! ## written lines read back -/

theorem variables_dispatchNames : Variables Source.dispatchNames := ⟨rfl, rfl, by decide⟩

/-- A written test is read as its condition. -/
theorem condition?_render (t : Dispatch.Test) :
    condition? (t.render Source.dispatchNames).toList = some (ofTest t) := by
  have hnot : notText? (t.render Source.dispatchNames).toList = none := by
    rcases render_cases Source.dispatchNames t with ⟨k, rfl⟩ | ⟨i, cs, -, htext⟩
    · rw [Dispatch.Test.render, String.toList_append, String.toList_append]
      rfl
    · rw [htext]
      rfl
  rw [condition?, hnot, test?_render variables_dispatchNames]
  rfl

section
variable {σ : Type}

/-- What a line says of the subject, its statement given by `mean`. -/
def ofContent (mean : String → σ) : Dispatch.Content → Content Condition σ
  | .ifTest t => .opens (ofTest t)
  | .elifTest t => .continues (ofTest t)
  | .statement body => .does (mean body)

/-- A line behind `indent` tabs. -/
def ofLine (indent : Nat) (mean : String → σ) (l : Dispatch.Line) : Line Condition σ :=
  ⟨indent + l.depth, ofContent mean l.content⟩

variable {n : Dispatch.Names}

namespace Reader

/-! A reader that reads every written test reads every written line. -/

variable {r : Reader Condition σ} (hr : ∀ t, r.test (t.render n).toList = some (ofTest t))
  {mean : String → σ}
include hr

theorem content?_render (c : Dispatch.Content)
    (hc : ∀ body, c = .statement body → r.Does body (mean body)) :
    r.content? (c.render n).toList = some (ofContent mean c) ∧
      isBlank (c.render n) = false ∧ (c.render n).toList.head? ≠ some '\t' := by
  have hcolon : ":".toList = [':'] := rfl
  have hi : some 'i' ≠ some '\t' := by decide
  have he : some 'e' ≠ some '\t' := by decide
  cases c with
  | ifTest t =>
    rw [Dispatch.Content.render, isBlank, String.toList_append, String.toList_append, hcolon,
      List.append_assoc]
    exact ⟨r.content?_opens (hr t), rfl, hi⟩
  | elifTest t =>
    rw [Dispatch.Content.render, isBlank, String.toList_append, String.toList_append, hcolon,
      List.append_assoc]
    exact ⟨r.content?_continues (hr t), rfl, he⟩
  | statement body =>
    have hbody := hc body rfl
    exact ⟨hbody.content, hbody.shown, hbody.noTab⟩

variable {indent : Nat} (hi : n.indent.toList = List.replicate indent '\t')
include hi

/-- **A written line is read as the line.** -/
theorem line?_render (l : Dispatch.Line)
    (hl : ∀ body, l.content = .statement body → r.Does body (mean body)) :
    r.line? (l.render n) = some (ofLine indent mean l) ∧ isBlank (l.render n) = false := by
  obtain ⟨hcontent, hshown, htab⟩ := content?_render hr l.content hl
  have htext : (l.render n).toList
      = List.replicate (indent + l.depth) '\t' ++ (l.content.render n).toList := by
    rw [Dispatch.Line.render, String.toList_append, String.toList_append, hi, String.toList_ofList,
      List.replicate_append_replicate]
  constructor
  · rw [r.line?_tabs _ htext htab, hcontent]
    rfl
  · rw [isBlank] at hshown ⊢
    rw [htext, List.all_append, hshown, Bool.and_false]

theorem lines?_render (ls : List Dispatch.Line)
    (hls : ∀ l ∈ ls, ∀ body, l.content = .statement body → r.Does body (mean body)) :
    ((ls.map (·.render n)).filter fun l => !isBlank l).mapM r.line?
      = some (ls.map (ofLine indent mean)) := by
  induction ls with
  | nil => rfl
  | cons l ls ih =>
    obtain ⟨hline, hshown⟩ := line?_render hr hi l (hls l List.mem_cons_self)
    have hrest := ih fun l' hl' => hls l' (List.mem_cons_of_mem _ hl')
    rw [List.map_cons, List.filter_cons_of_pos (by rw [hshown]; rfl), List.mapM_cons, hline, hrest]
    rfl

end Reader

end

end OverloadTables.Script
