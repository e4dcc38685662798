import OverloadTables.Proofs.Dispatch.Lines
import OverloadTables.Proofs.Script.Outline

/-!
# The lines of a dispatch as part of a function

Lines that tell strings apart stand in a function that has the subject and its length in variables.
Conditions are read by the names of these variables; any other line is a statement, which is kept as
it is written, unless it is the head of a block.

* `Matcher.reader n`       how lines are read where `n` names the variables;
* `Matcher.execute`        what the lines of a text do for a subject;
* `program?_lines`         the lines of a dispatch are read as its chain of clauses.
-/

namespace OverloadTables.Script.Matcher

open Dispatch (Names Case)

/-! ## reading -/

/-- The line is the head of a block with this keyword. -/
def isHead (keyword : String) (cs : List Char) : Bool :=
  (skip keyword.toList cs).any fun cs => cs.getLast? = some ':'

/-- A statement as it is written, in its first column and on a line of its own. -/
def statement? : List Char → Option String
  | [] => none
  | c :: cs =>
    if c ∈ [' ', '\t', '\x0c', '#'] ∨ isHead "if " (c :: cs) ∨ isHead "elif " (c :: cs) then none
    else some (String.ofList (c :: cs))

def reader (n : Names) : Reader Condition String := ⟨test? n, statement?⟩

/-- The program of lines whose outermost ones all stand at a depth; there may be none. -/
def blockAt? (depth : Nat) (ls : List (Line Condition String)) : Option (Code Condition String) :=
  match readOnto ls [] with
  | some [] => some .pass
  | some [b] => if b.depth = depth ∧ b.chain.isNone then some b.code else none
  | _ => none

/-- The program of a text, lines that are blank left out. -/
def program? (n : Names) (depth : Nat) (text : String) : Option (Code Condition String) :=
  (((moduleLines text).filter fun l => !isBlank l).mapM (reader n).line?).bind (blockAt? depth)

/-- What the lines of a text do for a subject, `perform` being what a statement does. -/
def execute {α : Type} (perform : String → Step (Option α)) (n : Names) (depth : Nat)
    (text subject : String) : Step (Option α) :=
  match program? n depth text with
  | none => throw .malformed
  | some code => code.run (holds subject.toList) perform

/-! ## statements -/

/-- A text is a statement on one line. -/
def IsStatement (body : String) : Prop :=
  Text.OneLine body.toList ∧ statement? body.toList = some body

instance (body : String) : Decidable (IsStatement body) :=
  inferInstanceAs (Decidable (_ ∧ _))

theorem clause?_of_not_head (n : Names) {keyword : String} {cs : List Char}
    (h : isHead keyword cs = false) : (reader n).clause? keyword cs = none := by
  rw [isHead] at h
  rw [Reader.clause?]
  cases hskip : skip keyword.toList cs with
  | none => rfl
  | some rest =>
    rw [hskip, Option.any_some, decide_eq_false_iff_not] at h
    exact if_neg h

/-- A statement is read as it is written. -/
theorem IsStatement.does {body : String} (h : IsStatement body) (n : Names) :
    (reader n).Does body body := by
  have hread := h.2
  cases hcs : body.toList with
  | nil =>
    rw [hcs] at hread
    cases hread
  | cons c cs =>
    rw [hcs, statement?] at hread
    split at hread
    · cases hread
    · next hplain =>
      obtain ⟨hfirst, hheads⟩ := not_or.mp hplain
      obtain ⟨hif, helif⟩ := not_or.mp hheads
      simp only [List.mem_cons, not_or] at hfirst
      have hspace : ¬ (c = ' ' ∨ c = '\t') := not_or.mpr ⟨hfirst.1, hfirst.2.1⟩
      refine ⟨?_, ?_, ?_⟩
      · rw [hcs, Reader.content?, clause?_of_not_head n (eq_false_of_ne_true hif),
          clause?_of_not_head n (eq_false_of_ne_true helif)]
        show (statement? (c :: cs)).map Content.does = _
        rw [statement?, if_neg hplain, hread]
        rfl
      · rw [isBlank, hcs, List.all_cons, decide_eq_false hspace]
        rfl
      · rw [hcs]
        exact fun e => hfirst.2.1 (Option.some.inj e)

/-! ## the lines of a dispatch -/

/-- The lines as a text. -/
def textOf (ls : List String) : String := String.ofList (Text.ended ls)

section
variable {n : Names} (hn : Variables n) {depth : Nat}
  (hi : n.indent.toList = List.replicate depth '\t') {cases : List Case}
  (hnodup : (cases.map (·.text)).Nodup) (hbody : ∀ k ∈ cases, IsStatement k.body)
include hn hi hnodup hbody

theorem moduleLines_lines : moduleLines (textOf
    ((Dispatch.linesOfLengths cases true (Dispatch.lengths cases)).map (·.render n)))
      = (Dispatch.linesOfLengths cases true (Dispatch.lengths cases)).map (·.render n) ++ [""] := by
  have htabs : Text.OneLine n.indent.toList := by
    rw [hi]
    intro c hc
    rw [List.eq_of_mem_replicate hc]
    decide
  refine moduleLines_ended (String.toList_ofList) fun text htext => ?_
  obtain ⟨l, hl, rfl⟩ := List.mem_map.mp htext
  exact Dispatch.oneLine_line (Text.oneLine_of_identifier hn.subject)
    (Text.oneLine_of_identifier hn.length) htabs
    (Dispatch.linesOfLengths_bodies hnodup (fun body => Text.OneLine body.toList) true
      (fun k hk => (hbody k hk).1) (fun m hm => Dispatch.ofLength_ne_nil hm) l hl)

/-- **The lines of a dispatch are read as its chain of clauses.** -/
theorem program?_lines : program? n depth (textOf
    ((Dispatch.linesOfLengths cases true (Dispatch.lengths cases)).map (·.render n)))
      = some (Dispatch.codeOfLengths id cases .pass (Dispatch.lengths cases)) := by
  have hlines : (((Dispatch.linesOfLengths cases true (Dispatch.lengths cases)).map
      (·.render n)).filter fun l => !isBlank l).mapM (reader n).line? = some
        ((Dispatch.linesOfLengths cases true (Dispatch.lengths cases)).map (ofLine depth id)) :=
    Reader.lines?_render (r := reader n) (test?_render hn) hi _
      (Dispatch.linesOfLengths_bodies hnodup (fun body => (reader n).Does body body) true
        (fun k hk => (hbody k hk).does n) fun m hm => Dispatch.ofLength_ne_nil hm)
  have hend : ([""].filter fun l => !isBlank l) = [] := rfl
  rw [program?, moduleLines_lines hn hi hnodup hbody, List.filter_append, hend, List.append_nil,
    hlines, Option.bind_some, blockAt?]
  by_cases hne : cases = []
  · rw [hne]
    rfl
  · have hread := Dispatch.readOnto_lines id hnodup depth hne
      (show atDepth depth [] = some (⟨depth, none, Code.pass⟩, []) from rfl)
    rw [hread]
    exact if_pos ⟨rfl, rfl⟩

end

end OverloadTables.Script.Matcher
