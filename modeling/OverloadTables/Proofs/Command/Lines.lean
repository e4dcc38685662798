import OverloadTables.Proofs.Command.Report
import OverloadTables.Proofs.Tables.Shown

/-!
# The lines of a report

A report for a reader has a line for the message and one a note, unless a text of the catalog that
is shown as it is ends a line.

* `Rejection.lines r`      the lines of a rejection as they are meant;
* `toList_human`           the report is these lines, with a line end after each;
* `Rejection.Shown file r` what is known of what is shown for a file;
* `Rejects.shown`          it is known of every rejection;
* `report_lines`           what a run writes on the error output.
-/

namespace OverloadTables

open Text

namespace Rejection

/-- What the first line begins with. -/
def head (r : Rejection) : String := r.place.fileName ++ ":?:?: error: [" ++ r.fault.code ++ "] "

/-- The path behind the message. -/
def tail (r : Rejection) : String :=
  match r.place.path with
  | none => ""
  | some p => if p = "" then "" else " (at " ++ p ++ ")"

/-- A note as a line. -/
def noteLine (n : LooseText) : String := "  note: " ++ n.shown

/-- One line for the message and one a note. -/
def lines (r : Rejection) : List String :=
  (r.head ++ (r.fault.message.shown ++ r.tail)) :: r.fault.notes.map noteLine

theorem code_shown (f : Fault) : f.code ≠ "" ∧ OneLine f.code.toList := by
  cases f with
  | _ =>
    delta Fault.code
    dsimp only
    decide

theorem human_eq (r : Rejection) : r.diagnostic.human.shown
    = r.head ++ (r.fault.message.shown ++ r.tail)
      ++ String.join (r.fault.notes.map fun n => "\n  note: " ++ n.shown) := by
  have hcode : (if r.fault.code = "" then (.text "" : LooseText)
      else .text "[" ++ .text r.fault.code ++ .text "] ") = .text ("[" ++ r.fault.code ++ "] ") :=
    if_neg (code_shown r.fault).1
  have hhead : ":?:?: error: [" = ":?:?: " ++ ("error" ++ (": " ++ "[")) := rfl
  have hnote (n : LooseText) : (.text "\n  note: " ++ n : LooseText).shown
      = "\n  note: " ++ n.shown := LooseText.shown_append ..
  rw [Diagnostic.human, head, tail, hhead]
  simp only [LooseText.shown_append, LooseText.shown_join, List.map_map, Function.comp_def, hnote,
    Rejection.diagnostic, hcode, LooseText.shown_text, String.append_assoc]
  generalize r.place.path = path
  cases path with
  | none => rfl
  | some p =>
    dsimp only
    split
    · rfl
    · rfl

/-- A line end in front of each note and one at the end are one at the start and one after each. -/
theorem ended_notes (ns : List LooseText) :
    ns.flatMap (fun n => ("\n  note: " ++ n.shown).toList) ++ ['\n']
      = '\n' :: ended (ns.map noteLine) := by
  induction ns with
  | nil => rfl
  | cons n ns ih =>
    rw [List.flatMap_cons, List.append_assoc, ih, List.map_cons, ended_cons, noteLine,
      String.toList_append, String.toList_append]
    rfl

/-- **The report is the lines, with a line end after each.** -/
theorem toList_human (r : Rejection) :
    (r.diagnostic.human.shown ++ "\n").toList = ended r.lines := by
  rw [human_eq, String.toList_append, String.toList_append, String.toList_join, List.append_assoc,
    List.flatMap_map, lines, ended_cons, ← ended_notes]
  rfl

/-- A note is on one line, or its last character is no line end. -/
theorem oneLine_note {f : Fault} (hsettled : f.Settled) {n : LooseText} (hn : n ∈ f.notes)
    (h : Contained (noteLine n).toList) : n.OneLine := by
  cases f with
  | unsupportedHeader =>
    obtain rfl := List.mem_singleton.mp hn
    exact LooseText.oneLine_text.mpr (oneLine_ofList (by decide))
  | typeConflict key first =>
    obtain rfl := List.mem_singleton.mp hn
    have hfirst : (LooseText.text first.text).OneLine := hsettled _ (List.mem_singleton_self _)
    exact LooseText.oneLine_append.mpr
      ⟨LooseText.oneLine_text.mpr (oneLine_ofList (by decide)), hfirst⟩
  | concreteConflict name first second owner =>
    obtain rfl := List.mem_singleton.mp hn
    have hclosed : (noteLine ("first mapping from type '" ++ owner ++ "'")).toList
        = (noteLine ("first mapping from type '" ++ owner)).toList ++ ['\x27'] := by
      simp only [noteLine, LooseText.shown_append, String.toList_append, List.append_assoc]
      rfl
    have hline := oneLine_of_contained (hclosed ▸ h) (by decide)
    rw [← hclosed, noteLine, oneLine_str] at hline
    exact LooseText.oneLine_shown.mp hline.2
  | _ => exact absurd hn List.not_mem_nil

/-! ## what is shown -/

/-- What is known of what is shown of a rejection for a file: it has the name of the file, and the
path is on one line, unless nothing of the document is shown. -/
structure Shown (file : String) (r : Rejection) : Prop where
  file : r.place.fileName = file
  settled : r.fault.Settled
  tail : (r.tail = "" ∧ r.fault.unchecked = []) ∨
    ∃ text : String, r.tail = " (at " ++ text ++ ")" ∧ OneLine text.toList

section
variable {file : String} {r : Rejection} (h : Shown file r)
include h

theorem Shown.oneLine_head (hfile : OneLine file.toList) : OneLine r.head.toList := by
  simp only [head, oneLine_str, h.file, hfile, (code_shown r.fault).2, and_true, true_and]
  constructor <;> exact oneLine_ofList (by decide)

theorem Shown.oneLine_tail : OneLine r.tail.toList := by
  rcases h.tail with ⟨htail, -⟩ | ⟨text, htail, htext⟩
  · rw [htail]
    exact oneLine_nil
  · simp only [htail, oneLine_str, htext, and_true]
    constructor <;> exact oneLine_ofList (by decide)

/-- If all texts are on one line, the lines are. -/
theorem Shown.oneLine_lines (hfile : OneLine file.toList)
    (hshown : ∀ text ∈ r.fault.unchecked, text.OneLine) :
    ∀ l ∈ r.lines, OneLine l.toList := by
  obtain ⟨hmessage, hnotes⟩ := Fault.oneLine_of_shown h.settled hshown
  refine List.forall_mem_cons.mpr ⟨?_, List.forall_mem_map.mpr fun n hn => ?_⟩
  · rw [oneLine_str, oneLine_str]
    exact ⟨h.oneLine_head hfile, LooseText.oneLine_shown.mpr hmessage, h.oneLine_tail⟩
  · rw [noteLine, oneLine_str]
    exact ⟨oneLine_ofList (by decide), LooseText.oneLine_shown.mpr (hnotes n hn)⟩

/-- If the lines are contained, all texts are on one line. -/
theorem Shown.oneLine_of_contained (hlines : ∀ l ∈ r.lines, Contained l.toList) :
    ∀ text ∈ r.fault.unchecked, text.OneLine := by
  obtain ⟨hfirst, hnotes⟩ := List.forall_mem_cons.mp hlines
  rcases h.tail with ⟨-, hnone⟩ | ⟨text, htail, -⟩
  · rw [hnone]
    exact List.forall_mem_nil _
  -- the first line ends with a bracket
  have hclosed : (r.head ++ (r.fault.message.shown ++ r.tail)).toList
      = (r.head ++ (r.fault.message.shown ++ (" (at " ++ text))).toList ++ [')'] := by
    rw [htail]
    simp only [String.toList_append, List.append_assoc]
    rfl
  rw [hclosed] at hfirst
  have hline := Text.oneLine_of_contained hfirst (by decide)
  rw [← hclosed, oneLine_str, oneLine_str] at hline
  exact Fault.unchecked_of_oneLine (LooseText.oneLine_shown.mp hline.2.1) fun n hn =>
    oneLine_note h.settled hn (List.forall_mem_map.mp hnotes n hn)

/-- The lines of the report: the first one begins as it is meant, and the others are as many as the
notes exactly if the unchecked texts are on one line each. -/
theorem Shown.cut (hfile : OneLine file.toList) : ∃ first more,
    cutLines (r.diagnostic.human.shown ++ "\n").toList = first :: (more ++ [[]]) ∧
    r.head.toList <+: first ∧
    (more.length = r.fault.notes.length ↔ ∀ text ∈ r.fault.unchecked, text.OneLine) ∧
    ((∀ text ∈ r.fault.unchecked, text.OneLine) →
      more = r.fault.notes.map fun n => (noteLine n).toList) := by
  obtain ⟨front, hcut, hle, hlength⟩ := cutLines_ended_length r.lines
  obtain ⟨first, more, rfl⟩ : ∃ first more, front = first :: more :=
    List.exists_cons_of_length_pos (Nat.lt_of_lt_of_le (Nat.succ_pos _) hle)
  have hmeant : (∀ text ∈ r.fault.unchecked, text.OneLine) →
      more = r.fault.notes.map fun n => (noteLine n).toList := by
    intro hshown
    have hwhole := cutLines_ended (h.oneLine_lines hfile hshown)
    rw [hcut] at hwhole
    have htail := (List.cons.inj (List.append_cancel_right hwhole)).2
    rw [htail, List.map_map]
    rfl
  refine ⟨first, more, ?_, ?_, ⟨fun hmore => ?_, fun hshown => ?_⟩, hmeant⟩
  · rw [toList_human, hcut]
    rfl
  · -- the head is on one line, so the first line goes on behind it
    have hended : ended r.lines = r.head.toList ++ ((r.fault.message.shown ++ r.tail).toList
        ++ '\n' :: ended (r.fault.notes.map noteLine)) := by
      rw [lines, ended_cons, String.toList_append, List.append_assoc]
    obtain ⟨l, ls, hl⟩ := List.exists_cons_of_ne_nil (cutLines_ne_nil
      ((r.fault.message.shown ++ r.tail).toList ++ '\n' :: ended (r.fault.notes.map noteLine)))
    rw [hended, cutLines_prefix (h.oneLine_head hfile) hl] at hcut
    exact ⟨l, (List.cons.inj hcut).1⟩
  · refine h.oneLine_of_contained (hlength ?_)
    rw [lines, List.length_cons, List.length_cons, hmore, List.length_map]
  · rw [hmeant hshown, List.length_map]

end

end Rejection

/-! ## rejections of a file -/

section
variable {file : String} {bytes : ByteArray} {r : Rejection}

theorem Rejects.shown (hfile : OneLine file.toList) (hne : file ≠ "") (h : Rejects file bytes r) :
    r.Shown file := by
  have hname (path : Option String) : Place.fileName ⟨some file, path⟩ = file := if_neg hne
  rcases h.refused with ⟨e, rfl⟩ | ⟨-, v, -, hrefused⟩
  · exact ⟨hname none, List.forall_mem_nil _, .inl ⟨rfl, rfl⟩⟩
  have hsettled := hrefused.settled (by rw [Place.root, hname]; exact hfile)
  rcases hrefused.path with ⟨hplace, hnone⟩ | ⟨text, hplace, htext, hline⟩
  · refine ⟨hplace ▸ hname none, hsettled, .inl ⟨?_, hnone⟩⟩
    rw [Rejection.tail, hplace]
    rfl
  · refine ⟨hplace ▸ hname (some text), hsettled, .inr ⟨text, ?_, hline⟩⟩
    rw [Rejection.tail, hplace]
    exact if_neg htext

end

namespace Command

theorem Path.toString_ne (p : Path) : p.toString ≠ "" := by
  rw [Path.toString]
  split
  · decide
  · assumption

section
variable {σ : Type} [FileSystem (StateM σ)]

/-- **The lines of a report.**  A run without JSON that ends with the exit code 1 has read a catalog
that is rejected, and written its report on the error output.  The first line begins with the file
and the code.  There is one line more for each note, which begins as a note does, exactly if each
unchecked text that is shown is on one line. -/
theorem report_lines {args : List String} {q : Request} (hq : readRequest args = .ok q)
    (hjson : q.json = false) (hfile : OneLine q.catalog.toString.toList) {s s' : σ}
    {out err : String} (h : (run args : StateM σ _) s = (.finished 1 out err, s')) :
    ∃ bytes r first more, (readFile q.catalog : StateM σ _) s = (.ok bytes, s') ∧
      Rejects q.catalog.toString bytes r ∧ out = "" ∧
      cutLines err.toList = first :: (more ++ [[]]) ∧
      (q.catalog.toString ++ ":?:?: error: [" ++ r.fault.code ++ "] ").toList <+: first ∧
      (more.length = r.fault.notes.length ↔ ∀ text ∈ r.fault.unchecked, text.OneLine) ∧
      ((∀ text ∈ r.fault.unchecked, text.OneLine) →
        more = r.fault.notes.map fun n => ("  note: " ++ n.shown).toList) := by
  obtain ⟨bytes, r, -, hread, hrejects, rfl, rfl⟩ := (run_rejected hq).mp h
  have hshown := hrejects.shown hfile q.catalog.toString_ne
  obtain ⟨first, more, hcut, hhead, hmore, hmeant⟩ := hshown.cut hfile
  rw [Rejection.head, hshown.file] at hhead
  rw [hjson]
  exact ⟨bytes, r, first, more, hread, hrejects, rfl, hcut, hhead, hmore, hmeant⟩

end

/-! ## on volumes -/

/-- A catalog with a type that is declared twice. -/
def twiceContent : Content where
  types := [⟨"A", "int", 0, .default, false, none⟩, ⟨"A", "int", 2, .default, false, none⟩]
  overloads := []
  versions := []
  label := none

def twice : Volume := ⟨[(["c.json"], .file twiceContent.stored)], []⟩

def twiceRejection : Rejection :=
  ⟨.typeConflict "A" ⟨some "c.json", some "types[0]"⟩, ⟨some "c.json", some "types[1]"⟩⟩

theorem twice_rejects : Rejects "c.json" twiceContent.stored twiceRejection :=
  .of_content (by decide) (by decide) rfl rfl

theorem report_lines_twice : ∃ q err first,
    readRequest ["lookup", "c.json", "cos"] = .ok q ∧ q.json = false ∧
    OneLine q.catalog.toString.toList ∧
    (run ["lookup", "c.json", "cos"] : Volume.On Outcome) twice = (.finished 1 "" err, twice) ∧
    cutLines err.toList = [first, "  note: first declared at c.json:types[0]".toList, []] ∧
    "c.json:?:?: error: [E-TYPE-DUP] ".toList <+: first := by
  have hq : readRequest ["lookup", "c.json", "cos"]
      = .ok (.lookup ⟨Path.ofString "c.json", ["cos"], false⟩) := rfl
  have hfile : OneLine (Path.ofString "c.json").toString.toList := by decide
  have hrun : (run ["lookup", "c.json", "cos"] : Volume.On Outcome) twice
      = (.finished 1 "" (rejectionErr false twiceRejection), twice) :=
    (run_rejected hq).mpr ⟨_, twiceRejection, trivial, rfl, twice_rejects, rfl, rfl⟩
  obtain ⟨bytes, r, first, more, hread, hrejects, -, hcut, hhead, -, hmeant⟩ :=
    report_lines hq rfl hfile hrun
  obtain rfl : twiceContent.stored = bytes := Except.ok.inj (congrArg Prod.fst hread)
  obtain rfl := hrejects.unique twice_rejects
  rw [hmeant (by decide)] at hcut
  exact ⟨_, _, first, hq, rfl, hfile, hrun, hcut, hhead⟩

/-- A catalog with a type whose name is no identifier, and goes on behind a line end. -/
def forgedContent : Content where
  types := [⟨"A", "x\nc.json:?:?: error: [E-SIG-EMPTY] forged", 0, .default, false, none⟩]
  overloads := []
  versions := []
  label := none

def forged : Volume := ⟨[(["c.json"], .file forgedContent.stored)], []⟩

def forgedRejection : Rejection :=
  ⟨.invalidTypeName "x\nc.json:?:?: error: [E-SIG-EMPTY] forged",
    ⟨some "c.json", some "types[0].name"⟩⟩

theorem forged_rejects : Rejects "c.json" forgedContent.stored forgedRejection :=
  .of_content (by decide) (by decide) rfl rfl

def forgedLines : List String :=
  ["c.json:?:?: error: [E-CATALOG-FIELD] type name 'x",
    "c.json:?:?: error: [E-SIG-EMPTY] forged' is not a valid identifier (at types[0].name)"]

theorem cutLines_forged : cutLines (rejectionErr false forgedRejection).toList
    = forgedLines.map String.toList ++ [[]] := by
  have htext : rejectionErr false forgedRejection = joinLines forgedLines ++ "\n" := rfl
  have hlines : ∀ l ∈ forgedLines, OneLine l.toList := by
    simp only [forgedLines, List.forall_mem_cons]
    exact ⟨oneLine_ofList (by decide), oneLine_ofList (by decide), List.forall_mem_nil _⟩
  rw [htext, ← cutLines_ended hlines, forgedLines, joinLines_toList]

/-- A fault without notes is told on two lines, the second of which is all but one of its own. -/
theorem report_forged : ∃ q err,
    readRequest ["gen", "c.json"] = .ok q ∧ q.json = false ∧
    OneLine q.catalog.toString.toList ∧
    (run ["gen", "c.json"] : Volume.On Outcome) forged = (.finished 1 "" err, forged) ∧
    Rejects q.catalog.toString forgedContent.stored forgedRejection ∧
    forgedRejection.fault.notes = [] ∧ cutLines err.toList =
      ["c.json:?:?: error: [E-CATALOG-FIELD] type name 'x",
        "c.json:?:?: error: [E-SIG-EMPTY] forged' is not a valid identifier (at types[0].name)"].map
          String.toList ++ [[]] := by
  have hq : readRequest ["gen", "c.json"]
      = .ok (.gen ⟨Path.ofString "c.json", .standardOutput, some .python, false⟩) := rfl
  have hrun : (run ["gen", "c.json"] : Volume.On Outcome) forged
      = (.finished 1 "" (rejectionErr false forgedRejection), forged) :=
    (run_rejected hq).mpr ⟨_, forgedRejection, rfl, rfl, forged_rejects, rfl, rfl⟩
  exact ⟨_, _, hq, rfl, by decide, hrun, forged_rejects, rfl, cutLines_forged⟩

end Command
end OverloadTables
