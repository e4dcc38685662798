import OverloadTables.Proofs.Script.Block
import OverloadTables.Proofs.Script.Condition

/-!
# Lines of a script

A line is a clause with the keyword `if` or `elif`, a test and a colon, or a statement.  Its depth
is the number of tabs in front of it.  What tests and statements there are differs from function to
function.

* `Script.Reader`          how tests and statements are read;
* `Reader.line?`           a line;
* `Reader.program?`        the program of lines, those that are blank left out;
* `Reader.line?_tabs`      a line behind its tabs;
* `Reader.Shows`           a text that is a line;
* `Reader.Does`            a text that is a statement;
* `Reader.content?_opens`, `Reader.content?_continues`   clauses behind their keywords;
* `Reader.shows_opens`, `Reader.shows_continues`, `Reader.Does.shows`   the three kinds of lines.
-/

namespace OverloadTables.Script

def isBlank (text : String) : Bool := text.toList.all fun c => c = ' ' ∨ c = '\t'

/-- How tests and statements are read. -/
structure Reader (τ σ : Type) where
  test : List Char → Option τ
  statement : List Char → Option σ

namespace Reader

variable {τ σ : Type} (r : Reader τ σ)

def clause? (keyword : String) (cs : List Char) : Option τ := do
  let cs ← skip keyword.toList cs
  if cs.getLast? = some ':' then r.test cs.dropLast else none

def content? (cs : List Char) : Option (Content τ σ) :=
  (r.clause? "if " cs).map .opens <|> (r.clause? "elif " cs).map .continues
    <|> (r.statement cs).map .does

/-- A line whose depth is the number of its leading tabs. -/
def line? (text : String) : Option (Line τ σ) :=
  (r.content? (text.toList.dropWhile (· = '\t'))).map fun content =>
    ⟨(text.toList.takeWhile (· = '\t')).length, content⟩

/-- The program of lines below the head of a function. -/
def program? (ls : List String) : Option (Code τ σ) :=
  ((ls.filter fun l => !isBlank l).mapM r.line?).bind (block? 0)

theorem line?_tabs (k : Nat) {text : String} {cs : List Char}
    (htext : text.toList = List.replicate k '\t' ++ cs) (hcs : cs.head? ≠ some '\t') :
    r.line? text = (r.content? cs).map fun content => ⟨k, content⟩ := by
  have htabs : ∀ c ∈ List.replicate k '\t', decide (c = '\t') = true := fun c hc =>
    decide_eq_true (List.eq_of_mem_replicate hc)
  have hnext : cs.takeWhile (· = '\t') = [] ∧ cs.dropWhile (· = '\t') = cs := by
    cases cs with
    | nil => exact ⟨rfl, rfl⟩
    | cons c cs =>
      have hc : c ≠ '\t' := fun e => hcs (congrArg some e)
      simp [hc]
  rw [line?, htext, List.takeWhile_append_of_pos htabs, List.dropWhile_append_of_pos htabs,
    hnext.1, hnext.2, List.append_nil, List.length_replicate]

/-- A text that is the line `l`. -/
structure Shows (text : String) (l : Line τ σ) : Prop where
  line : r.line? text = some l
  shown : isBlank text = false

/-- A text in its first column does `s`. -/
structure Does (text : String) (s : σ) : Prop where
  content : r.content? text.toList = some (.does s)
  shown : isBlank text = false
  noTab : text.toList.head? ≠ some '\t'

namespace Does
variable {r}

/-- A text is a statement if its first letter begins no clause. -/
theorem of_head {text : String} {s : σ} {c : Char} (hs : r.statement text.toList = some s)
    (hhead : text.toList.head? = some c) (hc : c ∉ ['i', 'e', ' ', '\t']) : r.Does text s := by
  obtain ⟨cs, htext⟩ := List.head?_eq_some_iff.mp hhead
  simp only [List.mem_cons, List.not_mem_nil, or_false, not_or] at hc
  obtain ⟨hi, he, hspace, htab⟩ := hc
  refine ⟨?_, ?_, ?_⟩
  · have hif : r.clause? "if " text.toList = none := by
      rw [htext]
      show (skip ('i' :: _) (c :: cs) >>= _) = none
      rw [skip, if_neg hi]
      rfl
    have helif : r.clause? "elif " text.toList = none := by
      rw [htext]
      show (skip ('e' :: _) (c :: cs) >>= _) = none
      rw [skip, if_neg he]
      rfl
    rw [content?, hif, helif, hs]
    rfl
  · rw [isBlank, htext, List.all_cons, decide_eq_false (not_or.mpr ⟨hspace, htab⟩), Bool.false_and]
  · rw [htext]
    exact fun h => htab (Option.some.inj h)

/-- Behind tabs it is the statement at their depth. -/
theorem shows {text : String} {s : σ} (h : r.Does text s) {tabs : String} {k : Nat}
    (htabs : tabs.toList = List.replicate k '\t') : r.Shows (tabs ++ text) ⟨k, .does s⟩ where
  line := by
    rw [r.line?_tabs k (by rw [String.toList_append, htabs]) h.noTab, h.content]
    rfl
  shown := by
    have hshown := h.shown
    rw [isBlank] at hshown ⊢
    rw [String.toList_append, List.all_append, hshown, Bool.and_false]

end Does

variable {r} in
/-- Lines are read one after the other, and blank ones are left out. -/
theorem Shows.cons {text : String} {l : Line τ σ} {ls : List String} {out : List (Line τ σ)}
    (h : r.Shows text l) (hls : (ls.filter fun l => !isBlank l).mapM r.line? = some out) :
    ((text :: ls).filter fun l => !isBlank l).mapM r.line? = some (l :: out) := by
  rw [List.filter_cons_of_pos (by rw [h.shown]; rfl), List.mapM_cons, h.line, hls]
  rfl

theorem shown_blank {ls : List String} {out : List (Line τ σ)}
    (hls : (ls.filter fun l => !isBlank l).mapM r.line? = some out) :
    (("" :: ls).filter fun l => !isBlank l).mapM r.line? = some out := hls

theorem clause?_append (keyword : String) (test : List Char) :
    r.clause? keyword (keyword.toList ++ (test ++ [':'])) = r.test test := by
  rw [clause?, skip_append, Option.bind_eq_bind, Option.bind_some, if_pos List.getLast?_concat,
    List.dropLast_concat]

section
variable {test : List Char} {t : τ} (h : r.test test = some t)
include h

theorem content?_opens : r.content? ("if ".toList ++ (test ++ [':'])) = some (.opens t) := by
  rw [content?, clause?_append, h]
  rfl

theorem content?_continues : r.content? ("elif ".toList ++ (test ++ [':']))
    = some (.continues t) := by
  have hif : r.clause? "if " ("elif ".toList ++ (test ++ [':'])) = none := rfl
  rw [content?, hif, clause?_append, h]
  rfl

end

section
variable {test : String} {t : τ} (h : r.test test.toList = some t) {tabs : String} {k : Nat}
  (htabs : tabs.toList = List.replicate k '\t')
include h htabs

theorem shows_opens : r.Shows (tabs ++ "if " ++ test ++ ":") ⟨k, .opens t⟩ := by
  have htext : (tabs ++ "if " ++ test ++ ":").toList
      = List.replicate k '\t' ++ ("if ".toList ++ (test.toList ++ [':'])) := by
    simp only [String.toList_append, htabs, List.append_assoc]
    rfl
  have hi : some 'i' ≠ some '\t' := by decide
  constructor
  · refine (r.line?_tabs k htext hi).trans ?_
    rw [r.content?_opens h]
    rfl
  · rw [isBlank, htext, List.all_append]
    exact Bool.and_false _

theorem shows_continues : r.Shows (tabs ++ "elif " ++ test ++ ":") ⟨k, .continues t⟩ := by
  have htext : (tabs ++ "elif " ++ test ++ ":").toList
      = List.replicate k '\t' ++ ("elif ".toList ++ (test.toList ++ [':'])) := by
    simp only [String.toList_append, htabs, List.append_assoc]
    rfl
  have he : some 'e' ≠ some '\t' := by decide
  constructor
  · refine (r.line?_tabs k htext he).trans ?_
    rw [r.content?_continues h]
    rfl
  · rw [isBlank, htext, List.all_append]
    exact Bool.and_false _

end

end Reader

end OverloadTables.Script
