import OverloadTables.Dispatch.Lines
import OverloadTables.Proofs.Script.Literal
import OverloadTables.Proofs.Text.Decimal
import OverloadTables.Proofs.Text.Identifier

/-!
# Conditions on a text

A condition asks for the length of a text, or for what the text has at a position, from a position
on, or between two positions.  The text and its length are in variables.

* `Script.number?`, `Script.literal?`   numbers and literals;
* `Script.test? n`         a condition, where `n` names the variables;
* `test?_render`           a written test is read as its condition, whatever the variables are
                           called.
-/

namespace OverloadTables.Script

/-! ## numbers and literals -/

/-- What follows a given text. -/
def skip : List Char → List Char → Option (List Char)
  | [], cs => some cs
  | _ :: _, [] => none
  | p :: ps, c :: cs => if c = p then skip ps cs else none

/-- A number in its shortest form, and what follows it. -/
def number? (cs : List Char) : Option (Nat × List Char) :=
  let digits := cs.takeWhile Char.isDigit
  let n := Nat.ofDigitChars 10 digits 0
  if digits = Nat.toDigits 10 n then some (n, cs.dropWhile Char.isDigit) else none

def literal? (cs : List Char) : Option (List Char) :=
  match readLiteral cs with
  | some (text, []) => some text
  | _ => none

theorem skip_append (p cs : List Char) : skip p (p ++ cs) = some cs := by
  induction p with
  | nil => rfl
  | cons c p ih => rw [List.cons_append, skip, if_pos rfl, ih]

def NoDigit (cs : List Char) : Prop := ∀ c ∈ cs.head?, c.isDigit = false

theorem noDigit_nil : NoDigit [] := fun _ h => nomatch h

theorem noDigit_cons {c : Char} (h : c.isDigit = false) (cs : List Char) : NoDigit (c :: cs) := by
  intro d hd
  obtain rfl := Option.some.inj hd
  exact h

theorem NoDigit.takeWhile {cs : List Char} (h : NoDigit cs) : cs.takeWhile Char.isDigit = [] := by
  cases cs with
  | nil => rfl
  | cons c cs => simp [h c rfl]

theorem NoDigit.dropWhile {cs : List Char} (h : NoDigit cs) : cs.dropWhile Char.isDigit = cs := by
  cases cs with
  | nil => rfl
  | cons c cs => simp [h c rfl]

theorem number?_toString (n : Nat) {rest : List Char} (h : NoDigit rest) :
    number? ((toString n).toList ++ rest) = some (n, rest) := by
  have hall : ∀ c ∈ (toString n).toList, c.isDigit = true := fun _ hc => Text.isDigit_of_mem_nat hc
  rw [number?, List.takeWhile_append_of_pos hall, List.dropWhile_append_of_pos hall,
    h.takeWhile, h.dropWhile, List.append_nil, Text.toList_toString_nat,
    Nat.ofDigitChars_ten_toDigits, if_pos rfl]

theorem number?_eq_none {cs : List Char} (h : NoDigit cs) : number? cs = none := by
  rw [number?, h.takeWhile, if_neg (fun e => Nat.toDigits_ne_nil e.symm)]

theorem literal?_quoteChars (cs : List Char) : literal? (Text.quoteChars cs) = some cs := by
  have h := readLiteral_quoteChars cs [] (by simp)
  rw [List.append_nil] at h
  rw [literal?, h]

/-! ## conditions -/

/-- What a clause asks. -/
inductive Condition where
  /-- The subject is no text. -/
  | notText
  /-- The length has this value. -/
  | length (n : Nat)
  /-- The subject has `text` at `position`. -/
  | item (position : Nat) (text : List Char)
  /-- From `start` up to `stop`, the subject is `text`. -/
  | slice (start stop : Nat) (text : List Char)
  /-- From `start` on, the subject is `text`. -/
  | tail (start : Nat) (text : List Char)
  deriving DecidableEq, Repr

/-- The test on the length, which is in a variable. -/
def lengthTest? (n : Dispatch.Names) (cs : List Char) : Option Condition := do
  let cs ← skip (n.length ++ " == ").toList cs
  let (k, cs) ← number? cs
  if cs = [] then some (.length k) else none

def itemAt? (position : Nat) (cs : List Char) : Option Condition := do
  let cs ← skip "] == ".toList cs
  let text ← literal? cs
  some (.item position text)

def sliceFrom? (start : Nat) (cs : List Char) : Option Condition := do
  let cs ← skip ":".toList cs
  let (stop, cs) ← number? cs
  let cs ← skip "] == ".toList cs
  let text ← literal? cs
  some (.slice start stop text)

def tailFrom? (start : Nat) (cs : List Char) : Option Condition := do
  let cs ← skip ":] == ".toList cs
  let text ← literal? cs
  some (.tail start text)

/-- The tests on a part of the subject, which is in a variable. -/
def partTest? (n : Dispatch.Names) (cs : List Char) : Option Condition := do
  let cs ← skip (n.subject ++ "[").toList cs
  let (i, cs) ← number? cs
  itemAt? i cs <|> sliceFrom? i cs <|> tailFrom? i cs

def test? (n : Dispatch.Names) (cs : List Char) : Option Condition :=
  lengthTest? n cs <|> partTest? n cs

/-- The condition that a test is. -/
def ofTest : Dispatch.Test → Condition
  | .length n => .length n
  | .tail start text => .tail start text
  | .slice start stop text => .slice start stop text
  | .char position c => .item position [c]

theorem itemAt?_eq (i : Nat) (text : List Char) :
    itemAt? i ("] == ".toList ++ Text.quoteChars text) = some (.item i text) := by
  rw [itemAt?, skip_append, Option.bind_eq_bind, Option.bind_some, literal?_quoteChars]
  rfl

theorem sliceFrom?_eq (i j : Nat) (text : List Char) :
    sliceFrom? i (":".toList ++ ((toString j).toList ++ ("] == ".toList ++ Text.quoteChars text)))
      = some (.slice i j text) := by
  have hd : NoDigit ("] == ".toList ++ Text.quoteChars text) := noDigit_cons rfl _
  rw [sliceFrom?, skip_append, Option.bind_eq_bind, Option.bind_some, number?_toString j hd,
    Option.bind_eq_bind, Option.bind_some]
  show (skip "] == ".toList ("] == ".toList ++ Text.quoteChars text) >>= _) = _
  rw [skip_append, Option.bind_eq_bind, Option.bind_some, literal?_quoteChars]
  rfl

theorem sliceFrom?_tail (i : Nat) (cs : List Char) :
    sliceFrom? i (":] == ".toList ++ cs) = none := by
  have hd : NoDigit ("] == ".toList ++ cs) := noDigit_cons rfl _
  have hcut : skip ":".toList (":] == ".toList ++ cs) = some ("] == ".toList ++ cs) := rfl
  rw [sliceFrom?, hcut, Option.bind_eq_bind, Option.bind_some, number?_eq_none hd]
  rfl

theorem tailFrom?_eq (i : Nat) (text : List Char) :
    tailFrom? i (":] == ".toList ++ Text.quoteChars text) = some (.tail i text) := by
  rw [tailFrom?, skip_append, Option.bind_eq_bind, Option.bind_some, literal?_quoteChars]
  rfl

/-- What stands behind a position reads as the test, with that position. -/
structure PartOf (t : Dispatch.Test) (i : Nat) (cs : List Char) : Prop where
  noDigit : NoDigit cs
  reads : (itemAt? i cs <|> sliceFrom? i cs <|> tailFrom? i cs) = some (ofTest t)

/-- A test asks for the length, or for a part of the subject behind a bracket. -/
theorem render_cases (n : Dispatch.Names) (t : Dispatch.Test) :
    (∃ k, t = .length k) ∨ ∃ i cs, PartOf t i cs ∧
      (t.render n).toList = (n.subject ++ "[").toList ++ ((toString i).toList ++ cs) := by
  cases t with
  | length k => exact .inl ⟨k, rfl⟩
  | tail start text =>
    refine .inr ⟨start, ":] == ".toList ++ Text.quoteChars text, ⟨noDigit_cons rfl _, ?_⟩, ?_⟩
    · have hitem : itemAt? start (":] == ".toList ++ Text.quoteChars text) = none := rfl
      rw [hitem, sliceFrom?_tail, tailFrom?_eq]
      rfl
    · simp only [Dispatch.Test.render, String.toList_append, Dispatch.literal,
        String.toList_ofList, List.append_assoc]
  | slice start stop text =>
    refine .inr ⟨start, ":".toList ++ ((toString stop).toList
      ++ ("] == ".toList ++ Text.quoteChars text)), ⟨noDigit_cons rfl _, ?_⟩, ?_⟩
    · have hitem : itemAt? start (":".toList ++ ((toString stop).toList
        ++ ("] == ".toList ++ Text.quoteChars text))) = none := rfl
      rw [hitem, sliceFrom?_eq]
      rfl
    · simp only [Dispatch.Test.render, String.toList_append, Dispatch.literal,
        String.toList_ofList, List.append_assoc]
  | char position c =>
    refine .inr ⟨position, "] == ".toList ++ Text.quoteChars [c], ⟨noDigit_cons rfl _, ?_⟩, ?_⟩
    · rw [itemAt?_eq]
      rfl
    · simp only [Dispatch.Test.render, String.toList_append, Dispatch.literal,
        String.toList_ofList, List.append_assoc]

/-- Texts that are told apart where the first of two characters stands. -/
theorem skip_apart {a b : List Char} {x y : Char} (hy : y ∉ a) (hx : x ∉ b) (hxy : x ≠ y)
    (p q : List Char) : skip (a ++ x :: p) (b ++ y :: q) = none := by
  induction a generalizing b with
  | nil =>
    cases b with
    | nil => exact if_neg (Ne.symm hxy)
    | cons d b => exact if_neg fun e => hx (List.mem_cons.mpr (.inl e.symm))
  | cons c a ih =>
    rw [List.mem_cons, not_or] at hy
    cases b with
    | nil => exact if_neg hy.1
    | cons d b =>
      rw [List.cons_append, List.cons_append, skip]
      split
      · exact ih hy.2 fun h => hx (List.mem_cons_of_mem _ h)
      · rfl

/-- The names are those of two variables. -/
structure Variables (n : Dispatch.Names) : Prop where
  subject : Text.isIdentifier n.subject = true
  length : Text.isIdentifier n.length = true
  apart : n.subject ≠ n.length

section
variable {n : Dispatch.Names} (hn : Variables n)
include hn

theorem lengthTest?_part (cs : List Char) :
    lengthTest? n ((n.subject ++ "[").toList ++ cs) = none := by
  have hequals : " == ".toList = ' ' :: "== ".toList := rfl
  have hbracket : "[".toList = '[' :: [] := rfl
  have hskip : skip (n.length ++ " == ").toList ((n.subject ++ "[").toList ++ cs) = none := by
    rw [String.toList_append, String.toList_append, List.append_assoc, hequals, hbracket,
      List.cons_append]
    exact skip_apart (Text.identifier_notMem hn.length (by decide))
      (Text.identifier_notMem hn.subject (by decide)) (by decide) _ _
  rw [lengthTest?, hskip]
  rfl

/-- **A written test is read as its condition.** -/
theorem test?_render (t : Dispatch.Test) : test? n (t.render n).toList = some (ofTest t) := by
  rcases render_cases n t with ⟨k, rfl⟩ | ⟨i, cs, hpart, htext⟩
  · have hk := number?_toString k noDigit_nil
    rw [List.append_nil] at hk
    have hlength : lengthTest? n ((n.length ++ " == ").toList ++ (toString k).toList)
        = some (.length k) := by
      rw [lengthTest?, skip_append, Option.bind_eq_bind, Option.bind_some, hk]
      rfl
    rw [Dispatch.Test.render, String.toList_append, test?, hlength]
    rfl
  · have hread : partTest? n ((n.subject ++ "[").toList ++ ((toString i).toList ++ cs))
        = some (ofTest t) := by
      rw [partTest?, skip_append, Option.bind_eq_bind, Option.bind_some,
        number?_toString i hpart.noDigit]
      exact hpart.reads
    rw [htext, test?, lengthTest?_part hn, hread]
    rfl

end

end OverloadTables.Script
