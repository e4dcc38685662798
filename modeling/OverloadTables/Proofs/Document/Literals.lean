import OverloadTables.Proofs.Document.Source
import OverloadTables.Proofs.Script.StringLiteral

/-!
# Literals in the module

Extensions, concrete types and the texts that the dispatcher compares with are written as literals.

* `Dispatch.Test.text?`    the text that a test compares with;
* `Source.Holds named line s`   where the literal of `s` stands on a line, a reader of Python finds
                           one literal that denotes `s`;
* `Source.Literal named s`   what is true of the literal of `s`, by itself and on every line that
                           has it;
* `Source.literal_denotes`   it is true of every text.
-/

namespace OverloadTables

namespace Dispatch

/-- The text that a test compares a part of the subject with. -/
def Test.text? : Test → Option (List Char)
  | .length _ => none
  | .tail _ text => some text
  | .slice _ _ text => some text
  | .char _ c => some [c]

end Dispatch

namespace Source

open Script Text

/-- In front of the literal stands a blank or a parenthesis, so that it has no prefix, and it ends
where the rest of the line begins. -/
def Holds (named : List Char → Option Char) (line s : String) : Prop :=
  ∃ before after : String, line = before ++ quote s ++ after ∧
    (before.toList.getLast? = some ' ' ∨ before.toList.getLast? = some '(') ∧
    StringLiteral.read named (quote s ++ after).toList = some (s.toList, after.toList)

section
variable {named : List Char → Option Char}

instance (q : Char) : Decidable (IsQuote q) := inferInstanceAs (Decidable (_ ∨ _))

theorem read_quote (s : String) {after : List Char} (h : ∀ c ∈ after.head?, ¬ IsQuote c) :
    StringLiteral.read named ((quote s).toList ++ after) = some (s.toList, after) := by
  rw [quote, String.toList_ofList]
  apply StringLiteral.read_of_readLiteral
  apply readLiteral_quoteChars
  intro hq
  exact h _ hq (isQuote_quoteMark _)

theorem whole_quote (s : String) :
    StringLiteral.read named (quote s).toList = some (s.toList, []) := by
  have h : StringLiteral.read named ((quote s).toList ++ []) = some (s.toList, []) :=
    read_quote s fun _ hc => nomatch hc
  rwa [List.append_nil] at h

theorem printable_quote (s : String) : Printable (quote s).toList := by
  rw [quote, String.toList_ofList]
  exact printable_quoteChars s.toList

theorem holds_quote (s : String) {before after : String}
    (hb : before.toList.getLast? = some ' ' ∨ before.toList.getLast? = some '(')
    (ha : ∃ c, after.toList.head? = some c ∧ ¬ IsQuote c) :
    Holds named (before ++ quote s ++ after) s := by
  obtain ⟨c, hhead, hc⟩ := ha
  refine ⟨before, after, rfl, hb, ?_⟩
  rw [String.toList_append]
  apply read_quote
  intro d hd
  obtain rfl := Option.some.inj (hhead.symm.trans hd)
  exact hc

theorem getLast?_append_str (a : String) {b : String} {c : Char}
    (h : b.toList.getLast? = some c) : (a ++ b).toList.getLast? = some c := by
  rw [String.toList_append, List.getLast?_append, h]
  rfl

theorem holds_rowLine (r : Row) : Holds named (rowLine r) r.extension := by
  unfold rowLine
  rw [String.append_assoc, String.append_assoc]
  apply holds_quote
  · left
    exact getLast?_append_str _ rfl
  · refine ⟨',', ?_, by decide⟩
    rw [String.toList_append]
    rfl

theorem holds_concreteChain {s : String} (opens : Bool) {bases : List BaseType} {b : BaseType}
    (hb : b ∈ bases) (hs : b.concrete = some s) :
    ∃ line ∈ concreteChain opens bases, Holds named line s ∧ OneLine line.toList := by
  induction bases generalizing opens with
  | nil => exact absurd hb List.not_mem_nil
  | cons b' bases ih =>
    rw [concreteChain]
    rcases List.mem_cons.mp hb with rfl | hb
    · rw [hs]
      refine ⟨_, List.mem_cons_of_mem _ List.mem_cons_self, ?_, ?_⟩
      · apply holds_quote
        · right
          rfl
        · exact ⟨')', rfl, by decide⟩
      · simp only [oneLine_str, oneLine_quote, and_true]
        and_intros <;> exact oneLine_ofList (by decide)
    · cases b'.concrete with
      | none => exact ih opens hb
      | some _ =>
        obtain ⟨line, hline, hholds⟩ := ih false hb
        exact ⟨line, List.mem_cons_of_mem _ (List.mem_cons_of_mem _ hline), hholds⟩

theorem render_text {n : Dispatch.Names} {t : Dispatch.Test} {s : String}
    (h : t.text? = some s.toList) :
    ∃ front : String, t.render n = front ++ quote s ∧ front.toList.getLast? = some ' ' := by
  have hliteral : Dispatch.literal s.toList = quote s := rfl
  cases t with
  | length k => exact nomatch h
  | tail start text =>
    obtain rfl := Option.some.inj h
    exact ⟨_, rfl, getLast?_append_str _ rfl⟩
  | slice start stop text =>
    obtain rfl := Option.some.inj h
    exact ⟨_, rfl, getLast?_append_str _ rfl⟩
  | char position c =>
    have hc : [c] = s.toList := Option.some.inj h
    rw [Dispatch.Test.render, hc, hliteral]
    exact ⟨_, rfl, getLast?_append_str _ rfl⟩

theorem holds_test {l : Dispatch.Line} {t : Dispatch.Test} {s : String}
    (hl : l.content = .ifTest t ∨ l.content = .elifTest t) (ht : t.text? = some s.toList)
    (n : Dispatch.Names) : Holds named (l.render n) s := by
  obtain ⟨front, hrender, hblank⟩ := render_text (n := n) ht
  obtain ⟨keyword, hkeyword⟩ : ∃ keyword : String,
      l.content.render n = keyword ++ (front ++ quote s) ++ ":" := by
    rcases hl with hl | hl
    · exact ⟨"if ", by rw [hl, Dispatch.Content.render, hrender]⟩
    · exact ⟨"elif ", by rw [hl, Dispatch.Content.render, hrender]⟩
  have hline : l.render n = n.indent ++ String.ofList (List.replicate l.depth '\t') ++ keyword
      ++ front ++ quote s ++ ":" := by
    simp only [Dispatch.Line.render, hkeyword, String.append_assoc]
  rw [hline]
  apply holds_quote
  · left
    exact getLast?_append_str _ hblank
  · exact ⟨':', rfl, by decide⟩

end

/-- What is true of the literal of a text. -/
structure Literal (named : List Char → Option Char) (s : String) : Prop where
  whole : StringLiteral.read named (quote s).toList = some (s.toList, [])
  own : ∀ s', quote s' = quote s ↔ s' = s
  printable : Printable (quote s).toList
  plain : ∀ c ∈ (quote s).toList, ¬ Control c ∧ c ∉ lineBreaks
  /-- Lines end where they would end without the literal. -/
  unsplit : ∀ before after : String, OneLine (before ++ quote s ++ after).toList ↔
    OneLine before.toList ∧ OneLine after.toList
  extension : ∀ r : Row, r.extension = s → Holds named (rowLine r) s ∧ OneLine (rowLine r).toList
  concrete : ∀ (opens : Bool) (bases : List BaseType), ∀ b ∈ bases, b.concrete = some s →
    ∃ line ∈ concreteChain opens bases, Holds named line s ∧ OneLine line.toList
  compared : ∀ (l : Dispatch.Line) (t : Dispatch.Test),
    l.content = .ifTest t ∨ l.content = .elifTest t → t.text? = some s.toList →
      (∀ n, Holds named (l.render n) s) ∧ OneLine (l.render dispatchNames).toList

/-- **The literal of a text denotes the text**, by itself and wherever the module has it, and is made
of printable characters, so that no line is split by it. -/
theorem literal_denotes (named : List Char → Option Char) (s : String) : Literal named s where
  whole := whole_quote s
  own s' := by
    constructor
    · intro h
      have hs' : StringLiteral.read named (quote s').toList = some (s'.toList, []) := whole_quote s'
      rw [h, whole_quote s, Option.some.injEq, Prod.mk.injEq] at hs'
      exact String.toList_inj.mp hs'.1.symm
    · rintro rfl
      rfl
  printable := printable_quote s
  plain c hc := by
    have hp := printable_quote s c hc
    exact ⟨not_control_of_printable hp, not_break_of_printable hp⟩
  unsplit before after := by
    rw [oneLine_str, oneLine_str, and_iff_left (oneLine_quote s)]
  extension r hr := by
    subst hr
    exact ⟨holds_rowLine r, oneLine_rowLine r⟩
  concrete opens _ _ hb hs := holds_concreteChain opens hb hs
  compared l t hl ht := by
    refine ⟨holds_test hl ht, ?_⟩
    obtain ⟨hsubject, hlength, hindent⟩ := oneLine_dispatchNames
    apply Dispatch.oneLine_line hsubject hlength hindent
    intro body hbody
    rcases hl with hl | hl
    · rw [hl] at hbody
      exact nomatch hbody
    · rw [hl] at hbody
      exact nomatch hbody

/-- Both quotes, a backslash, a line feed, and characters with two and with eight digits. -/
example : quoteChars ['\'', '"', '\\', '\n', '\x85', Char.ofNat 0x10FFFF]
    = "'\\'\"\\\\\\n\\x85\\U0010ffff'".toList := by decide +kernel

end Source
end OverloadTables
