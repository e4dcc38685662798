import OverloadTables.Proofs.AddressSpace
import OverloadTables.Proofs.Script.Tables
import OverloadTables.Proofs.SemanticType.Tower
import OverloadTables.Proofs.Text.Decimal

/-!
# Towers in words

A tower is put in words from its last storey down to the base, so the words up to the first blank
tell what the last storey is, if the name of the base has no blank.

* `Tower.text`             a tower in words;
* `Tower.Plain`            the name of the base has no blank and is not `void`;
* `Tower.text_injective`   plain towers in the same words are the same.
-/

namespace OverloadTables

open Script (upTo upTo_append upTo_of_notMem integer?_toString noDigit_cons)

namespace Tower

def text : Tower → String
  | .void => "void"
  | .builtin name => name
  | .vector element width => toString width ++ "-wide vector of " ++ element.text
  | .qualified inner space => "(address space " ++ space.spelling ++ ") " ++ inner.text
  | .pointer pointee => "pointer to " ++ pointee.text

def Plain : Tower → Prop
  | .void => True
  | .builtin name => ' ' ∉ name.toList ∧ name ≠ "void"
  | .vector inner _ | .qualified inner _ | .pointer inner => inner.Plain

/-! ## the first word -/

/-- The words up to the first blank. -/
def firstWord : Tower → List Char
  | .void => "void".toList
  | .builtin name => name.toList
  | .vector _ width => (toString width).toList ++ '-' :: "wide".toList
  | .qualified _ _ => "(address".toList
  | .pointer _ => "pointer".toList

/-- What follows from the first blank on. -/
def afterFirst : Tower → List Char
  | .void | .builtin _ => []
  | .vector element _ => ' ' :: ("vector of ".toList ++ element.text.toList)
  | .qualified inner space =>
    ' ' :: ("space ".toList ++ (space.spelling.toList ++ ')' :: ' ' :: inner.text.toList))
  | .pointer pointee => ' ' :: ("to ".toList ++ pointee.text.toList)

theorem text_toList (w : Tower) : w.text.toList = w.firstWord ++ w.afterFirst := by
  cases w with
  | void | builtin _ => exact (List.append_nil _).symm
  | vector element width =>
    show (toString width ++ "-wide vector of " ++ element.text).toList = (_ ++ _) ++ _
    rw [String.toList_append, String.toList_append, List.append_assoc, List.append_assoc]
    rfl
  | qualified inner space =>
    show ("(address space " ++ space.spelling ++ ") " ++ inner.text).toList = _
    rw [String.toList_append, String.toList_append, String.toList_append, List.append_assoc,
      List.append_assoc]
    rfl
  | pointer pointee =>
    show ("pointer to " ++ pointee.text).toList = _
    rw [String.toList_append]
    rfl

theorem Plain.blank_notMem {w : Tower} (hw : w.Plain) : ' ' ∉ w.firstWord := by
  cases w with
  | builtin name => exact hw.1
  | vector element width =>
    intro h
    rcases List.mem_append.mp h with h | h
    · rcases Text.isDigit_of_mem_int h with h | h
      · exact nomatch h
      · exact nomatch h
    · exact absurd h (by decide)
  | void | qualified _ _ | pointer _ =>
    show ' ' ∉ String.toList _
    decide

theorem upTo_text {w : Tower} (hw : w.Plain) :
    upTo ' ' w.text.toList = (w.firstWord, w.afterFirst) := by
  have hword := hw.blank_notMem
  rw [text_toList]
  cases w with
  | void | builtin _ => exact (List.append_nil _).symm ▸ upTo_of_notMem hword
  | vector _ _ | qualified _ _ | pointer _ => exact upTo_append hword _

/-! ## words tell towers apart -/

/-- Plain towers in the same words have the same first word, and the rest is the same. -/
theorem first_told {w w' : Tower} (hw : w.Plain) (hw' : w'.Plain) (h : w.text = w'.text) :
    w.firstWord = w'.firstWord ∧ w.afterFirst = w'.afterFirst := by
  have hcut := upTo_text hw
  rw [h, upTo_text hw'] at hcut
  exact ⟨(Prod.mk.inj hcut).1.symm, (Prod.mk.inj hcut).2.symm⟩

theorem space_told {s s' : AddressSpace} {cs cs' : List Char}
    (h : s.spelling.toList ++ ')' :: cs = s'.spelling.toList ++ ')' :: cs') : s = s' ∧ cs = cs' := by
  have hword (s : AddressSpace) : ')' ∉ s.spelling.toList := by
    cases s <;> decide
  have hcut := congrArg (upTo ')') h
  rw [upTo_append (hword s), upTo_append (hword s'), Prod.mk.injEq, List.cons.injEq] at hcut
  exact ⟨AddressSpace.spelling_injective (String.toList_inj.mp hcut.1), hcut.2.2⟩

theorem width_told {n n' : Int} {cs : List Char}
    (h : (toString n).toList ++ '-' :: cs = (toString n').toList ++ '-' :: cs) : n = n' := by
  have hread := congrArg Script.integer? h
  rw [integer?_toString n (noDigit_cons rfl _), integer?_toString n' (noDigit_cons rfl _)] at hread
  exact (Prod.mk.inj (Option.some.inj hread)).1

/-- A base is in one word, anything else in more. -/
theorem afterFirst_eq_nil {w : Tower} : w.afterFirst = [] ↔ w.IsBase := by
  cases w with
  | void => exact iff_of_true rfl (.inl rfl)
  | builtin name => exact iff_of_true rfl (.inr ⟨name, rfl⟩)
  | vector _ _ | qualified _ _ | pointer _ =>
    refine iff_of_false nofun ?_
    rintro (h | ⟨name, h⟩)
    · exact nomatch h
    · exact nomatch h

theorem base_injective {w w' : Tower} (hw : w.Plain) (hw' : w'.Plain) (hb : w.IsBase)
    (hb' : w'.IsBase) (h : w.text = w'.text) : w = w' := by
  rcases hb with rfl | ⟨name, rfl⟩ <;> rcases hb' with rfl | ⟨name', rfl⟩
  · rfl
  · exact absurd h.symm hw'.2
  · exact absurd h hw.2
  · exact congrArg Tower.builtin h

/-- **Plain towers in the same words are the same.** -/
theorem text_injective {w w' : Tower} (hw : w.Plain) (hw' : w'.Plain) (h : w.text = w'.text) :
    w = w' := by
  induction w generalizing w' with
  | void =>
    obtain ⟨-, hrest⟩ := first_told hw hw' h
    exact base_injective hw hw' (.inl rfl) (afterFirst_eq_nil.mp hrest.symm) h
  | builtin name =>
    obtain ⟨-, hrest⟩ := first_told hw hw' h
    exact base_injective hw hw' (.inr ⟨name, rfl⟩) (afterFirst_eq_nil.mp hrest.symm) h
  | vector element width ih =>
    obtain ⟨hword, hrest⟩ := first_told hw hw' h
    cases w' with
    | vector element' width' =>
      obtain rfl := width_told hword
      have htext := List.append_cancel_left (List.cons.inj hrest).2
      have helement : element = element' := ih hw hw' (String.toList_inj.mp htext)
      rw [helement]
    | void | builtin _ | qualified _ _ | pointer _ => simp [afterFirst] at hrest
  | qualified inner space ih =>
    obtain ⟨-, hrest⟩ := first_told hw hw' h
    cases w' with
    | qualified inner' space' =>
      obtain ⟨rfl, hinner⟩ := space_told (List.append_cancel_left (List.cons.inj hrest).2)
      have hsame : inner = inner' :=
        ih hw hw' (String.toList_inj.mp (List.cons.inj hinner).2)
      rw [hsame]
    | void | builtin _ | vector _ _ | pointer _ => simp [afterFirst] at hrest
  | pointer pointee ih =>
    obtain ⟨-, hrest⟩ := first_told hw hw' h
    cases w' with
    | pointer pointee' =>
      have htext := List.append_cancel_left (List.cons.inj hrest).2
      have hpointee : pointee = pointee' := ih hw hw' (String.toList_inj.mp htext)
      rw [hpointee]
    | void | builtin _ | vector _ _ | qualified _ _ => simp [afterFirst] at hrest

end Tower
end OverloadTables
