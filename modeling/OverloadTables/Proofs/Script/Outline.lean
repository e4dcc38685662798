import OverloadTables.Proofs.Script.Reader
import OverloadTables.Proofs.Text.OneLine
import Mathlib.Algebra.Ring.Nat

/-!
# The outline of a module

A line at the left margin that is no comment opens a part of a module; the lines below it up to the
next such line are its body.

* `Script.moduleLines`     the lines of a text;
* `Script.isOuter`         lines at the left margin;
* `Script.bodyOf?`         the body of the first part with a given head;
* `Script.HasPart head body ls`   the lines `ls` have a part with this head and this body;
* `HasPart.bodyOf?`          the body is found, if no other part has the head.
-/

namespace OverloadTables.Script

def moduleLines (text : String) : List String := (Text.cutLines text.toList).map String.ofList

/-- The line is not blank, not indented and no comment. -/
def isOuter (l : String) : Bool :=
  match l.toList with
  | [] => false
  | c :: _ => c ≠ '\t' && c ≠ '#'

/-- The lines below the first line `head`, up to the next one that is not indented. -/
def bodyOf? (head : String) (ls : List String) : Option (List String) :=
  match ls.dropWhile (· ≠ head) with
  | [] => none
  | _ :: rest => some (rest.takeWhile fun l => !isOuter l)

/-- Lines on one line each are the lines of the text they make. -/
theorem moduleLines_ended {text : String} {ls : List String} (htext : text.toList = Text.ended ls)
    (h : ∀ l ∈ ls, Text.OneLine l.toList) : moduleLines text = ls ++ [""] := by
  rw [moduleLines, htext, Text.cutLines_ended h, List.map_append, List.map_map]
  have hsame : String.ofList ∘ String.toList = id := funext fun s => String.ofList_toList
  rw [hsame, List.map_id]
  rfl

/-! ## lines that open no part -/

def Inner (ls : List String) : Prop := ∀ l ∈ ls, isOuter l = false

theorem Inner.filter {ls : List String} (h : Inner ls) : ls.filter isOuter = [] :=
  List.filter_eq_nil_iff.mpr fun l hl => by rw [h l hl]; exact Bool.false_ne_true

theorem isOuter_ofList (c : Char) (cs : List Char) :
    isOuter (String.ofList (c :: cs)) = (c ≠ '\t' && c ≠ '#') := by
  rw [isOuter, String.toList_ofList]

theorem isOuter_append (c : Char) (cs : List Char) (s : String) :
    isOuter (String.ofList (c :: cs) ++ s) = (c ≠ '\t' && c ≠ '#') := by
  rw [isOuter, String.toList_append, String.toList_ofList]
  rfl

/-! A list of literals is gone through line by line, so that no literal is taken apart further than
its first character. -/

section
variable {c : Char} {cs : List Char} {ls outer : List String}

theorem filter_cons_outer (hc : (c ≠ '\t' && c ≠ '#') = true) (h : ls.filter isOuter = outer) :
    (String.ofList (c :: cs) :: ls).filter isOuter = String.ofList (c :: cs) :: outer := by
  rw [List.filter_cons_of_pos ((isOuter_ofList c cs).trans hc), h]

theorem filter_cons_inner (hc : (c ≠ '\t' && c ≠ '#') = false) (h : ls.filter isOuter = outer) :
    (String.ofList (c :: cs) :: ls).filter isOuter = outer := by
  have hinner : ¬ isOuter (String.ofList (c :: cs)) = true := by
    rw [isOuter_ofList, hc]
    exact Bool.false_ne_true
  rw [List.filter_cons_of_neg hinner, h]

theorem filter_cons_blank (h : ls.filter isOuter = outer) :
    ("" :: ls).filter isOuter = outer := h

end

/-! ## parts -/

/-- There is a part with this head and this body, and one after it. -/
def HasPart (head : String) (body ls : List String) : Prop :=
  ∃ above next below, ls = above ++ head :: (body ++ next :: below) ∧ isOuter next = true

section
variable {head : String} {body ls : List String}

theorem HasPart.append (h : HasPart head body ls) (above below : List String) :
    HasPart head body (above ++ (ls ++ below)) := by
  obtain ⟨before, next, after, rfl, hnext⟩ := h
  exact ⟨above ++ before, next, after ++ below, by simp, hnext⟩

/-- What stands from the only line on that is the head of a part. -/
theorem dropWhile_head {above below : List String} (hhead : isOuter head = true)
    (honce : ((above ++ head :: below).filter isOuter).count head = 1) :
    (above ++ head :: below).dropWhile (· ≠ head) = head :: below := by
  have habove : head ∉ above := by
    -- it would be there twice
    rw [List.count_filter hhead, List.count_append, List.count_cons_self] at honce
    intro hmem
    have := List.count_pos_iff.mpr hmem
    omega
  have hkeep : ∀ l ∈ above, decide (l ≠ head) = true := fun l hl =>
    decide_eq_true fun e : l = head => habove (e ▸ hl)
  rw [List.dropWhile_append_of_pos hkeep, List.dropWhile_cons_of_neg (by simp)]

theorem HasPart.bodyOf? (h : HasPart head body ls) (hbody : Inner body) (hhead : isOuter head = true)
    (honce : (ls.filter isOuter).count head = 1) : bodyOf? head ls = some body := by
  obtain ⟨above, next, below, rfl, hnext⟩ := h
  have htake : (body ++ next :: below).takeWhile (fun l => !isOuter l) = body := by
    rw [List.takeWhile_append_of_pos fun l hl => by rw [hbody l hl]; rfl,
      List.takeWhile_cons_of_neg (by rw [hnext]; exact Bool.false_ne_true), List.append_nil]
  rw [Script.bodyOf?, dropWhile_head hhead honce]
  show some ((body ++ next :: below).takeWhile fun l => !isOuter l) = some body
  rw [htake]

end

end OverloadTables.Script
