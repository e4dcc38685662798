import OverloadTables.AddressSpace
import Mathlib.Data.List.Infix

/-!
# Names of address spaces

What stands before the last two colons in a row of a name does not count.

* `Spells s m`             `s` is the spelling of `m`, or ends in two colons and the spelling;
* `ofSpelling?_eq_some`, `spelling_injective`   no two address spaces have one spelling;
* `beforeColons_stops`, `beforeColons_eq_iff`   where a scan stops;
* `ofName?_eq_some`        the names of an address space;
* `IsLast w s`, `isLast_lastComponent`   what counts of a name;
* `name_told`              a name tells one address space, or none and is refused.
-/

namespace OverloadTables.AddressSpace

/-- The text is the spelling of the address space, bare or behind two colons. -/
def Spells (s : String) (m : AddressSpace) : Prop :=
  s = m.spelling ∨ ("::" ++ m.spelling).toList <:+ s.toList

instance (s : String) (m : AddressSpace) : Decidable (Spells s m) :=
  inferInstanceAs (Decidable (_ ∨ _))

theorem ofSpelling?_eq_some {s : String} {m : AddressSpace} :
    ofSpelling? s = some m ↔ s = m.spelling := by
  constructor
  · intro h
    have hfound := List.find?_some h
    exact (of_decide_eq_true hfound).symm
  · rintro rfl
    cases m <;> rfl

theorem spelling_injective {m m' : AddressSpace} (h : m.spelling = m'.spelling) : m = m' := by
  have hm : ofSpelling? m.spelling = some m := ofSpelling?_eq_some.mpr rfl
  have hm' : ofSpelling? m.spelling = some m' := ofSpelling?_eq_some.mpr h
  exact Option.some.inj (hm.symm.trans hm')

theorem colon_notMem_spelling (m : AddressSpace) : ':' ∉ m.spelling.toList := by
  cases m <;> decide

/-- Two colons at the front of a character and what it stands before. -/
theorem colons_of_prefix {c : Char} {l cs : List Char} (h : [':', ':'] <+: c :: l)
    (hl : l <+: cs) : ∃ rest, c = ':' ∧ cs = ':' :: rest := by
  obtain ⟨hc, h⟩ := List.cons_prefix_cons.mp h
  obtain ⟨rest, hrest⟩ := h.trans hl
  exact ⟨rest, hc.symm, hrest.symm⟩

/-- A scan goes to the end if there are no two colons in a row, and else stops before the first
two. -/
theorem beforeColons_stops (cs : List Char) :
    (beforeColons cs = cs ∧ ¬ [':', ':'] <:+: cs) ∨
      (beforeColons cs ++ [':', ':'] <+: cs ∧ ¬ [':', ':'] <:+: beforeColons cs ++ [':']) := by
  induction cs using beforeColons.induct with
  | case1 =>
    left
    exact ⟨rfl, by decide⟩
  | case2 cs =>
    right
    have hstop : beforeColons (':' :: ':' :: cs) = [] := rfl
    rw [hstop]
    exact ⟨⟨cs, rfl⟩, by decide⟩
  | case3 c cs hne ih =>
    have hfresh {l : List Char} (hl : l <+: cs) (hcolons : ¬ [':', ':'] <:+: l) :
        ¬ [':', ':'] <:+: c :: l := by
      intro h
      rcases List.infix_cons_iff.mp h with hfront | hlater
      · obtain ⟨rest, hc, hcs⟩ := colons_of_prefix hfront hl
        exact hne rest hc hcs
      · exact hcolons hlater
    rw [beforeColons.eq_3 c cs hne]
    rcases ih with ⟨hend, hcolons⟩ | ⟨hstop, hcolons⟩
    · left
      exact ⟨congrArg _ hend, hfresh List.prefix_rfl hcolons⟩
    · right
      have hbefore : beforeColons cs ++ [':'] <+: cs :=
        ((List.prefix_append_right_inj _).mpr ⟨[':'], rfl⟩).trans hstop
      exact ⟨(List.prefix_cons_inj c).mpr hstop, hfresh hbefore hcolons⟩

theorem beforeColons_word {w : List Char} (hw : ':' ∉ w) (rest : List Char) :
    beforeColons w = w ∧ beforeColons (w ++ [':', ':'] ++ rest) = w := by
  induction w with
  | nil => exact ⟨rfl, rfl⟩
  | cons c w ih =>
    obtain ⟨hc, hw⟩ := not_or.mp (List.mem_cons.not.mp hw)
    have hcons (l : List Char) : beforeColons (c :: l) = c :: beforeColons l :=
      beforeColons.eq_3 c l fun _ h _ => hc h.symm
    obtain ⟨hend, hgoes⟩ := ih hw
    exact ⟨by rw [hcons, hend], by rw [List.cons_append, List.cons_append, hcons, hgoes]⟩

theorem beforeColons_eq_iff {w : List Char} (hw : ':' ∉ w) (cs : List Char) :
    beforeColons cs = w ↔ cs = w ∨ w ++ [':', ':'] <+: cs := by
  constructor
  · rintro rfl
    rcases beforeColons_stops cs with ⟨hend, -⟩ | ⟨hstop, -⟩
    · exact .inl hend.symm
    · exact .inr hstop
  · rintro (rfl | ⟨rest, rfl⟩)
    · exact (beforeColons_word hw []).1
    · exact (beforeColons_word hw rest).2

/-- **The names of an address space are its spelling, bare or behind two colons.** -/
theorem ofName?_eq_some {s : String} {m : AddressSpace} : ofName? s = some m ↔ Spells s m := by
  have hword : ':' ∉ m.spelling.toList.reverse := by
    rw [List.mem_reverse]
    exact colon_notMem_spelling m
  have hlast : lastComponent s = m.spelling ↔
      beforeColons s.toList.reverse = m.spelling.toList.reverse := by
    rw [lastComponent, ← String.toList_inj, String.toList_ofList, List.reverse_eq_iff]
  rw [ofName?, ofSpelling?_eq_some, hlast, beforeColons_eq_iff hword, List.reverse_inj,
    String.toList_inj, Spells, String.toList_append, ← List.reverse_prefix, List.reverse_append]
  rfl

/-- `w` is what follows the last two colons in a row of `s`, or all of `s` if there are none. -/
def IsLast (w s : String) : Prop :=
  (w = s ∧ ¬ [':', ':'] <:+: s.toList) ∨
    (("::" ++ w).toList <:+ s.toList ∧ ¬ [':', ':'] <:+: (":" ++ w).toList)

theorem isLast_lastComponent (s : String) : IsLast (lastComponent s) s := by
  have hlast : (lastComponent s).toList = (beforeColons s.toList.reverse).reverse := by
    rw [lastComponent, String.toList_ofList]
  have hcolons {l : List Char} (h : ¬ [':', ':'] <:+: l) : ¬ [':', ':'] <:+: l.reverse := by
    intro hl
    apply h
    rw [← List.reverse_infix]
    exact hl
  rcases beforeColons_stops s.toList.reverse with ⟨hend, hnone⟩ | ⟨hstop, hnone⟩
  · left
    constructor
    · rw [← String.toList_inj, hlast, hend, List.reverse_reverse]
    · have h := hcolons hnone
      rwa [List.reverse_reverse] at h
  · right
    constructor
    · rw [String.toList_append, hlast, ← List.reverse_prefix, List.reverse_append,
        List.reverse_reverse]
      exact hstop
    · have h := hcolons hnone
      rw [List.reverse_append, ← hlast] at h
      rw [String.toList_append]
      exact h

/-- What a name tells. -/
structure Told (s : String) : Prop where
  last : IsLast (lastComponent s) s
  found : ∀ m, ofName? s = some m ↔ Spells s m
  refused : ofName? s = none ↔ ∀ m, ¬ Spells s m
  unique : ∀ m m', Spells s m → Spells s m' → m = m'

/-- **A name tells the address space whose spelling it is or ends in behind two colons**, at most
one, and is refused if there is none. -/
theorem name_told (s : String) : Told s where
  last := isLast_lastComponent s
  found _ := ofName?_eq_some
  refused := by
    rw [Option.eq_none_iff_forall_ne_some]
    exact forall_congr' fun _ => not_congr ofName?_eq_some
  unique m m' h h' := by
    have hm : ofName? s = some m := ofName?_eq_some.mpr h
    have hm' : ofName? s = some m' := ofName?_eq_some.mpr h'
    exact Option.some.inj (hm.symm.trans hm')

/-- Nothing in front of the colons, more colons, and too few of them. -/
example : ["::Default", "a:::opencl_local", "::::Default", ":Default", "Default::"].map ofName?
    = [some .default, some .openclLocal, some .default, none, none] := by decide

end OverloadTables.AddressSpace
