import OverloadTables.Catalog.Decode
import OverloadTables.Proofs.AddressSpace
import OverloadTables.Proofs.Text.Loose

/-!
# Names of address spaces in texts

* `Spells t m`             `t` is the spelling of `m`, or ends in two colons and the spelling;
* `spaceOf?_eq_some`       the names of an address space;
* `IsLast w t`             `w` is what follows the last two colons in a row, or all there is;
* `spaceOf?_congr`         of a name only that matters.
-/

namespace OverloadTables.LooseText

/-- The code points of two colons in a row. -/
def colons : List Point := [.char ':', .char ':']

/-- The text is the spelling of the address space, bare or behind two colons. -/
def Spells (t : LooseText) (m : AddressSpace) : Prop :=
  t = m.spelling ∨ colons ++ points m.spelling <:+ t.points

instance (t : LooseText) (m : AddressSpace) : Decidable (t.Spells m) :=
  inferInstanceAs (Decidable (_ ∨ _))

/-- `w` is what follows the last two colons in a row of `t`, or all of `t` if there are none. -/
def IsLast (w t : LooseText) : Prop :=
  (w = t ∧ ¬ colons <:+: t.points) ∨
    (colons ++ w.points <:+ t.points ∧ ¬ colons <:+: .char ':' :: w.points)

instance (w t : LooseText) : Decidable (IsLast w t) := inferInstanceAs (Decidable (_ ∨ _))

theorem char_injective {c d : Char} (h : Point.char c = .char d) : c = d := Point.char.inj h

theorem colon_notMem_spelling (m : AddressSpace) : Point.char ':' ∉ points m.spelling := by
  rw [points_text, List.mem_map_of_injective fun _ _ => char_injective]
  exact m.colon_notMem_spelling

/-- What follows the last two colons of a text tells the address space that it spells. -/
theorem IsLast.spells_iff {w t : LooseText} (h : IsLast w t) (m : AddressSpace) :
    t.Spells m ↔ w = m.spelling := by
  have hnone {l : List Point} (hl : colons ++ l <:+ points m.spelling) : False :=
    colon_notMem_spelling m (hl.subset List.mem_cons_self)
  rcases h with ⟨rfl, hcolons⟩ | ⟨hlast, hcolons⟩
  · refine ⟨fun hspells => hspells.resolve_right fun hsuffix => hcolons ?_, .inl⟩
    exact (List.prefix_append _ _).isInfix.trans hsuffix.isInfix
  refine ⟨fun hspells => ?_, ?_⟩
  · rcases hspells with rfl | hspells
    · exact (hnone hlast).elim
    rcases List.suffix_or_suffix_of_suffix hlast hspells with hsuffix | hsuffix
    · -- the spelling has no colons of its own
      rcases List.suffix_cons_iff.mp hsuffix with heq | hsuffix
      · exact points_injective (@List.append_cancel_left _ colons _ _ heq)
      rcases List.suffix_cons_iff.mp hsuffix with heq | hsuffix
      · have hw : .char ':' :: w.points = points m.spelling := (List.cons.inj heq).2
        exact (colon_notMem_spelling m (hw ▸ List.mem_cons_self)).elim
      · exact (hnone hsuffix).elim
    · rcases List.suffix_cons_iff.mp hsuffix with heq | hsuffix
      · exact points_injective (@List.append_cancel_left _ colons _ _ heq).symm
      · exact (hcolons ((List.prefix_append _ _).isInfix.trans hsuffix.isInfix)).elim
  · rintro rfl
    exact .inr hlast

/-! ## what is read -/

theorem colons_spelling (m : AddressSpace) :
    colons ++ points m.spelling = ("::" ++ m.spelling).toList.map .char := by
  rw [String.toList_append, List.map_append]
  rfl

theorem spells_text {s : String} {m : AddressSpace} :
    (text s).Spells m ↔ AddressSpace.Spells s m := by
  rw [Spells, AddressSpace.Spells, colons_spelling, points_text, text.injEq,
    List.suffix_map_iff_of_injective fun _ _ => char_injective]

/-- What stands after the last lone surrogate ends the text. -/
theorem points_last {before : String} {u : Surrogate} {rest : LooseText} : ∃ front v,
    (lone before u rest).points = front ++ .lone v :: rest.last.toList.map .char := by
  induction rest generalizing before u with
  | text s => exact ⟨_, u, rfl⟩
  | lone before' v rest ih =>
    obtain ⟨front, w, hpoints⟩ := @ih before' v
    exact ⟨before.toList.map .char ++ .lone u :: front, w, by
      rw [points, hpoints, List.append_assoc, List.cons_append]
      rfl⟩

/-- Characters at the end of a text stand behind its last lone surrogate. -/
theorem chars_suffix_iff {before : String} {u : Surrogate} {rest : LooseText} {cs : List Char} :
    cs.map .char <:+ (lone before u rest).points ↔ cs <:+ rest.last.toList := by
  have hmem (v : Surrogate) : Point.lone v ∉ cs.map .char := by
    rw [List.mem_map]
    rintro ⟨c, -, h⟩
    exact nomatch h
  obtain ⟨front, v, hpoints⟩ := @points_last before u rest
  rw [hpoints, ← List.suffix_map_iff_of_injective fun _ _ => char_injective]
  refine ⟨fun h => ?_, fun h => ?_⟩
  · rcases List.suffix_or_suffix_of_suffix h (List.suffix_append _ _) with h | h
    · rcases List.suffix_cons_iff.mp h with h | h
      · exact (hmem v (h ▸ List.mem_cons_self)).elim
      · exact h
    · exact (hmem v (h.subset List.mem_cons_self)).elim
  · exact h.trans ((List.suffix_cons _ _).trans (List.suffix_append _ _))

end OverloadTables.LooseText

namespace OverloadTables.Catalog
open AddressSpace (lastComponent ofName? ofName?_eq_some ofSpelling?_eq_some)
open LooseText (IsLast)

/-- **The names of an address space are its spelling, bare or behind two colons.** -/
theorem spaceOf?_eq_some {t : LooseText} {m : AddressSpace} : spaceOf? t = some m ↔ t.Spells m := by
  cases t with
  | text s => exact ofName?_eq_some.trans LooseText.spells_text.symm
  | lone before u rest =>
    have hname : ofName? rest.last = some m ↔ lastComponent rest.last = m.spelling :=
      ofSpelling?_eq_some
    have hspells : (LooseText.lone before u rest).Spells m ↔
        ("::" ++ m.spelling).toList <:+ rest.last.toList := by
      rw [LooseText.Spells, LooseText.colons_spelling, LooseText.chars_suffix_iff]
      exact or_iff_right nofun
    rw [spaceOf?, hspells]
    constructor
    · intro h
      split at h
      · exact nomatch h
      next hlast =>
        refine (ofName?_eq_some.mp h).resolve_left fun hself => hlast ?_
        rw [hname.mp h, hself]
    · intro h
      have hsome : ofName? rest.last = some m := ofName?_eq_some.mpr (.inr h)
      have hne : lastComponent rest.last ≠ rest.last := by
        intro hself
        rw [hname.mp hsome] at hself
        rw [← hself, String.toList_append] at h
        exact m.colon_notMem_spelling (h.subset List.mem_cons_self)
      rw [if_neg hne, hsome]

/-- Names with one last component name one address space, or none does. -/
theorem spaceOf?_congr {w s t : LooseText} (hs : IsLast w s) (ht : IsLast w t) :
    spaceOf? s = spaceOf? t := by
  refine Option.ext fun m => ?_
  rw [spaceOf?_eq_some, spaceOf?_eq_some, hs.spells_iff,
    ht.spells_iff]

/-- A surrogate in front of the colons, behind them and between them. -/
example : ([.lone "a" 0 "::Default", .lone "::" 0 "Default", .lone ":" 0 ":Default"]
    : List LooseText).map spaceOf? = [some .default, none, none] := by decide

end OverloadTables.Catalog
