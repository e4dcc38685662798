import OverloadTables.Json.Token
import OverloadTables.Json.Writer
import OverloadTables.Proofs.Text.Hex
import OverloadTables.Proofs.Text.Loose

/-!
# Strings read back

A character is written as itself, as a letter behind a backslash, or as one or two UTF-16 units in
hexadecimal digits, and a lone surrogate as one unit.

* `Spells w p`             `w`, inside of a string, is read as the code point `p`;
* `spells_writePoint`      so is every code point as it is written, as far as it can be;
* `Layout.Keeps l t`       a layout writes the text so that it can be read back;
* `scanText_written`       the inside of a written string is read as its code points.
-/

namespace OverloadTables.Json

/-! ## units -/

/-- A code point whose number is a unit. -/
theorem unitPoint_code {p : Point} (h : p.code < 0x10000) : Text.unitPoint p.code = p := by
  cases p with
  | char c =>
    rw [Text.unitPoint, Point.code, LooseText.not_isHighSurrogate, LooseText.not_isLowSurrogate,
      Char.ofNat_toNat]
    rfl
  | lone u =>
    obtain ⟨hlow, hhigh⟩ := u.code_range
    have hsurrogate : (Text.isHighSurrogate u.code || Text.isLowSurrogate u.code) = true := by
      simp only [Text.isHighSurrogate, Text.isLowSurrogate, Bool.or_eq_true, Bool.and_eq_true,
        decide_eq_true_eq]
      omega
    rw [Text.unitPoint, Point.code, if_pos hsurrogate, Surrogate.code, Nat.add_sub_cancel_left]
    refine congrArg Point.lone (Fin.ext ?_)
    exact Nat.mod_eq_of_lt u.isLt

theorem joinPieces_cons_unit (u : Nat) (ps : List Piece) (h : ∀ v qs, ps = .unit v :: qs →
      ¬ (Text.isHighSurrogate u = true ∧ Text.isLowSurrogate v = true)) :
    joinPieces (.unit u :: ps) = Text.unitPoint u :: joinPieces ps := by
  cases ps with
  | nil => rfl
  | cons p ps =>
    cases p with
    | plain d => rfl
    | unit v =>
      rw [joinPieces, if_neg]
      rw [Bool.and_eq_true]
      exact h v ps rfl

/-- A low surrogate that is spelled first is read first. -/
theorem head?_joinPieces_low {v : Nat} (hv : Text.isLowSurrogate v = true) (ps : List Piece) :
    (joinPieces (.unit v :: ps)).head? = some (Text.unitPoint v) := by
  have hnot : Text.isHighSurrogate v = false := by
    simp only [Text.isLowSurrogate, Bool.and_eq_true, decide_eq_true_eq] at hv
    rw [Text.isHighSurrogate, Bool.and_eq_false_iff, decide_eq_false_iff_not,
      decide_eq_false_iff_not]
    omega
  rw [joinPieces_cons_unit v ps]
  · rfl
  · rintro - - - ⟨h, -⟩
    exact Bool.false_ne_true (hnot.symm.trans h)

/-- The unit of a surrogate is kept. -/
theorem code_unitPoint {u : Nat} (h : (Text.isHighSurrogate u || Text.isLowSurrogate u) = true) :
    (Text.unitPoint u).code = u := by
  rw [Text.unitPoint, if_pos h, Point.code, Surrogate.code]
  simp only [Text.isHighSurrogate, Text.isLowSurrogate, Bool.or_eq_true, Bool.and_eq_true,
    decide_eq_true_eq] at h
  show 0xD800 + (u - 0xD800) % 0x800 = u
  omega

/-- A code point that is one unit, in front of one that it does not join with. -/
theorem joinPieces_unit {p : Point} (hp : p.code < 0x10000) {ps : List Piece}
    (h : ∀ q ∈ (joinPieces ps).head?, ¬ LooseText.Joins p q) :
    joinPieces (.unit p.code :: ps) = p :: joinPieces ps := by
  rw [joinPieces_cons_unit, unitPoint_code hp]
  rintro v qs rfl ⟨hhigh, hlow⟩
  refine h (Text.unitPoint v) (head?_joinPieces_low hlow qs) ⟨hhigh, ?_⟩
  rwa [code_unitPoint (by rw [hlow, Bool.or_true])]

theorem joinPieces_pair {c : Char} (h : 0x10000 ≤ c.toNat) (ps : List Piece) :
    joinPieces (.unit (0xD800 + (c.toNat - 0x10000) / 0x400)
      :: .unit (0xDC00 + (c.toNat - 0x10000) % 0x400) :: ps) = .char c :: joinPieces ps := by
  have hc := toNat_lt_or c
  have hhigh : Text.isHighSurrogate (0xD800 + (c.toNat - 0x10000) / 0x400) = true := by
    rw [Text.isHighSurrogate, Bool.and_eq_true, decide_eq_true_iff, decide_eq_true_iff]
    omega
  have hlow : Text.isLowSurrogate (0xDC00 + (c.toNat - 0x10000) % 0x400) = true := by
    rw [Text.isLowSurrogate, Bool.and_eq_true, decide_eq_true_iff, decide_eq_true_iff]
    omega
  have hjoined : 0x10000 + (0xD800 + (c.toNat - 0x10000) / 0x400 - 0xD800) * 0x400
      + (0xDC00 + (c.toNat - 0x10000) % 0x400 - 0xDC00) = c.toNat := by
    omega
  rw [joinPieces, hhigh, hlow, Text.pairedUnits, hjoined, Char.ofNat_toNat]
  rfl

/-! ## scanning -/

section
variable {r rest : List Char} {ps : List Piece}

/-- Four digits behind `\u` are a unit, where more text follows. -/
theorem scanText_unit {u : Nat} (hu : u < 0x10000) (hr : r ≠ [])
    (h : scanText r = .ok (ps, rest)) : scanText (unitEscape u ++ r) = .ok (.unit u :: ps, rest) := by
  obtain ⟨e, r, rfl⟩ := List.exists_cons_of_ne_nil hr
  show scanText ('\\' :: 'u' :: (Text.hexDigits 4 u ++ e :: r)) = _
  rw [Text.hexDigits_four]
  show scanText ('\\' :: 'u' :: _ :: _ :: _ :: _ :: e :: r) = _
  rw [scanText, Text.hexValue4?_digits hu, h]
  rfl

theorem scanText_letter {l c : Char} (hl : escapeLetter? l = some c)
    (h : scanText r = .ok (ps, rest)) :
    scanText ('\\' :: l :: r) = .ok (.plain c :: ps, rest) := by
  have hu : l ≠ 'u' := by
    rintro rfl
    exact nomatch hl
  rw [scanText, hl, h]
  · rfl
  · intro _ _ _ _ _ _ e
    exact absurd e hu
  · exact hu

theorem scanText_plain {c : Char} (hq : c ≠ '"') (hb : c ≠ '\\') (hc : ¬ c.toNat < 0x20)
    (h : scanText r = .ok (ps, rest)) : scanText (c :: r) = .ok (.plain c :: ps, rest) := by
  rw [scanText, if_neg hc, h]
  · rfl
  · exact hq
  all_goals
    intros
    exact hb ‹_›

end

/-! ## code points -/

/-- `w`, in front of more text inside of a string, is read as the code point `p`, if this is not
joined with what follows. -/
def Spells (w : List Char) (p : Point) : Prop :=
  ∀ r rest ps, r ≠ [] → scanText r = .ok (ps, rest) →
    (∀ q ∈ (joinPieces ps).head?, ¬ LooseText.Joins p q) →
    ∃ qs, scanText (w ++ r) = .ok (qs, rest) ∧ joinPieces qs = p :: joinPieces ps

theorem spells_unit {p : Point} (hp : p.code < 0x10000) : Spells (unitEscape p.code) p :=
  fun _ _ _ hr h hjoins => ⟨_, scanText_unit hp hr h, joinPieces_unit hp hjoins⟩

section
variable {c : Char}

theorem spells_letter {l : Char} (hl : escapeLetter? l = some c) : Spells ['\\', l] (.char c) :=
  fun _ _ _ _ h _ => ⟨_, scanText_letter hl h, rfl⟩

theorem spells_self (hq : c ≠ '"') (hb : c ≠ '\\') (hc : ¬ c.toNat < 0x20) :
    Spells [c] (.char c) :=
  fun _ _ _ _ h _ => ⟨_, scanText_plain hq hb hc h, rfl⟩

theorem spells_units : Spells ((Text.utf16Units c).flatMap unitEscape) (.char c) := by
  rw [Text.utf16Units]
  by_cases hc : c.toNat < 0x10000
  · rw [if_pos hc, List.flatMap_singleton]
    exact spells_unit (p := .char c) hc
  · rw [if_neg hc]
    intro r rest ps hr h _
    have hbound := toNat_lt_or c
    have hlow := scanText_unit (u := 0xDC00 + (c.toNat - 0x10000) % 0x400) (by omega) hr h
    have hboth := scanText_unit (u := 0xD800 + (c.toNat - 0x10000) / 0x400) (by omega)
      (List.append_ne_nil_of_right_ne_nil _ hr) hlow
    refine ⟨_, ?_, joinPieces_pair (Nat.le_of_not_lt hc) ps⟩
    rw [List.flatMap_cons, List.flatMap_singleton, List.append_assoc]
    exact hboth

/-- The characters that a letter stands for. -/
theorem spells_lettered (ascii : Bool)
    (h : c = '"' ∨ c = '\\' ∨ c = '\n' ∨ c = '\r' ∨ c = '\t' ∨ c = '\x08' ∨ c = '\x0C') :
    Spells (writeChar ascii c) (.char c) := by
  rcases h with rfl | rfl | rfl | rfl | rfl | rfl | rfl
  all_goals exact spells_letter rfl

theorem spells_writeChar (ascii : Bool) (c : Char) : Spells (writeChar ascii c) (.char c) := by
  by_cases hletter : c = '"' ∨ c = '\\' ∨ c = '\n' ∨ c = '\r' ∨ c = '\t' ∨ c = '\x08' ∨ c = '\x0C'
  · exact spells_lettered ascii hletter
  · simp only [not_or] at hletter
    obtain ⟨hq, hb, hn, hr, ht, h8, hC⟩ := hletter
    rw [writeChar, if_neg hq, if_neg hb, if_neg hn, if_neg hr, if_neg ht, if_neg h8, if_neg hC]
    by_cases hcontrol : c.toNat < 0x20
    · rw [if_pos hcontrol]
      exact spells_unit (p := .char c) (Nat.lt_trans hcontrol (by decide))
    · rw [if_neg hcontrol]
      split
      · exact spells_units
      · exact spells_self hq hb hcontrol

end

/-- The code point can be written: a lone surrogate is escaped or not at all. -/
def Writes (ascii : Bool) (p : Point) : Prop := ascii = false → ∃ c, p = .char c

/-- **A written code point is read as the code point.** -/
theorem spells_writePoint {ascii : Bool} {p : Point} (h : Writes ascii p) :
    Spells (writePoint ascii p) p := by
  cases p with
  | char c => exact spells_writeChar ascii c
  | lone u =>
    cases ascii with
    | true =>
      have hrange := u.code_range
      exact spells_unit (p := .lone u) (Nat.lt_of_le_of_lt hrange.2 (by decide))
    | false =>
      obtain ⟨c, hc⟩ := h rfl
      exact nomatch hc

/-! ## strings -/

/-- The inside of a written string, up to its quote, is read as its code points. -/
theorem scanText_written {ascii : Bool} {ps : List Point} (hwrites : ∀ p ∈ ps, Writes ascii p)
    (hapart : ps.IsChain fun p q => ¬ LooseText.Joins p q) (rest : List Char) :
    ∃ qs, scanText (ps.flatMap (writePoint ascii) ++ '"' :: rest) = .ok (qs, rest) ∧
      joinPieces qs = ps := by
  induction ps with
  | nil => exact ⟨[], by rw [List.flatMap_nil, List.nil_append, scanText], rfl⟩
  | cons p ps ih =>
    obtain ⟨hp, hps⟩ := List.forall_mem_cons.mp hwrites
    obtain ⟨hjoins, hapart⟩ := List.isChain_cons.mp hapart
    obtain ⟨qs, hscan, hjoin⟩ := ih hps hapart
    have hmore : ps.flatMap (writePoint ascii) ++ '"' :: rest ≠ [] :=
      List.append_ne_nil_of_right_ne_nil _ (List.cons_ne_nil _ _)
    obtain ⟨more, hscan', hjoin'⟩ := spells_writePoint hp _ _ _ hmore hscan (by rwa [hjoin])
    refine ⟨more, ?_, ?_⟩
    · rw [List.flatMap_cons, List.append_assoc, hscan']
    · rw [hjoin', hjoin]

/-- The layout writes the text so that it can be read back. -/
structure Layout.Keeps (l : Layout) (t : LooseText) : Prop where
  apart : t.Apart
  plain : l.ascii = false → t.IsPlain

theorem Layout.keeps_of_isPlain (l : Layout) {t : LooseText} (h : t.IsPlain) : l.Keeps t := by
  obtain ⟨s, rfl⟩ := LooseText.isPlain_iff.mp h
  exact ⟨LooseText.apart_text s, fun _ => h⟩

theorem Layout.Keeps.writes {l : Layout} {t : LooseText} (h : l.Keeps t) :
    ∀ p ∈ t.points, Writes l.ascii p := by
  intro p hp hascii
  obtain ⟨s, rfl⟩ := LooseText.isPlain_iff.mp (h.plain hascii)
  obtain ⟨c, -, rfl⟩ := List.mem_map.mp hp
  exact ⟨c, rfl⟩

end OverloadTables.Json
