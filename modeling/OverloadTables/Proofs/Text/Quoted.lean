import OverloadTables.Proofs.Script.Literal

/-!
# What quoted literals are made of

* `Text.Control c`, `Text.lineBreaks`   control characters, and those at which some reader cuts a
                           text into lines;
* `not_control_of_printable`, `not_break_of_printable`   none of them is printable;
* `printable_quoteChars`   a quoted text is made of printable characters.
-/

namespace OverloadTables.Text

/-! ## what is not printable -/

/-- A control character. -/
def Control (c : Char) : Prop := c.toNat < 0x20 ∨ 0x7F ≤ c.toNat ∧ c.toNat < 0xA0

theorem not_control_of_printable {c : Char} (h : isPrintable c = true) : ¬ Control c := by
  -- control characters and U+00A0 are the first two ranges of the table
  have htable : ∃ more, unprintableRanges = (0x0, 0x1F) :: (0x7F, 0xA0) :: more := ⟨_, rfl⟩
  obtain ⟨more, htable⟩ := htable
  intro hc
  have hin : unprintableRanges.contains c.toNat = true := by
    rw [htable, Ranges.contains, Ranges.contains]
    rcases hc with hlow | ⟨hlo, hhi⟩
    · have hlow : c.toNat ≤ 0x1F := by omega
      simp [hlow]
    · have hhi : c.toNat ≤ 0xA0 := by omega
      simp [hlo, hhi]
  rw [isPrintable, hin] at h
  exact nomatch h

/-- The characters at which some reader cuts a text into lines: LF, VT, FF, CR, FS, GS, RS, NEL and
the separators of lines and of paragraphs. -/
def lineBreaks : List Char :=
  ['\n', '\x0b', '\x0c', '\r', '\x1c', '\x1d', '\x1e', '\x85', '\u2028', '\u2029']

theorem not_break_of_printable {c : Char} (h : isPrintable c = true) : c ∉ lineBreaks := by
  have hall : lineBreaks.all (fun c => !isPrintable c) = true := by decide +kernel
  intro hc
  have hno := List.all_eq_true.mp hall c hc
  rw [h] at hno
  exact nomatch hno

/-! ## literals -/

/-- Every character shows. -/
def Printable (cs : List Char) : Prop := ∀ c ∈ cs, isPrintable c = true

instance (cs : List Char) : Decidable (Printable cs) :=
  List.decidableBAll (fun c => isPrintable c = true) cs

theorem printable_append {a b : List Char} : Printable (a ++ b) ↔ Printable a ∧ Printable b :=
  List.forall_mem_append

theorem printable_cons {c : Char} {cs : List Char} :
    Printable (c :: cs) ↔ isPrintable c = true ∧ Printable cs :=
  List.forall_mem_cons

theorem printable_hexDigits (k n : Nat) : Printable (hexDigits k n) := by
  induction k generalizing n with
  | zero => exact fun c hc => absurd hc List.not_mem_nil
  | succ k ih =>
    have hdigit : ∀ d < 16, Printable [Nat.digitChar d] := by decide
    rw [hexDigits, printable_append]
    exact ⟨ih _, hdigit _ (Nat.mod_lt _ (by omega))⟩

theorem printable_codePointEscape (n : Nat) : Printable (codePointEscape n) := by
  have hescape {l : Char} (hl : isPrintable l = true) (k : Nat) :
      Printable ('\\' :: l :: hexDigits k n) :=
    printable_cons.mpr ⟨by decide, printable_cons.mpr ⟨hl, printable_hexDigits k n⟩⟩
  rw [codePointEscape]
  split
  · exact hescape (by decide) 2
  · split
    · exact hescape (by decide) 4
    · exact hescape (by decide) 8

theorem printable_quotedChar {q : Char} (hq : Script.IsQuote q) (c : Char) :
    Printable (quotedChar q c) := by
  rw [quotedChar]
  by_cases hself : c = q ∨ c = '\\'
  · rw [if_pos hself]
    rcases hself with rfl | rfl
    · rcases hq with rfl | rfl <;> decide
    · decide
  rw [if_neg hself]
  split
  · decide
  split
  · decide
  split
  · decide
  split
  next hp => exact printable_cons.mpr ⟨hp, fun d hd => absurd hd List.not_mem_nil⟩
  · exact printable_codePointEscape _

/-- **A quoted text is made of printable characters.** -/
theorem printable_quoteChars (cs : List Char) : Printable (quoteChars cs) := by
  have hq := Script.isQuote_quoteMark cs
  have hmark : Printable [quoteMark cs] := by
    rcases hq with e | e <;> rw [e] <;> decide
  have hbody : Printable (cs.flatMap (quotedChar (quoteMark cs))) := by
    intro c hc
    obtain ⟨d, -, hd⟩ := List.mem_flatMap.mp hc
    exact printable_quotedChar hq d c hd
  rw [quoteChars, printable_append, printable_cons]
  exact ⟨⟨hmark _ (List.mem_singleton_self _), hbody⟩, hmark⟩

end OverloadTables.Text
