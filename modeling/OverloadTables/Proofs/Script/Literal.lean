import OverloadTables.Proofs.Text.Hex
import OverloadTables.Text.Quoted
import Mathlib.Algebra.Ring.Nat

/-!
# Quoted literals read back

A literal is read character by character by a machine that knows whether it stands between
characters, behind a backslash, or inside the digits of a code point.  Three quotes in a row, a
line end inside the literal and escapes that `Text.quote` never writes are refused.

* `Script.readLiteral cs`      the characters that a literal denotes, and what follows it;
* `readLiteral_quoteChars`     a quoted text denotes the text.
-/

namespace OverloadTables.Script

/-- Where a reader stands inside a literal. -/
inductive Mode where
  | plain
  | escape
  /-- One digit and `more` are missing to the code point that begins with `value`. -/
  | digits (more value : Nat)

/-- The character of an escape by one letter. -/
def escaped? : Char → Option Char
  | '\\' => some '\\'
  | '\'' => some '\''
  | '"' => some '"'
  | 'n' => some '\n'
  | 'r' => some '\r'
  | 't' => some '\t'
  | _ => none

/-- The digits that follow the letter of a code point. -/
def codePointMode? : Char → Option Mode
  | 'x' => some (.digits 1 0)
  | 'u' => some (.digits 3 0)
  | 'U' => some (.digits 7 0)
  | _ => none

/-- The character of a code point; surrogates have none. -/
def scalar? (n : Nat) : Option Char := if n.isValidChar then some (Char.ofNat n) else none

/-- What was read, with one character before it. -/
def before (c : Char) : Option (List Char × List Char) → Option (List Char × List Char)
  | none => none
  | some (cs, rest) => some (c :: cs, rest)

/-- The rest of a literal with the quote `q`, and what follows it. -/
def readBody (q : Char) : Mode → List Char → Option (List Char × List Char)
  | _, [] => none
  | .plain, c :: cs =>
    if c = q then some ([], cs)
    else if c = '\\' then readBody q .escape cs
    else if c = '\n' ∨ c = '\r' then none
    else before c (readBody q .plain cs)
  | .escape, c :: cs =>
    match codePointMode? c with
    | some m => readBody q m cs
    | none =>
      match escaped? c with
      | some d => before d (readBody q .plain cs)
      | none => none
  | .digits 0 value, c :: cs =>
    match Text.hexValue? c with
    | none => none
    | some v =>
      match scalar? (value * 16 + v) with
      | some d => before d (readBody q .plain cs)
      | none => none
  | .digits (more + 1) value, c :: cs =>
    match Text.hexValue? c with
    | none => none
    | some v => readBody q (.digits more (value * 16 + v)) cs

/-- The characters that a literal denotes, and what follows it. -/
def readLiteral : List Char → Option (List Char × List Char)
  | [] => none
  | q :: cs =>
    if q = '\'' ∨ q = '"' then
      if cs.take 2 = [q, q] then none else readBody q .plain cs
    else none

/-! ## digits -/

theorem readBody_hexDigits (q : Char) (k n more value : Nat) (rest : List Char) :
    readBody q (.digits (more + k) value) (Text.hexDigits k n ++ rest)
      = readBody q (.digits more (value * 16 ^ k + n % 16 ^ k)) rest := by
  induction k generalizing n more rest with
  | zero => simp [Text.hexDigits, Nat.mod_one]
  | succ k ih =>
    have hv : (value * 16 ^ k + n / 16 % 16 ^ k) * 16 + n % 16
        = value * 16 ^ (k + 1) + n % 16 ^ (k + 1) := by
      have hm : n % 16 ^ (k + 1) = n % 16 + 16 * (n / 16 % 16 ^ k) := by
        rw [Nat.pow_succ, Nat.mul_comm, Nat.mod_mul]
      rw [hm, Nat.pow_succ, Nat.add_mul, Nat.mul_assoc]
      omega
    have hd : Text.hexValue? (Nat.digitChar (n % 16)) = some (n % 16) :=
      Text.hexValue?_digitChar (Nat.mod_lt _ (by omega))
    rw [Text.hexDigits, List.append_assoc, List.singleton_append,
      show more + (k + 1) = more + 1 + k by omega, ih, readBody, hd]
    show readBody q (.digits more _) rest = _
    rw [hv]

/-- All digits of a code point read. -/
theorem readBody_codePoint (q c : Char) (k : Nat) (h : c.toNat < 16 ^ (k + 1)) (rest : List Char) :
    readBody q (.digits k 0) (Text.hexDigits (k + 1) c.toNat ++ rest)
      = before c (readBody q .plain rest) := by
  have hd : Text.hexValue? (Nat.digitChar (c.toNat % 16)) = some (c.toNat % 16) :=
    Text.hexValue?_digitChar (Nat.mod_lt _ (by omega))
  have hhigh : c.toNat / 16 % 16 ^ k = c.toNat / 16 := by
    refine Nat.mod_eq_of_lt (Nat.div_lt_of_lt_mul ?_)
    rwa [Nat.pow_succ, Nat.mul_comm] at h
  have hscalar : scalar? c.toNat = some c := by
    have hc : c.toNat.isValidChar := c.valid
    rw [scalar?, if_pos hc, Char.ofNat_toNat]
  have hstep := readBody_hexDigits q k (c.toNat / 16) 0 0
    (Nat.digitChar (c.toNat % 16) :: rest)
  rw [Nat.zero_add, Nat.zero_mul, Nat.zero_add, hhigh] at hstep
  rw [Text.hexDigits, List.append_assoc, List.singleton_append, hstep, readBody, hd]
  show (match scalar? (c.toNat / 16 * 16 + c.toNat % 16) with
    | some d => before d (readBody q .plain rest)
    | none => none) = _
  rw [Nat.div_add_mod', hscalar]

/-! ## characters -/

/-- The quotes a literal may have. -/
def IsQuote (q : Char) : Prop := q = '\'' ∨ q = '"'

theorem isQuote_quoteMark (cs : List Char) : IsQuote (Text.quoteMark cs) := by
  rw [Text.quoteMark]
  split
  · exact .inr rfl
  · exact .inl rfl

section
variable {q : Char} (hq : IsQuote q)
include hq

theorem readBody_escaped {c d : Char} (hm : codePointMode? c = none) (he : escaped? c = some d)
    (rest : List Char) :
    readBody q .plain ('\\' :: c :: rest) = before d (readBody q .plain rest) := by
  have hne : '\\' ≠ q := by
    rcases hq with rfl | rfl <;> decide
  rw [readBody, if_neg hne, if_pos rfl, readBody, hm]
  show (match escaped? c with
    | some d => before d (readBody q .plain rest)
    | none => none) = _
  rw [he]

theorem readBody_codePointEscape (c : Char) (rest : List Char) :
    readBody q .plain (Text.codePointEscape c.toNat ++ rest)
      = before c (readBody q .plain rest) := by
  have hne : '\\' ≠ q := by
    rcases hq with rfl | rfl <;> decide
  rw [Text.codePointEscape]
  split
  · rw [List.cons_append, List.cons_append, readBody, if_neg hne, if_pos rfl]
    exact readBody_codePoint q c 1 (by omega) rest
  · split
    · rw [List.cons_append, List.cons_append, readBody, if_neg hne, if_pos rfl]
      exact readBody_codePoint q c 3 (by omega) rest
    · rw [List.cons_append, List.cons_append, readBody, if_neg hne, if_pos rfl]
      have hc : c.toNat < 16 ^ (7 + 1) := by
        have : c.toNat < UInt32.size := c.val.toNat_lt
        simpa using this
      exact readBody_codePoint q c 7 hc rest

/-- A character as it is quoted is read as the character. -/
theorem readBody_quotedChar (c : Char) (rest : List Char) :
    readBody q .plain (Text.quotedChar q c ++ rest) = before c (readBody q .plain rest) := by
  rw [Text.quotedChar]
  by_cases hself : c = q ∨ c = '\\'
  · rw [if_pos hself]
    rcases hself with rfl | rfl
    · rcases hq with rfl | rfl
      · exact readBody_escaped (.inl rfl) rfl rfl rest
      · exact readBody_escaped (.inr rfl) rfl rfl rest
    · exact readBody_escaped hq rfl rfl rest
  rw [if_neg hself]
  by_cases hn : c = '\n'
  · rw [if_pos hn, hn]
    exact readBody_escaped hq rfl rfl rest
  rw [if_neg hn]
  by_cases hr : c = '\r'
  · rw [if_pos hr, hr]
    exact readBody_escaped hq rfl rfl rest
  rw [if_neg hr]
  by_cases ht : c = '\t'
  · rw [if_pos ht, ht]
    exact readBody_escaped hq rfl rfl rest
  rw [if_neg ht]
  by_cases hp : Text.isPrintable c
  · rw [not_or] at hself
    rw [if_pos hp, List.singleton_append, readBody, if_neg hself.1, if_neg hself.2,
      if_neg (not_or.mpr ⟨hn, hr⟩)]
  · rw [if_neg hp]
    exact readBody_codePointEscape hq c rest

theorem readBody_quoted (cs rest : List Char) :
    readBody q .plain (cs.flatMap (Text.quotedChar q) ++ q :: rest) = some (cs, rest) := by
  induction cs with
  | nil => rw [List.flatMap_nil, List.nil_append, readBody, if_pos rfl]
  | cons c cs ih =>
    rw [List.flatMap_cons, List.append_assoc, readBody_quotedChar hq, ih]
    rfl

/-- A quoted character does not begin with the quote. -/
theorem head?_quotedChar (c : Char) : ∃ d ds, Text.quotedChar q c = d :: ds ∧ d ≠ q := by
  have hne : '\\' ≠ q := by
    rcases hq with rfl | rfl <;> decide
  rw [Text.quotedChar]
  by_cases hself : c = q ∨ c = '\\'
  · rw [if_pos hself]
    exact ⟨_, _, rfl, hne⟩
  rw [if_neg hself]
  rw [not_or] at hself
  split
  · exact ⟨_, _, rfl, hne⟩
  split
  · exact ⟨_, _, rfl, hne⟩
  split
  · exact ⟨_, _, rfl, hne⟩
  split
  · exact ⟨_, _, rfl, hself.1⟩
  rw [Text.codePointEscape]
  split
  · exact ⟨_, _, rfl, hne⟩
  split
  · exact ⟨_, _, rfl, hne⟩
  · exact ⟨_, _, rfl, hne⟩

end

/-- **A quoted text denotes the text**, where no further quote follows. -/
theorem readLiteral_quoteChars (cs rest : List Char)
    (hrest : rest.head? ≠ some (Text.quoteMark cs)) :
    readLiteral (Text.quoteChars cs ++ rest) = some (cs, rest) := by
  have hq := isQuote_quoteMark cs
  have hbody := readBody_quoted hq cs rest
  generalize hmark : Text.quoteMark cs = q at hq hbody hrest
  have hmarks : q = '\'' ∨ q = '"' := hq
  rw [Text.quoteChars, hmark, List.cons_append, List.cons_append, List.append_assoc,
    List.singleton_append, readLiteral, if_pos hmarks, if_neg, hbody]
  -- no three quotes in a row: characters do not begin with one, nor does what follows
  intro h
  cases cs with
  | nil =>
    rw [List.flatMap_nil, List.nil_append] at h
    cases rest with
    | nil => exact absurd h (by simp)
    | cons d rest =>
      obtain rfl : d = q := by simpa using h
      exact hrest rfl
  | cons c cs =>
    obtain ⟨d, ds, hd, hne⟩ := head?_quotedChar hq c
    rw [List.flatMap_cons, hd] at h
    simp only [List.cons_append, List.take_succ_cons, List.cons.injEq] at h
    exact hne h.1

end OverloadTables.Script
