import OverloadTables.Proofs.Script.Literal

/-!
# String literals of Python

`Script.readLiteral` refuses the escapes that `Text.quote` never writes.  The reader here knows all
escapes of the language.  It takes source whose line ends are line feeds and that has no null
character; literals with three quotes or with a prefix are of another kind.

* `StringLiteral.step named q m c`   what one character does to a reader that stands at `m` in a
                          literal with the quote `q`; `named` finds the characters with a name;
* `StringLiteral.read named cs`   the characters that a literal denotes, and what follows it;
* `StringLiteral.Follows`   one step of the smaller reader, told by the step of this one;
* `read_of_readLiteral`   what `Script.readLiteral` reads is read alike.
-/

namespace OverloadTables.Script.StringLiteral

/-- Where a reader stands inside a literal. -/
inductive Mode where
  | plain
  | escape
  /-- One hexadecimal digit and `more` are missing to the code point that begins with `value`. -/
  | hex (more value : Nat)
  /-- The octal digits of `value` were read, and up to `more` may follow. -/
  | octal (more value : Nat)
  /-- The brace in front of a name is missing. -/
  | brace
  /-- Inside the braces, behind the characters `read`, the last one first. -/
  | name (read : List Char)
  deriving DecidableEq, Repr

/-- What a character does. -/
inductive Step where
  | refused
  /-- The literal ends, and the characters `out` were denoted last. -/
  | closes (out : List Char)
  /-- The characters `out` were denoted, and the reader goes on. -/
  | goes (out : List Char) (m : Mode)
  deriving DecidableEq, Repr

/-- A character is denoted in front of what a step denotes. -/
def Step.after (d : Char) : Step → Step
  | .refused => .refused
  | .closes out => .closes (d :: out)
  | .goes out m => .goes (d :: out) m

/-- The only thing a step may denote, if it is a character at all. -/
def denotes : Option Char → Step
  | none => .refused
  | some d => .goes [d] .plain

def octalValue? (c : Char) : Option Nat :=
  if '0' ≤ c && c ≤ '7' then some (c.toNat - '0'.toNat) else none

/-- The character of an escape by one letter. -/
def letter? : Char → Option Char
  | '\\' => some '\\'
  | '\'' => some '\''
  | '"' => some '"'
  | 'a' => some '\x07'
  | 'b' => some '\x08'
  | 't' => some '\t'
  | 'n' => some '\n'
  | 'v' => some '\x0b'
  | 'f' => some '\x0c'
  | 'r' => some '\r'
  | _ => none

/-- What goes on behind the first character of an escape. -/
def mode? : Char → Option Mode
  | 'x' => some (.hex 1 0)
  | 'u' => some (.hex 3 0)
  | 'U' => some (.hex 7 0)
  | 'N' => some .brace
  | c => (octalValue? c).map (.octal 2)

def plainStep (q c : Char) : Step :=
  if c = q then .closes []
  else if c = '\\' then .goes [] .escape
  else if c = '\n' ∨ c = '\r' then .refused
  else .goes [c] .plain

/-- A line feed behind a backslash is passed over; a backslash that escapes nothing stands for
itself. -/
def escapeStep (c : Char) : Step :=
  match mode? c with
  | some m => .goes [] m
  | none =>
    match letter? c with
    | some d => .goes [d] .plain
    | none =>
      if c = '\n' then .goes [] .plain
      else if c = '\r' then .refused
      else .goes ['\\', c] .plain

/-- `more` digits are missing behind those of `value`. -/
def hexNext (value : Nat) : Nat → Step
  | 0 => denotes (scalar? value)
  | more + 1 => .goes [] (.hex more value)

def hexStep (more value : Nat) (c : Char) : Step :=
  match Text.hexValue? c with
  | none => .refused
  | some v => hexNext (value * 16 + v) more

/-- An octal number ends with its third digit or in front of what is no digit. -/
def octalStep (q : Char) (more value : Nat) (c : Char) : Step :=
  match more, octalValue? c with
  | more + 1, some v => .goes [] (.octal more (value * 8 + v))
  | _, _ => (plainStep q c).after (Char.ofNat value)

def nameStep (named : List Char → Option Char) (q : Char) (read : List Char) (c : Char) : Step :=
  if c = '\x7d' then denotes (named read.reverse)
  else if c = q ∨ c = '\\' ∨ c = '\n' ∨ c = '\r' then .refused
  else .goes [] (.name (c :: read))

def step (named : List Char → Option Char) (q : Char) : Mode → Char → Step
  | .plain, c => plainStep q c
  | .escape, c => escapeStep c
  | .hex more value, c => hexStep more value c
  | .octal more value, c => octalStep q more value c
  | .brace, c => if c = '\x7b' then .goes [] (.name []) else .refused
  | .name read, c => nameStep named q read c

/-- The rest of a literal with the quote `q`, and what follows it. -/
def run (named : List Char → Option Char) (q : Char) :
    Mode → List Char → Option (List Char × List Char)
  | _, [] => none
  | m, c :: cs =>
    match step named q m c with
    | .refused => none
    | .closes out => some (out, cs)
    | .goes out m' => (run named q m' cs).map fun r => (out ++ r.1, r.2)

/-- The characters that a literal denotes, and what follows it. -/
def read (named : List Char → Option Char) : List Char → Option (List Char × List Char)
  | [] => none
  | q :: cs =>
    if q = '\'' ∨ q = '"' then
      if cs.take 2 = [q, q] then none else run named q .plain cs
    else none

/-! ## steps -/

section
variable {named : List Char → Option Char} {q c : Char} {m m' : Mode}

theorem run_goes {out : List Char} (h : step named q m c = .goes out m') (cs : List Char) :
    run named q m (c :: cs) = (run named q m' cs).map fun r => (out ++ r.1, r.2) := by
  rw [run, h]

theorem run_silent (h : step named q m c = .goes [] m') (cs : List Char) :
    run named q m (c :: cs) = run named q m' cs := by
  rw [run_goes h]
  cases run named q m' cs with
  | none => rfl
  | some r => rfl

theorem run_denotes {d : Char} (h : step named q m c = .goes [d] m') (cs : List Char) :
    run named q m (c :: cs) = before d (run named q m' cs) := by
  rw [run_goes h]
  cases run named q m' cs with
  | none => rfl
  | some r => rfl

theorem escapeStep_letter {d : Char} (h : escaped? c = some d) :
    escapeStep c = .goes [d] .plain := by
  unfold escaped? at h
  split at h
  all_goals cases h
  all_goals rfl

end

/-! ## what the smaller reader reads -/

/-- Where the smaller reader stands. -/
def ofMode : Script.Mode → Mode
  | .plain => .plain
  | .escape => .escape
  | .digits more value => .hex more value

theorem escapeStep_codePoint {c : Char} {m : Script.Mode} (h : codePointMode? c = some m) :
    escapeStep c = .goes [] (ofMode m) := by
  unfold codePointMode? at h
  split at h
  all_goals cases h
  all_goals rfl

theorem before_eq_some {d : Char} {x : Option (List Char × List Char)} {r : List Char × List Char} :
    before d x = some r ↔ ∃ cs rest, x = some (cs, rest) ∧ r = (d :: cs, rest) := by
  constructor
  · intro h
    cases x with
    | none => exact nomatch h
    | some p => exact ⟨p.1, p.2, rfl, (Option.some.inj h).symm⟩
  · rintro ⟨cs, rest, rfl, rfl⟩
    rfl

section
variable {named : List Char → Option Char} {q c : Char} {cs : List Char}
  {r : List Char × List Char}

/-- What a character does to the smaller reader, which ends with `r`, it does to the reader. -/
inductive Follows (named : List Char → Option Char) (q : Char) (m : Script.Mode) (c : Char)
    (cs : List Char) (r : List Char × List Char) : Prop where
  | closes (hstep : step named q (ofMode m) c = .closes []) (hr : r = ([], cs))
  | silent (m' : Script.Mode) (hstep : step named q (ofMode m) c = .goes [] (ofMode m'))
      (h : readBody q m' cs = some r)
  | denotes (d : Char) (hstep : step named q (ofMode m) c = .goes [d] (ofMode .plain))
      (h : before d (readBody q .plain cs) = some r)

theorem follows_plain (h : readBody q .plain (c :: cs) = some r) :
    Follows named q .plain c cs r := by
  rw [readBody] at h
  by_cases hq : c = q
  · rw [if_pos hq] at h
    apply Follows.closes
    · rw [ofMode, step, plainStep, if_pos hq]
    · exact (Option.some.inj h).symm
  rw [if_neg hq] at h
  by_cases hb : c = '\\'
  · rw [if_pos hb] at h
    apply Follows.silent .escape _ h
    rw [ofMode, step, plainStep, if_neg hq, if_pos hb]
    rfl
  rw [if_neg hb] at h
  by_cases hend : c = '\n' ∨ c = '\r'
  · rw [if_pos hend] at h
    cases h
  rw [if_neg hend] at h
  apply Follows.denotes c _ h
  rw [ofMode, step, plainStep, if_neg hq, if_neg hb, if_neg hend]

theorem follows_escape (h : readBody q .escape (c :: cs) = some r) :
    Follows named q .escape c cs r := by
  rw [readBody] at h
  cases hm : codePointMode? c with
  | some m =>
    rw [hm] at h
    exact .silent m (escapeStep_codePoint hm) h
  | none =>
    rw [hm] at h
    cases hd : escaped? c with
    | some d =>
      simp only [hd] at h
      exact .denotes d (escapeStep_letter hd) h
    | none =>
      simp only [hd] at h
      cases h

theorem follows_digits {more value : Nat} (h : readBody q (.digits more value) (c :: cs) = some r) :
    Follows named q (.digits more value) c cs r := by
  cases hv : Text.hexValue? c with
  | none =>
    cases more <;> simp [readBody, hv] at h
  | some v =>
    have hstep : step named q (ofMode (.digits more value)) c = hexNext (value * 16 + v) more := by
      rw [ofMode, step, hexStep, hv]
    cases more with
    | zero =>
      cases hd : scalar? (value * 16 + v) with
      | none => simp [readBody, hv, hd] at h
      | some d =>
        simp only [readBody, hv, hd] at h
        apply Follows.denotes d _ h
        rw [hstep, hexNext, hd]
        rfl
    | succ more =>
      simp only [readBody, hv] at h
      exact .silent (.digits more (value * 16 + v)) hstep h

theorem run_of_readBody {m : Script.Mode} (h : readBody q m cs = some r) :
    run named q (ofMode m) cs = some r := by
  induction cs generalizing m r with
  | nil =>
    rw [readBody] at h
    cases h
  | cons c cs ih =>
    have hfollows : Follows named q m c cs r := by
      cases m with
      | plain => exact follows_plain h
      | escape => exact follows_escape h
      | digits more value => exact follows_digits h
    cases hfollows with
    | closes hstep hr => rw [run, hstep, hr]
    | silent m' hstep h' => rw [run_silent hstep, ih h']
    | denotes d hstep h' =>
      obtain ⟨ds, rest, hrest, rfl⟩ := before_eq_some.mp h'
      rw [run_denotes hstep, ih hrest]
      rfl

/-- **What the smaller reader reads is read alike.** -/
theorem read_of_readLiteral (h : readLiteral cs = some r) : read named cs = some r := by
  cases cs with
  | nil => cases h
  | cons q cs =>
    rw [readLiteral] at h
    rw [read]
    split at h
    · split at h
      · cases h
      next hquote hthree =>
        rw [if_pos hquote, if_neg hthree]
        exact run_of_readBody h
    · cases h

end

/-- An octal number of three digits, a name, a line that goes on and a backslash that escapes
nothing; the literal ends in front of the blank. -/
example : read (fun n => if n = "DIGIT ONE".toList then some '1' else none)
      "'\\1234\\N\x7bDIGIT ONE\x7d\\\n\\q' in".toList
    = some (['S', '4', '1', '\\', 'q'], [' ', 'i', 'n']) := by
  decide

end OverloadTables.Script.StringLiteral
