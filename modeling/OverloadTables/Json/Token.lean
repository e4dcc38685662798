import OverloadTables.Json.Basic
import OverloadTables.Text.Decimal
import OverloadTables.Text.Hex
import OverloadTables.Text.Utf16

/-!
# Tokens of a JSON text

A text is cut into tokens, each with the number of the line it starts on.  The cut never fails: a
string that is not well formed and a character that starts no token become tokens themselves, so
that the reader of tokens can say what it expected in their place.

* `scanText`           the inside of a string, up to its closing quote;
* `scanNumber`         the longest number a text starts with;
* `tokenAt`            the token that starts with a given character;
* `lexemes`            the tokens of a text with their lines;
* `Lexeme.limited`     a token where integers have a limit.
-/

namespace OverloadTables.Json

/-- What is wrong inside a string. -/
inductive TextFault where
  | unterminated
  | control
  | escape
  | unicodeEscape
  deriving DecidableEq, Repr

/-- What a string holds before surrogates are joined: plain characters, and units spelled in
hexadecimal digits. -/
inductive Piece where
  | plain (c : Char)
  | unit (u : Nat)
  deriving DecidableEq, Repr

/-- The character that a letter after a backslash stands for. -/
def escapeLetter? : Char → Option Char
  | '"' => some '"'
  | '\\' => some '\\'
  | '/' => some '/'
  | 'b' => some '\x08'
  | 'f' => some '\x0C'
  | 'n' => some '\n'
  | 'r' => some '\r'
  | 't' => some '\t'
  | _ => none

/-- Puts a piece before what was scanned after it. -/
def consPiece (p : Piece) :
    Except TextFault (List Piece × List Char) → Except TextFault (List Piece × List Char)
  | .ok (ps, rest) => .ok (p :: ps, rest)
  | .error e => .error e

/-- The pieces up to the closing quote, and the text after it.  Four hexadecimal digits must be
followed by at least one more character. -/
def scanText : List Char → Except TextFault (List Piece × List Char)
  | [] => .error .unterminated
  | '"' :: r => .ok ([], r)
  | ['\\'] => .error .unterminated
  | '\\' :: 'u' :: a :: b :: c :: d :: e :: r =>
    match Text.hexValue4? a b c d with
    | some u => consPiece (.unit u) (scanText (e :: r))
    | none => .error .unicodeEscape
  | '\\' :: 'u' :: _ => .error .unicodeEscape
  | '\\' :: l :: r =>
    match escapeLetter? l with
    | some c => consPiece (.plain c) (scanText r)
    | none => .error .escape
  | c :: r => if c.toNat < 0x20 then .error .control else consPiece (.plain c) (scanText r)

/-- The code points of the pieces: neighbouring surrogates spelled as units are one character. -/
def joinPieces : List Piece → List Point
  | [] => []
  | .plain c :: ps => .char c :: joinPieces ps
  | .unit u :: .unit v :: ps =>
    if Text.isHighSurrogate u && Text.isLowSurrogate v then
      .char (Text.pairedUnits u v) :: joinPieces ps
    else Text.unitPoint u :: joinPieces (.unit v :: ps)
  | .unit u :: ps => Text.unitPoint u :: joinPieces ps

/-- A token of a JSON text. -/
inductive Token where
  | openBrace
  | closeBrace
  | openBracket
  | closeBracket
  | comma
  | colon
  | text (s : LooseText)
  /-- `null`, a boolean or a number. -/
  | scalar (v : Json)
  /-- A string that is not well formed. -/
  | badText (fault : TextFault)
  /-- An integer of so many digits, more than are read. -/
  | longInteger (digits : Nat)
  /-- A character that starts no token. -/
  | stray
  deriving BEq, Repr

/-- The token where integers are read up to the limit only. -/
def Token.limited : Token → Token
  | .scalar (.int n) =>
    if Text.withinLimit n then .scalar (.int n) else .longInteger (Nat.toDigits 10 n.natAbs).length
  | t => t

/-- The digits of a fraction: a point with at least one digit after it. -/
def scanFraction : List Char → List Char × List Char
  | '.' :: d :: r =>
    if d.isDigit then (d :: r.takeWhile Char.isDigit, r.dropWhile Char.isDigit)
    else ([], '.' :: d :: r)
  | r => ([], r)

/-- An exponent: the letter e, a sign or none, and at least one digit. -/
def scanExponent : List Char → Option (Int × List Char)
  | e :: r =>
    if e = 'e' ∨ e = 'E' then
      let (negative, r) := match r with
        | '-' :: r => (true, r)
        | '+' :: r => (false, r)
        | r => (false, r)
      let digits := r.takeWhile Char.isDigit
      if digits.isEmpty then none
      else
        let n : Int := Nat.ofDigitChars 10 digits 0
        some (if negative then -n else n, r.dropWhile Char.isDigit)
    else none
  | [] => none

/-- What follows the integer digits of a number. -/
def scanNumberTail (negative : Bool) (digits : List Char) (r : List Char) : Json × List Char :=
  let (fraction, r1) := scanFraction r
  let all := Nat.ofDigitChars 10 (digits ++ fraction) 0
  match scanExponent r1 with
  | some (e, r2) => (.real (.finite negative all (e - fraction.length)), r2)
  | none =>
    if fraction.isEmpty then (.int (if negative then -(all : Int) else all), r1)
    else (.real (.finite negative all (-(fraction.length : Int))), r1)

/-- The longest number the text starts with: a zero, or digits that start with another one. -/
def scanNumber (negative : Bool) : List Char → Option (Json × List Char)
  | [] => none
  | c :: r =>
    if c = '0' then some (scanNumberTail negative [c] r)
    else if c.isDigit then
      some (scanNumberTail negative (c :: r.takeWhile Char.isDigit) (r.dropWhile Char.isDigit))
    else none

def numberToken (negative : Bool) (cs : List Char) : Token × List Char :=
  match scanNumber negative cs with
  | some (v, r) => (.scalar v, r)
  | none => (.stray, [])

/-- The token that starts with `c`, and the text after it.  After a fault nothing is left to
cut. -/
def tokenAt (c : Char) (r : List Char) : Token × List Char :=
  match c, r with
  | '{', r => (.openBrace, r)
  | '}', r => (.closeBrace, r)
  | '[', r => (.openBracket, r)
  | ']', r => (.closeBracket, r)
  | ',', r => (.comma, r)
  | ':', r => (.colon, r)
  | '"', r =>
    match scanText r with
    | .ok (ps, r) => (.text (.ofPoints (joinPieces ps)), r)
    | .error e => (.badText e, [])
  | 'n', 'u' :: 'l' :: 'l' :: r => (.scalar .null, r)
  | 't', 'r' :: 'u' :: 'e' :: r => (.scalar (.bool true), r)
  | 'f', 'a' :: 'l' :: 's' :: 'e' :: r => (.scalar (.bool false), r)
  | 'N', 'a' :: 'N' :: r => (.scalar (.real .nan), r)
  | 'I', 'n' :: 'f' :: 'i' :: 'n' :: 'i' :: 't' :: 'y' :: r => (.scalar (.real (.infinite false)), r)
  | '-', 'I' :: 'n' :: 'f' :: 'i' :: 'n' :: 'i' :: 't' :: 'y' :: r =>
    (.scalar (.real (.infinite true)), r)
  | '-', r => numberToken true r
  | c, r => numberToken false (c :: r)

/-- A token with the line it starts on. -/
structure Lexeme where
  line : Nat
  token : Token
  deriving BEq, Repr

def Lexeme.limited (l : Lexeme) : Lexeme := { l with token := l.token.limited }

def isBlank (c : Char) : Bool := c = ' ' || c = '\t' || c = '\n' || c = '\r'

/-- The tokens of a text that starts on a given line.  Every step takes at least one character,
so the length of the text is fuel enough. -/
def lexemesFrom : Nat → Nat → List Char → List Lexeme
  | 0, _, _ => []
  | _, _, [] => []
  | fuel + 1, line, c :: r =>
    if isBlank c then lexemesFrom fuel (if c = '\n' then line + 1 else line) r
    else
      let (token, rest) := tokenAt c r
      ⟨line, token⟩ :: lexemesFrom fuel line rest

/-- The tokens of a text with their lines, counted from one. -/
def lexemes (cs : List Char) : List Lexeme := lexemesFrom cs.length 1 cs

end OverloadTables.Json
