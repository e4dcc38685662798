import OverloadTables.Json.Token

/-!
# Reading JSON

The tokens are read by a machine with a stack of open arrays and objects.

* `start`              a value must start with this token;
* `step`               one token read in a state;
* `readTokens`         the tokens of exactly one value;
* `parse`              a text to its value, or the first fault with its line;
* `parseLimited`       the same, where a longer integer is a fault as well.
-/

namespace OverloadTables.Json

/-- What is wrong with a text. -/
inductive SyntaxFault where
  | byteOrderMark
  | expectingValue
  | expectingKey
  | expectingColon
  | expectingComma
  | extraData
  | inText (fault : TextFault)
  /-- An integer has so many digits, more than are read. -/
  | longInteger (digits : Nat)
  deriving DecidableEq, Repr

def TextFault.message : TextFault → String
  | .unterminated => "Unterminated string starting at"
  | .control => "Invalid control character at"
  | .escape => "Invalid \\escape"
  | .unicodeEscape => "Invalid \\uXXXX escape"

def SyntaxFault.message : SyntaxFault → String
  | .byteOrderMark => "Unexpected UTF-8 BOM (decode using utf-8-sig)"
  | .expectingValue => "Expecting value"
  | .expectingKey => "Expecting property name enclosed in double quotes"
  | .expectingColon => "Expecting ':' delimiter"
  | .expectingComma => "Expecting ',' delimiter"
  | .extraData => "Extra data"
  | .inText fault => fault.message
  | .longInteger digits =>
    "Exceeds the limit (4300 digits) for integer string conversion: value has " ++ toString digits
      ++ " digits; use sys.set_int_max_str_digits() to increase the limit"

/-- A fault and the line it stands on. -/
structure SyntaxError where
  fault : SyntaxFault
  line : Nat
  deriving DecidableEq, Repr

/-- An array or object under way. -/
inductive Frame where
  /-- The items so far, the latest first. -/
  | items (done : List Json)
  /-- The members so far, and the key that waits for its value. -/
  | members (done : Members) (key : LooseText)

/-- What comes next. -/
inductive Expect where
  | value
  /-- Just after an opening bracket. -/
  | firstItem
  /-- Just after an opening brace. -/
  | firstKey
  /-- After a comma in an object. -/
  | key (done : Members)
  | colon (done : Members) (key : LooseText)
  /-- A value is complete. -/
  | after (v : Json)

/-- The state between two tokens; the innermost frame first. -/
structure State where
  expect : Expect
  stack : List Frame

/-- A value must start with this token. -/
def start (stack : List Frame) : Token → Except SyntaxFault State
  | .text s => .ok ⟨.after (.str s), stack⟩
  | .scalar v => .ok ⟨.after v, stack⟩
  | .openBracket => .ok ⟨.firstItem, .items [] :: stack⟩
  | .openBrace => .ok ⟨.firstKey, stack⟩
  | .badText e => .error (.inText e)
  | .longInteger digits => .error (.longInteger digits)
  | _ => .error .expectingValue

/-- A key must stand here. -/
def startKey (stack : List Frame) (done : Members) : Token → Except SyntaxFault State
  | .text k => .ok ⟨.colon done k, stack⟩
  | .badText e => .error (.inText e)
  | _ => .error .expectingKey

/-- A value was completed inside the frame on top of the stack. -/
def continueFrame (v : Json) (stack : List Frame) (t : Token) : Except SyntaxFault State :=
  match stack, t with
  | [], _ => .error .extraData
  | .items done :: rest, .comma => .ok ⟨.value, .items (v :: done) :: rest⟩
  | .items done :: rest, .closeBracket => .ok ⟨.after (.arr (v :: done).reverse), rest⟩
  | .members done k :: rest, .comma => .ok ⟨.key (done.set k v), rest⟩
  | .members done k :: rest, .closeBrace => .ok ⟨.after (.obj (done.set k v)), rest⟩
  | _, _ => .error .expectingComma

def step (s : State) (t : Token) : Except SyntaxFault State :=
  match s.expect with
  | .value => start s.stack t
  | .firstItem =>
    match t, s.stack with
    | .closeBracket, _ :: rest => .ok ⟨.after (.arr []), rest⟩
    | t, stack => start stack t
  | .firstKey =>
    match t with
    | .closeBrace => .ok ⟨.after (.obj []), s.stack⟩
    | t => startKey s.stack [] t
  | .key done => startKey s.stack done t
  | .colon done k =>
    match t with
    | .colon => .ok ⟨.value, .members done k :: s.stack⟩
    | _ => .error .expectingColon
  | .after v => continueFrame v s.stack t

/-- The text ends in a state: either one value is complete, or something is missing. -/
def finish (s : State) : Except SyntaxFault Json :=
  match s.expect, s.stack with
  | .after v, [] => .ok v
  | .after _, _ :: _ => .error .expectingComma
  | .value, _ | .firstItem, _ => .error .expectingValue
  | .firstKey, _ | .key _, _ => .error .expectingKey
  | .colon _ _, _ => .error .expectingColon

/-- Reads the tokens from a state on; `lastLine` is the line the text ends on. -/
def run (lastLine : Nat) (s : State) : List Lexeme → Except SyntaxError Json
  | [] => (finish s).mapError (⟨·, lastLine⟩)
  | l :: ls =>
    match step s l.token with
    | .ok s => run lastLine s ls
    | .error e => .error ⟨e, l.line⟩

def readTokens (lastLine : Nat) (ls : List Lexeme) : Except SyntaxError Json :=
  run lastLine ⟨.value, []⟩ ls

/-- Reads characters.  A byte order mark is refused at once. -/
def parseChars (cs : List Char) : Except SyntaxError Json :=
  match cs with
  | '\uFEFF' :: _ => .error ⟨.byteOrderMark, 1⟩
  | cs => readTokens (cs.count '\n' + 1) (lexemes cs)

def parse (s : String) : Except SyntaxError Json := parseChars s.toList

/-- Reads characters, integers up to the limit only. -/
def parseLimited (cs : List Char) : Except SyntaxError Json :=
  match cs with
  | '\uFEFF' :: _ => .error ⟨.byteOrderMark, 1⟩
  | cs => readTokens (cs.count '\n' + 1) ((lexemes cs).map Lexeme.limited)

end OverloadTables.Json
