import OverloadTables.Text.DecimalDigit

/-!
# Arguments of a command

An argument is an operand or a switch.  Switches may stand anywhere, a long one may be cut short as
long as it stays unambiguous, and a value may follow as the next argument, after an equals sign, or
joined to a short switch.  What is attached to a short switch without a value is read as further
short switches.  Two dashes alone make all that follows operands; given as a value, they are none.
A negative number, a dash alone, an empty argument and an unknown switch with a blank in it are
operands.

* `classify`           what one argument is;
* `Grammar.read`       the arguments of a grammar, each switch and operand acting on a state.
-/

namespace OverloadTables.Command

/-- The command line ends the run by itself. -/
inductive Refusal where
  /-- Help was asked for. -/
  | help
  /-- The arguments make no sense. -/
  | usage
  deriving DecidableEq, Repr

/-- A switch and what it does with its values, of which there is at most one. -/
structure Switch (σ : Type) where
  name : List Char
  takesValue : Bool
  act : List String → σ → Except Refusal σ

/-- How many arguments an operand takes. -/
inductive Arity where
  | one
  | oneOrMore
  /-- One argument, and all that follow it, switches or not. -/
  | rest
  deriving DecidableEq, Repr

/-- An operand and what it does with its arguments. -/
structure Operand (σ : Type) where
  arity : Arity
  act : List String → σ → Except Refusal σ

/-- The switches and the operands of a command. -/
structure Grammar (σ : Type) where
  switches : List (Switch σ)
  operands : List (Operand σ)

/-- What an argument is. -/
inductive Mark (σ : Type) where
  | operand
  | separator
  /-- A switch, and what is attached to it in the same argument. -/
  | switch (s : Switch σ) (attached : Option (List Char))
  | unknown

namespace Mark

variable {σ : Type}

def isOperand : Mark σ → Bool
  | .operand => true
  | _ => false

def isSeparator : Mark σ → Bool
  | .separator => true
  | _ => false

def isSwitch : Mark σ → Bool
  | .switch _ _ | .unknown => true
  | _ => false

end Mark

variable {σ : Type}

/-- The text before the first equals sign, and the text after it if there is one. -/
def splitAssigned : List Char → List Char × Option (List Char)
  | [] => ([], none)
  | c :: cs => if c = '=' then ([], some cs) else ((c :: (splitAssigned cs).1), (splitAssigned cs).2)

def findSwitch (ss : List (Switch σ)) (name : List Char) : Option (Switch σ) :=
  ss.find? (·.name = name)

def dropFinalLineFeed (cs : List Char) : List Char :=
  if cs.getLast? = some '\n' then cs.dropLast else cs

/-- Digits, or a point with digits after it and perhaps before it. -/
def isNumber (cs : List Char) : Bool :=
  let after := cs.dropWhile Text.isDecimalDigit
  if after.isEmpty then !cs.isEmpty
  else match after with
    | '.' :: ds => !ds.isEmpty && ds.all Text.isDecimalDigit
    | _ => false

/-- An argument that names no switch: a negative number, or one with a blank, is an operand. -/
def classifyOther (cs : List Char) : Mark σ :=
  if isNumber (dropFinalLineFeed (cs.drop 1)) || cs.contains ' ' then .operand else .unknown

def classify (ss : List (Switch σ)) (arg : String) : Except Refusal (Mark σ) :=
  match arg.toList with
  | '-' :: c :: cs =>
    let whole := '-' :: c :: cs
    let (name, value) := splitAssigned whole
    match findSwitch ss whole, findSwitch ss name with
    | some s, _ => .ok (.switch s none)
    | none, some s => .ok (.switch s value)
    | none, none =>
      if c = '-' then
        match ss.filter (name.isPrefixOf ·.name) with
        | [] => .ok (classifyOther whole)
        | [s] => .ok (.switch s value)
        | _ => .error .usage
      else
        match findSwitch ss ['-', c] with
        | some s => .ok (.switch s (some cs))
        | none => .ok (classifyOther whole)
  | _ => .ok .operand

def classifyAll (ss : List (Switch σ)) : List String → Except Refusal (List (String × Mark σ))
  | [] => .ok []
  | a :: as =>
    if a = "--" then .ok ((a, .separator) :: as.map fun b => (b, .operand))
    else return (a, ← classify ss a) :: (← classifyAll ss as)

/-- How a run of switches in one argument ends. -/
inductive Ending (σ : Type) where
  | done
  /-- A switch that takes a value, given here or by the next argument. -/
  | value (s : Switch σ) (given : Option String)

/-- Short switches in one argument after the switch `s`, which takes no value. -/
def cluster (ss : List (Switch σ)) (s : Switch σ) :
    List Char → Except Refusal (List (Switch σ) × Ending σ)
  | [] => .ok ([s], .done)
  | c :: cs =>
    match findSwitch ss ['-', c] with
    | none => .error .usage
    | some next =>
      if next.takesValue then
        .ok ([s], .value next (if cs.isEmpty then none else some (String.ofList cs)))
      else (cluster ss next cs).map fun r => (s :: r.1, r.2)

def Switch.isShort (s : Switch σ) : Bool := s.name[1]? != some '-'

/-- The switches of one argument in which `v` is attached to the first. -/
def expandAttached (ss : List (Switch σ)) (s : Switch σ) (v : List Char) :
    Except Refusal (List (Switch σ) × Ending σ) :=
  if s.takesValue then .ok ([], .value s (some (String.ofList v)))
  else if s.isShort && !v.isEmpty then cluster ss s v
  else .error .usage

/-- The switches of one argument. -/
def expand (ss : List (Switch σ)) (s : Switch σ) :
    Option (List Char) → Except Refusal (List (Switch σ) × Ending σ)
  | none => .ok (if s.takesValue then ([], .value s none) else ([s], .done))
  | some v => expandAttached ss s v

/-- The switches act in order, without a value. -/
def actAll (ss : List (Switch σ)) (st : σ) : Except Refusal σ :=
  ss.foldlM (fun st s => s.act [] st) st

/-- The values among arguments: the first separator is dropped. -/
def values (as : List String) : List String := as.erase "--"

/-- The switches act in order, the last one on a value. -/
def actWith (flags : List (Switch σ)) (s : Switch σ) (v : String) (st : σ) : Except Refusal σ := do
  s.act (values [v]) (← actAll flags st)

/-- What is being read: the state, the operands still to come, and whether an argument was left
over. -/
structure Reading (σ : Type) where
  state : σ
  pending : List (Operand σ)
  leftOver : Bool

abbrev Marked (σ : Type) := List (String × Mark σ)

/-- The number of arguments an operand takes from the start of a list. -/
def Arity.extent (as : Marked σ) (arity : Arity) : Option Nat :=
  let before := (as.takeWhile (·.2.isSeparator)).length
  match as.drop before with
  | [] => none
  | (_, m) :: after =>
    if m.isOperand then
      match arity with
      | .one => some (before + 1 + (after.takeWhile (·.2.isSeparator)).length)
      | .oneOrMore =>
        some (before + 1 + (after.takeWhile fun a => a.2.isOperand || a.2.isSeparator).length)
      | .rest => some as.length
    else none

/-- The numbers of arguments that operands take one after the other. -/
def extents : List (Operand σ) → Marked σ → Option (List Nat)
  | [], _ => some []
  | o :: os, as => do
    let n ← o.arity.extent as
    return n :: (← extents os (as.drop n))

/-- The numbers of arguments for as many operands as possible, of the first `n`. -/
def mostExtents (os : List (Operand σ)) (as : Marked σ) : Nat → List Nat
  | 0 => []
  | n + 1 => (extents (os.take (n + 1)) as).getD (mostExtents os as n)

/-- The arguments of an operand: the first separator among them is dropped, unless the operand takes
all that follows. -/
def Operand.arguments (o : Operand σ) (as : List String) : List String :=
  if o.arity = .rest then as else values as

/-- Operands act on the arguments they take; the rest of the arguments is given back. -/
def takeOperands (r : Reading σ) : List Nat → Marked σ → Except Refusal (Reading σ × Marked σ)
  | [], as => .ok (r, as)
  | n :: ns, as =>
    match r.pending with
    | [] => .ok (r, as)
    | o :: os => do
      let state ← o.act (o.arguments ((as.take n).map (·.1))) r.state
      takeOperands { r with state, pending := os } ns (as.drop n)

def readOperands (r : Reading σ) (as : Marked σ) : Except Refusal (Reading σ × Marked σ) :=
  takeOperands r (mostExtents r.pending as r.pending.length) as

/-- The first argument is a switch; the rest of the arguments is given back. -/
def readSwitch (ss : List (Switch σ)) (r : Reading σ) (m : Mark σ) (as : Marked σ) :
    Except Refusal (Reading σ × Marked σ) :=
  match m with
  | .switch s attached => do
    let (flags, ending) ← expand ss s attached
    match ending with
    | .done => return ({ r with state := ← actAll flags r.state }, as)
    | .value s (some v) => return ({ r with state := ← actWith flags s v r.state }, as)
    | .value s none =>
      match as with
      | (v, .operand) :: as => return ({ r with state := ← actWith flags s v r.state }, as)
      | _ => throw .usage
  | _ => .ok ({ r with leftOver := true }, as)

/-- Operands and switches in turn, up to the last switch.  Every step takes an argument at least, so
the number of arguments is fuel enough. -/
def readMarked (ss : List (Switch σ)) : Nat → Reading σ → Marked σ → Except Refusal (Reading σ)
  | 0, r, _ => .ok r
  | fuel + 1, r, as => do
    if as.any (·.2.isSwitch) then
      match as with
      | [] => return r
      | (_, m) :: rest =>
        if m.isSwitch then
          let (r, as) ← readSwitch ss r m rest
          readMarked ss fuel r as
        else
          let (r', as') ← readOperands r as
          if as'.length < as.length then readMarked ss fuel r' as'
          else readMarked ss fuel { r with leftOver := true } (as.dropWhile (!·.2.isSwitch))
    else
      let (r, as) ← readOperands r as
      return { r with leftOver := r.leftOver || !as.isEmpty }

/-- Reads the arguments.  Every operand must be there; the second part tells whether an argument was
left over. -/
def Grammar.readSome (g : Grammar σ) (st : σ) (args : List String) :
    Except Refusal (σ × Bool) := do
  let as ← classifyAll g.switches args
  let r ← readMarked g.switches (args.length + 1) ⟨st, g.operands, false⟩ as
  if r.pending.isEmpty then return (r.state, r.leftOver) else throw .usage

/-- Reads the arguments; none may be left over. -/
def Grammar.read (g : Grammar σ) (st : σ) (args : List String) : Except Refusal σ := do
  let (st, leftOver) ← g.readSome st args
  if leftOver then throw .usage else return st

end OverloadTables.Command
