import OverloadTables.AddressSpace
import OverloadTables.Text.Decimal

/-!
# Table of semantic types

Types are known by their numbers, from one on, in the order they were asked for first.  The same
request always gives the same number.  A request may name any integer as a number, known or not.

The table keeps the definition behind each number, and finds the number of a type that it has in one
of three caches: a slot for void, a map of the builtin types by name, and a map of the others by
what they are made of.

* `TypeTable.add`        a type under the next number;
* `TypeTable.ensureVoid`, `ensureBuiltin`, `ensureDerived`   the number in a cache, or a new one;
* `TypeTable.request`    the number of a type;
* `TypeTable.get`        the type of a number;
* `TypeTable.describe`   a type in words.
-/

namespace OverloadTables

/-- A type over the numbers of other types. -/
inductive SemanticType where
  | void
  | builtin (name : String)
  | vector (element : Int) (width : Int)
  | qualified (inner : Int) (space : AddressSpace)
  | pointer (pointee : Int)
  deriving DecidableEq, Repr

namespace SemanticType

/-- What a type is called; of a type over another one only its form has a name. -/
def name : SemanticType → String
  | .void => "void"
  | .builtin name => name
  | .vector _ _ => "ExtVector"
  | .qualified _ _ => "AddrSpace"
  | .pointer _ => "Pointer"

def parts : SemanticType → List Int
  | .void | .builtin _ => []
  | .vector inner _ | .qualified inner _ | .pointer inner => [inner]

end SemanticType

/-- Why a request or a question fails. -/
inductive TypeFault where
  | unknown (id : Int)
  | width
  | conflictingSpace
  /-- More calls would be nested than the interpreter has frames for. -/
  | tooDeep
  /-- An integer has more digits than the interpreter writes. -/
  | tooManyDigits
  deriving DecidableEq, Repr

/-- The wording of a fault; an unknown number is its own wording. -/
def TypeFault.message : TypeFault → String
  | .unknown id => toString id
  | .width => "vector width must be positive"
  | .conflictingSpace => "type is already qualified with a different address space"
  | .tooDeep => "maximum recursion depth exceeded"
  | .tooManyDigits => Text.digitMessage

/-- What a type over another one is found by. -/
inductive DerivedKey where
  | vector (element : Int) (width : Int)
  | qualified (inner : Int) (space : AddressSpace)
  | pointer (pointee : Int)
  deriving DecidableEq, Repr

def DerivedKey.type : DerivedKey → SemanticType
  | .vector element width => .vector element width
  | .qualified inner space => .qualified inner space
  | .pointer pointee => .pointer pointee

/-- The types by number, the number of the next one, and the caches.  A map is a list of its keys
with their values, of which the first one counts. -/
structure TypeTable where
  definitions : List (Int × SemanticType)
  next : Int
  void : Option Int
  builtins : List (String × Int)
  derived : List (DerivedKey × Int)
  deriving DecidableEq, Repr

namespace TypeTable

/-- Nothing is stored; no type has the number zero. -/
def empty : TypeTable := ⟨[], 1, none, [], []⟩

/-- The number of a new type, and the table with it.  The caches do not know of it yet. -/
def add (t : TypeTable) (d : SemanticType) : Int × TypeTable :=
  (t.next, { t with definitions := (t.next, d) :: t.definitions, next := t.next + 1 })

def ensureVoid (t : TypeTable) : Int × TypeTable :=
  match t.void with
  | some id => (id, t)
  | none =>
    let (id, t) := t.add .void
    (id, { t with void := some id })

def ensureBuiltin (t : TypeTable) (name : String) : Int × TypeTable :=
  match t.builtins.lookup name with
  | some id => (id, t)
  | none =>
    let (id, t) := t.add (.builtin name)
    (id, { t with builtins := (name, id) :: t.builtins })

/-- The number of a type over another one. -/
def ensureDerived (t : TypeTable) (key : DerivedKey) : Int × TypeTable :=
  match t.derived.lookup key with
  | some id => (id, t)
  | none =>
    let (id, t) := t.add key.type
    (id, { t with derived := (key, id) :: t.derived })

def get? (t : TypeTable) (id : Int) : Option SemanticType := t.definitions.lookup id

def get (t : TypeTable) (id : Int) : Except TypeFault SemanticType :=
  match t.get? id with
  | some d => .ok d
  | none => .error (.unknown id)

/-- What may be asked for. -/
inductive Request where
  | void
  | builtin (name : String)
  | vector (element : Int) (width : Int)
  | qualify (inner : Int) (space : AddressSpace)
  | pointer (pointee : Int)
  deriving DecidableEq, Repr

/-- The number of a requested type.  Only a qualification looks at the type it is built on: by the
default space it changes nothing, and so it does if the type has this space already. -/
def request (t : TypeTable) : Request → Except TypeFault (Int × TypeTable)
  | .void => .ok t.ensureVoid
  | .builtin name => .ok (t.ensureBuiltin name)
  | .vector element width =>
    if width ≤ 0 then .error .width else .ok (t.ensureDerived (.vector element width))
  | .qualify inner space =>
    if space = .default then .ok (inner, t)
    else match t.get? inner with
      | none => .error (.unknown inner)
      | some (.qualified _ space') =>
        if space' = space then .ok (inner, t) else .error .conflictingSpace
      | some _ => .ok (t.ensureDerived (.qualified inner space))
  | .pointer pointee => .ok (t.ensureDerived (.pointer pointee))

/-- A type in words, where so many calls may be nested.  What a type is made of is described before
anything is written of the type. -/
def describe (t : TypeTable) : Nat → Int → Except TypeFault String
  | 0, _ => .error .tooDeep
  | frames + 1, id => do
    match ← t.get id with
    | .void => return "void"
    | .builtin name => return name
    | .vector element width =>
      let inner ← t.describe frames element
      if Text.withinLimit width then return toString width ++ "-wide vector of " ++ inner
      else throw .tooManyDigits
    | .qualified inner space =>
      return "(address space " ++ space.spelling ++ ") " ++ (← t.describe frames inner)
    | .pointer pointee => return "pointer to " ++ (← t.describe frames pointee)

end TypeTable
end OverloadTables
