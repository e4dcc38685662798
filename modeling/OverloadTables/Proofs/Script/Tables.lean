import OverloadTables.Proofs.Script.Outline
import OverloadTables.Signature.Descriptor
import OverloadTables.Tables.Basic
import OverloadTables.Text.Identifier
import Mathlib.Data.List.TakeWhile

/-!
# The tables of a module as data

The members of the enumeration, the signature table and the overload table are read out of the text
of a module.  Every line at the left margin must be the one that is expected there, and every line
of a table is a comment or a row.

* `Script.Module`          what is read;
* `Script.readModule`      a text read;
* `Script.table?`          the rows of a table below the comments they stand under;
* `table?_flatMap`         written tables read back.
-/

namespace OverloadTables.Script

/-! ## values -/

/-- An integer in its shortest form, and what follows it. -/
def integer? : List Char → Option (Int × List Char)
  | '-' :: cs => (number? cs).bind fun p => if p.1 = 0 then none else some (-p.1, p.2)
  | cs => (number? cs).map fun p => (p.1, p.2)

/-- What stands before a character, and the rest from there on. -/
def upTo (c : Char) (cs : List Char) : List Char × List Char :=
  (cs.takeWhile (· ≠ c), cs.dropWhile (· ≠ c))

def truth? (cs : List Char) : Option (Bool × List Char) :=
  (skip "True".toList cs).map (true, ·) <|> (skip "False".toList cs).map (false, ·)

def space? (cs : List Char) : Option (AddressSpace × List Char) :=
  (AddressSpace.all.find? fun s => s.memberName.toList = (upTo ',' cs).1).map
    (·, (upTo ',' cs).2)

/-- The number of a member of the enumeration. -/
def member? (members : List (String × Nat)) (cs : List Char) : Option (Nat × List Char) :=
  (members.lookup (String.ofList (upTo ',' cs).1)).map (·, (upTo ',' cs).2)

/-! ## lines -/

def memberLine? (l : String) : Option (String × Nat) := do
  let cs ← skip "\t".toList l.toList
  let name := (upTo ' ' cs).1
  let cs ← skip " = ".toList (upTo ' ' cs).2
  let (n, cs) ← number? cs
  if cs = [] ∧ Text.isIdentifierChars name then some (String.ofList name, n) else none

/-- The members of an enumeration, which may have none. -/
def members? (ls : List String) : Option (List (String × Nat)) :=
  let shown := ls.filter fun l => !isBlank l
  if shown = ["\tpass"] then some [] else shown.mapM memberLine?

def signatureRow? (members : List (String × Nat)) (cs : List Char) : Option Descriptor := do
  let cs ← skip "\tSignatureType(TypeID.".toList cs
  let (base, cs) ← member? members cs
  let cs ← skip ", ".toList cs
  let (width, cs) ← integer? cs
  let cs ← skip ", AddressSpace.".toList cs
  let (space, cs) ← space? cs
  let cs ← skip ", ".toList cs
  let (pointer, cs) ← truth? cs
  if cs = "),".toList then some ⟨base, width, space, pointer⟩ else none

structure Decl where
  length : Nat
  start : Nat
  extension : String
  version : Int
  deriving DecidableEq, Repr

def declRow? (cs : List Char) : Option Decl := do
  let cs ← skip "\tBuiltinDecl(".toList cs
  let (length, cs) ← number? cs
  let cs ← skip ", ".toList cs
  let (start, cs) ← number? cs
  let cs ← skip ", ".toList cs
  let (extension, cs) ← readLiteral cs
  let cs ← skip ", ".toList cs
  let (version, cs) ← integer? cs
  if cs = "),".toList then some ⟨length, start, String.ofList extension, version⟩ else none

/-- A line of a table: a comment that says `k`, or a row. -/
inductive Item (κ ρ : Type) where
  | mark (k : κ)
  | row (r : ρ)
  deriving DecidableEq, Repr

section
variable {κ ρ : Type}

def item? (comment : List Char → Option κ) (row : List Char → Option ρ) (l : String) :
    Option (Item κ ρ) :=
  match skip "\t# ".toList l.toList with
  | some cs => (comment cs).map .mark
  | none => (row l.toList).map .row

/-- The rows above the first comment, and the comments with the rows below them. -/
def groups? (item : String → Option (Item κ ρ)) :
    List String → Option (List ρ × List (κ × List ρ))
  | [] => some ([], [])
  | l :: ls => do
    -- the rows above the next comment belong to this line, if it is a comment
    let below ← groups? item ls
    match ← item l with
    | .mark k => some ([], (k, below.1) :: below.2)
    | .row r => some (r :: below.1, below.2)

/-- The comments of a table with the rows below them; all rows stand below one. -/
def table? (item : String → Option (Item κ ρ)) (ls : List String) : Option (List (κ × List ρ)) :=
  match groups? item ls with
  | some ([], groups) => some groups
  | _ => none

end

def offset? (cs : List Char) : Option Nat :=
  (number? cs).bind fun p => if p.2 = [] then some p.1 else none

def signatureItem? (members : List (String × Nat)) : String → Option (Item Nat Descriptor) :=
  item? offset? (signatureRow? members)

def declItem? : String → Option (Item String Decl) :=
  item? (fun cs => some (String.ofList cs)) declRow?

/-! ## modules -/

/-- What a module says of its tables: the members of the enumeration with their numbers, and the
rows of each table below its comments. -/
structure Module where
  members : List (String × Nat)
  signatures : List (Nat × List Descriptor)
  overloads : List (String × List Decl)
  deriving DecidableEq, Repr

namespace Module

def signatureTable (m : Module) : List Descriptor := m.signatures.flatMap (·.2)

def decls (m : Module) : List Decl := m.overloads.flatMap (·.2)

/-- The rows of the overload table, with the names they stand under. -/
def rows (m : Module) : List Row :=
  m.overloads.flatMap fun g =>
    g.2.map fun d => ⟨g.1, d.start, d.length, d.extension, d.version⟩

end Module

def enumerationHead : String := "class TypeID(IntEnum):"

def signatureHead : String := "SIGNATURE_TABLE: Tuple[SignatureType, ...] = ("

def overloadHead : String := "BUILTIN_TABLE: Tuple[BuiltinDecl, ...] = ("

/-- All lines of a module at its left margin, comments apart. -/
def outline : List String :=
  ["from __future__ import annotations",
    "from enum import IntEnum",
    "from typing import Any, NamedTuple, Tuple",
    "from builtin_tablegen.core.types_core import AddressSpace",
    enumerationHead,
    "class SignatureType(NamedTuple):",
    "class BuiltinDecl(NamedTuple):",
    signatureHead,
    ")",
    overloadHead,
    ")",
    "def is_builtin(name: str) -> Tuple[int, int]:",
    "def project_type(ctx: Any, ty: SignatureType) -> Any:"]

def readModule (text : String) : Option Module := do
  let ls := moduleLines text
  if ls.filter isOuter = outline then
    let members ← (bodyOf? enumerationHead ls).bind members?
    let signatures ← (bodyOf? signatureHead ls).bind (table? (signatureItem? members))
    let overloads ← (bodyOf? overloadHead ls).bind (table? declItem?)
    some ⟨members, signatures, overloads⟩
  else none

/-! ## values read back -/

theorem integer?_toString (n : Int) {rest : List Char} (h : NoDigit rest) :
    integer? ((toString n).toList ++ rest) = some (n, rest) := by
  cases n with
  | ofNat n =>
    have hread := number?_toString n h
    have hne : (toString n).toList ≠ [] := by
      rw [Text.toList_toString_nat]
      exact Nat.toDigits_ne_nil
    show integer? ((toString n).toList ++ rest) = _
    obtain ⟨c, cs, hcs⟩ := List.exists_cons_of_ne_nil hne
    have hc : c.isDigit = true := Text.isDigit_of_mem_nat (hcs ▸ List.mem_cons_self)
    rw [hcs, List.cons_append] at hread ⊢
    have hsign : c ≠ '-' := by
      rintro rfl
      cases hc
    rw [integer?, hread]
    · rfl
    · rintro cs' e
      exact hsign (List.cons.inj e).1
  | negSucc n =>
    rw [Text.toList_toString_negSucc, List.cons_append, integer?, number?_toString (n + 1) h]
    rfl

section
variable {c : Char} {a : List Char} (h : c ∉ a)
include h

theorem ne_of_notMem : ∀ d ∈ a, decide (d ≠ c) = true :=
  fun d hd => decide_eq_true fun e : d = c => h (e ▸ hd)

theorem upTo_append (b : List Char) : upTo c (a ++ c :: b) = (a, c :: b) := by
  rw [upTo, List.takeWhile_append_of_pos (ne_of_notMem h),
    List.dropWhile_append_of_pos (ne_of_notMem h), List.takeWhile_cons_of_neg (by simp),
    List.dropWhile_cons_of_neg (by simp), List.append_nil]

/-- Without the character everything stands before it. -/
theorem upTo_of_notMem : upTo c a = (a, []) := by
  rw [upTo, List.takeWhile_eq_self_iff.mpr (ne_of_notMem h),
    List.dropWhile_eq_nil_iff.mpr (ne_of_notMem h)]

end

theorem truth?_append (b : Bool) (rest : List Char) :
    truth? ((if b then "True" else "False").toList ++ rest) = some (b, rest) := by
  cases b <;> rfl

theorem space?_append (s : AddressSpace) (rest : List Char) :
    space? (s.memberName.toList ++ ',' :: rest) = some (s, ',' :: rest) := by
  have hcomma : ',' ∉ s.memberName.toList := by
    cases s <;> decide
  rw [space?, upTo_append hcomma]
  cases s <;> rfl

/-! ## tables read back -/

section
variable {κ ρ α γ : Type} {item : String → Option (Item κ ρ)} {line : α → String} {value : α → ρ}

theorem groups?_rows {rows : List α} (h : ∀ a ∈ rows, item (line a) = some (.row (value a)))
    {ls : List String} {rs : List ρ} {groups : List (κ × List ρ)}
    (hls : groups? item ls = some (rs, groups)) :
    groups? item (rows.map line ++ ls) = some (rows.map value ++ rs, groups) := by
  induction rows with
  | nil => exact hls
  | cons a rows ih =>
    obtain ⟨ha, hrows⟩ := List.forall_mem_cons.mp h
    rw [List.map_cons, List.cons_append, groups?, ih hrows, Option.bind_eq_bind, Option.bind_some,
      ha]
    rfl

/-- A table written group by group, each below its comment. -/
theorem table?_flatMap {gs : List γ} {head : γ → String} {key : γ → κ} {rows : γ → List α}
    (hhead : ∀ g ∈ gs, item (head g) = some (.mark (key g)))
    (hrows : ∀ g ∈ gs, ∀ a ∈ rows g, item (line a) = some (.row (value a))) :
    table? item (gs.flatMap fun g => head g :: (rows g).map line)
      = some (gs.map fun g => (key g, (rows g).map value)) := by
  have hgroups : groups? item (gs.flatMap fun g => head g :: (rows g).map line)
      = some ([], gs.map fun g => (key g, (rows g).map value)) := by
    induction gs with
    | nil => rfl
    | cons g gs ih =>
      obtain ⟨hg, hgs⟩ := List.forall_mem_cons.mp hhead
      obtain ⟨hr, hrs⟩ := List.forall_mem_cons.mp hrows
      rw [List.flatMap_cons, List.cons_append, groups?, groups?_rows hr (ih hgs hrs),
        Option.bind_eq_bind, Option.bind_some, hg, List.append_nil]
      rfl
  rw [table?, hgroups]

end

theorem item?_comment {κ ρ : Type} {comment : List Char → Option κ} {row : List Char → Option ρ}
    {l : String} (cs : List Char) {k : κ} (hl : l.toList = "\t# ".toList ++ cs)
    (hk : comment cs = some k) : item? comment row l = some (.mark k) := by
  rw [item?, hl, skip_append]
  show (comment cs).map _ = _
  rw [hk]
  rfl

end OverloadTables.Script
