import OverloadTables.Json.Basic
import OverloadTables.Place

/-!
# Diagnostics

What is told of a fault: its message, code and place, and notes.

* `Diagnostic.human`   lines for a reader, the place's path after the message;
* `Diagnostic.toJson`  all fields for a program; line and column are never known.
-/

namespace OverloadTables

/-- A message about a catalog. -/
structure Diagnostic where
  message : LooseText
  code : Option String
  /-- The stage that found the fault: `catalog` for one record, `tables` across records. -/
  phase : Option String
  severity : String
  place : Place
  notes : List LooseText
  deriving DecidableEq, Repr

namespace Diagnostic

/-- Lines for a reader: one for the message and one a note. -/
def human (d : Diagnostic) : LooseText :=
  let code := match d.code with
    | none => ""
    | some c => if c = "" then "" else "[" ++ c ++ "] "
  let place := match d.place.path with
    | none => ""
    | some p => if p = "" then "" else " (at " ++ p ++ ")"
  (d.place.fileName ++ ":?:?: " ++ d.severity ++ ": " ++ code) ++ d.message ++ place
    ++ .join (d.notes.map fun n => "\n  note: " ++ n)

def textOrNull : Option String → Json
  | none => .null
  | some s => .str s

def toJson (d : Diagnostic) : Json :=
  .obj [("phase", textOrNull d.phase), ("code", textOrNull d.code), ("message", .str d.message),
    ("severity", .str d.severity), ("file", textOrNull d.place.file),
    ("path", textOrNull d.place.path), ("line", .null), ("column", .null),
    ("notes", .arr (d.notes.map .str))]

end Diagnostic
end OverloadTables
