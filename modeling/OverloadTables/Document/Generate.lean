import OverloadTables.Catalog.Decode
import OverloadTables.Document.Json
import OverloadTables.Document.Source
import OverloadTables.Tables.Build

/-!
# From a catalog file to a document

* `tablesOfBytes`      the tables of a file;
* `Format.render`      tables as a document of a format;
* `generate`           both, for a format by its name.
-/

namespace OverloadTables

/-- The formats of documents. -/
inductive Format where
  | python
  | json
  deriving DecidableEq, Repr

/-- Why there is no document. -/
inductive Failure where
  | unsupportedFormat (name : String)
  | load (e : Catalog.LoadError)
  | build (e : BuildFailure)
  | source (e : Source.Failure)
  deriving DecidableEq, Repr

namespace Format

def ofName? (name : String) : Option Format :=
  if name = "python" then some .python else if name = "json" then some .json else none

def render (f : Format) (t : Tables) : Except Failure String :=
  match f with
  | .python => (Source.render t).mapError .source
  | .json => .ok t.jsonDocument

end Format

/-- The rejection of a catalog, if that is what failed. -/
def Failure.rejection? : Failure → Option Rejection
  | .load (.rejected r) | .build (.rejected r) => some r
  | _ => none

def Failure.message : Failure → String
  | .unsupportedFormat name => s!"unsupported output format '{name}'"
  | .load .notUtf8 => "the catalog is not UTF-8"
  | .load (.longInteger digits) => (Json.SyntaxFault.longInteger digits).message
  | .load (.rejected r) | .build (.rejected r) => r.fault.message.shown
  | .build (.signature e) => e.message
  | .build (.index e) => e.message
  | .build (.unwritten e) => e.message
  | .source (.unknownBase base) => s!"no base type has the number {base}"
  | .source (.dispatch e) => e.message

def tablesOfBytes (file : String) (bytes : ByteArray) : Except Failure Tables := do
  let c ← (Catalog.ofBytes file bytes).mapError .load
  (Tables.build c).mapError .build

def documentOfBytes (format : Format) (file : String) (bytes : ByteArray) :
    Except Failure String := do
  format.render (← tablesOfBytes file bytes)

/-- The document of a file's bytes, in the format of a name, which is looked at first. -/
def generate (format : String) (file : String) (bytes : ByteArray) : Except Failure String :=
  match Format.ofName? format with
  | none => .error (.unsupportedFormat format)
  | some f => documentOfBytes f file bytes

end OverloadTables
