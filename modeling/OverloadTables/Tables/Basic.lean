import OverloadTables.BlockIndex
import OverloadTables.Signature.Pool
import OverloadTables.Signature.TypeScope

/-!
# Overload tables

What is generated from a catalog: base types, the signature table with its runs, the overload table
with one block a name, and the index of names.  A catalog with a lone surrogate anywhere has no
tables, so their texts are strings.

* `Tables.rowsOf`      the rows of a name;
* `Tables.signatureOf` the signature of a row.
-/

namespace OverloadTables

/-- One overload: its signature as a run of the signature table, and where it belongs. -/
structure Row where
  name : String
  start : Nat
  length : Nat
  extension : String
  version : Int
  deriving DecidableEq, Repr

/-- The tables of a catalog. -/
structure Tables where
  label : Option String
  fingerprint : String
  bases : List BaseType
  signatureTable : List Descriptor
  runs : List Run
  rows : List Row
  index : BlockIndex

namespace Tables

def rowsAt (t : Tables) (e : Extent) : List Row :=
  (t.rows.drop (e.start - 1).toNat).take e.count.toNat

/-- The rows of a name, none if it is none of a builtin. -/
def rowsOf (t : Tables) (name : String) : List Row := t.rowsAt (t.index.lookup name)

def run (t : Tables) (r : Run) : Signature := (t.signatureTable.drop r.start).take r.length

def signatureOf (t : Tables) (r : Row) : Signature := t.run ⟨r.start, r.length⟩

def concretes (t : Tables) : List (Option String) := t.bases.map (·.concrete)

end Tables
end OverloadTables
