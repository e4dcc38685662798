import OverloadTables.Diagnostic
import OverloadTables.Json.Writer
import OverloadTables.Tables.Basic

/-!
# The tables as a JSON document

The document counts as the module does: the signature table from zero, the blocks of the index from
one.

* `Tables.toJson`          the document;
* `Tables.jsonDocument`    its text, keys sorted, two blanks a level.
-/

namespace OverloadTables

/-- The base types with their numbers, of which the first is `i`. -/
def basesToJson : Nat → List BaseType → List Json
  | _, [] => []
  | i, b :: bs =>
    .obj [("id", .int i), ("name", .str b.name), ("qual_type", Diagnostic.textOrNull b.concrete)]
      :: basesToJson (i + 1) bs

def Descriptor.toJson (d : Descriptor) : Json :=
  .obj [("type_id", .int d.base), ("vector_width", .int d.width),
    ("addr_space", .str d.space.spelling), ("is_pointer", .bool d.pointer)]

def Row.toJson (r : Row) : Json :=
  .obj [("name", .str r.name), ("num_types", .int r.length), ("sig_index", .int r.start),
    ("extension", .str r.extension), ("version", .int r.version)]

def Block.toJson (b : Block) : Json :=
  .obj [("name", .str b.name), ("start", .int b.extent.start), ("count", .int b.extent.count)]

namespace Tables

def toJson (t : Tables) : Json :=
  .obj [("format", .str "builtin-tables"), ("version", .int 0),
    ("catalog", Diagnostic.textOrNull t.label), ("catalog_sha256", .str t.fingerprint),
    ("type_ids", .arr (basesToJson 0 t.bases)),
    ("signature_table", .arr (t.signatureTable.map (·.toJson))),
    ("builtin_table", .arr (t.rows.map (·.toJson))),
    ("name_index", .arr (t.index.blocks.map (·.toJson)))]

def jsonDocument (t : Tables) : String := Json.render .indented (Json.sorted t.toJson) ++ "\n"

end Tables
end OverloadTables
