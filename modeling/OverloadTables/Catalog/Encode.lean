import OverloadTables.Catalog.Basic
import OverloadTables.Digest.Sha256
import OverloadTables.Json.Encode

/-!
# Writing a catalog

* `Content.toJson`         the declarations as a document, every field written out;
* `Content.canonicalBytes` the bytes of the document in its canonical form, if it has any;
* `Content.fingerprint`    their SHA-256.
-/

namespace OverloadTables

def Version.toJson (v : Version) : Json :=
  .obj [("def", .str v.key), ("version", .int v.number)]

/-- A type record; an abstract base has the text `null` for its concrete type. -/
def DeclaredType.toJson (t : DeclaredType) : Json :=
  .obj [("def", .str t.key), ("name", .str t.name), ("vec_width", .int t.width),
    ("addr_space", .str t.space.spelling), ("is_pointer", .bool t.pointer),
    ("qual_type", .str (t.concrete.getD "null"))]

def Overload.toJson (o : Overload) : Json :=
  .obj [("name", .str o.name), ("signature", .arr (o.signature.map .str)),
    ("extension", .str o.extension),
    ("version", match o.version with | none => .null | some key => .str key)]

namespace Content

/-- The member of a label, if there is one. -/
def labelMembers : Option LooseText → Members
  | none => []
  | some label => [("name", .str label)]

def toJson (c : Content) : Json :=
  let members : Members := [("format", .str "builtin-catalog"), ("version", .int 0),
    ("versions", .arr (c.versions.map (·.toJson))), ("types", .arr (c.types.map (·.toJson))),
    ("builtins", .arr (c.overloads.map (·.toJson)))]
  .obj (members ++ labelMembers c.label)

def canonicalBytes (c : Content) : Except Json.WriteFault ByteArray := Json.canonicalBytes c.toJson

def fingerprint (c : Content) : Except Json.WriteFault String :=
  c.canonicalBytes.map fun bytes => Digest.sha256Hex bytes.toList

end Content
end OverloadTables
