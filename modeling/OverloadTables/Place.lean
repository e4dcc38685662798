/-!
# Places in a catalog

A catalog is a JSON document, so a place is the file, when it is known, and a path of member names
and item numbers such as `builtins[3].signature[1]`.

* `Place.extend`       the place of a part; the first step of a path loses its leading points;
* `Place.member`, `Place.item`   the places of a member and of an item;
* `Place.text`         file and path, with a stand-in for each that is unknown.
-/

namespace OverloadTables

/-- A place: a file and a path inside the document, each as far as it is known. -/
structure Place where
  file : Option String
  path : Option String
  deriving DecidableEq, Repr, Inhabited

namespace Place

def root (file : Option String) : Place := ⟨file, none⟩

/-- The characters after the leading points. -/
def dropPoints (s : String) : String := String.ofList (s.toList.dropWhile (· == '.'))

/-- The place of a part, by a step such as `.name` or `[3]`. -/
def extend (p : Place) (step : String) : Place :=
  match p.path with
  | none => { p with path := some (dropPoints step) }
  | some path => { p with path := some (path ++ step) }

def member (p : Place) (name : String) : Place := p.extend ("." ++ name)

def item (p : Place) (i : Int) : Place := p.extend ("[" ++ toString i ++ "]")

/-- A text that is present and not empty, or a stand-in. -/
def orElse (s : Option String) (standIn : String) : String :=
  match s with
  | none => standIn
  | some s => if s = "" then standIn else s

/-- The file of a place as it is shown. -/
def fileName (p : Place) : String := orElse p.file "<catalog>"

/-- File and path with a colon between them. -/
def text (p : Place) : String := p.fileName ++ ":" ++ orElse p.path "?"

end Place
end OverloadTables
