import OverloadTables.Command.FileSystem

/-!
# A file system as a value

Files and directories by location, a location being the components from the root on.  There are no
links and no permissions.

* `Volume.walk`        the location a path leads to;
* `Volume.run`         a command run on a volume.
-/

namespace OverloadTables.Command

/-- The components from the root on. -/
abbrev Location := List String

inductive Node where
  | file (bytes : ByteArray)
  | directory

/-- Files and directories, and the location that relative paths start at.  The root is always a
directory. -/
structure Volume where
  nodes : List (Location × Node)
  here : Location

namespace Volume

def node? (v : Volume) (l : Location) : Option Node :=
  if l = [] then some .directory else v.nodes.lookup l

def put (v : Volume) (l : Location) (n : Node) : Volume :=
  { v with nodes := (l, n) :: v.nodes.filter (·.1 ≠ l) }

/-- A name longer than 255 bytes. -/
def tooLong (part : String) : Bool := 255 < part.utf8ByteSize

/-- The location that components lead to from a location.  All but the last must be there; each but
the last must be a directory. -/
def walk (v : Volume) : Location → List String → Except Refused Location
  | l, [] => .ok l
  | l, part :: parts =>
    match v.node? l with
    | none => .error .notFound
    | some (.file _) => .error .notADirectory
    | some .directory =>
      if part = ".." then v.walk l.dropLast parts
      else if tooLong part then .error .nameTooLong
      else v.walk (l ++ [part]) parts

def locate (v : Volume) (p : Path) : Except Refused Location :=
  if 4096 ≤ p.toString.utf8ByteSize then .error .nameTooLong
  else match p.anchor with
    | .here => v.walk v.here p.parts
    | _ => v.walk [] p.parts

def read (v : Volume) (p : Path) : Except Refused ByteArray := do
  match v.node? (← v.locate p) with
  | none => throw .notFound
  | some .directory => throw .isADirectory
  | some (.file bytes) => return bytes

/-- The volume with a file's text replaced or a new file. -/
def write (v : Volume) (p : Path) (text : String) : Except Refused Volume := do
  let l ← v.locate p
  match v.node? l with
  | some .directory => throw .isADirectory
  | _ => return v.put l (.file text.toUTF8)

def makeDirectory (v : Volume) (p : Path) : Except Refused Volume := do
  let l ← v.locate p
  if p.parts = [] ∨ p.parts.getLast? = some ".." ∨ (v.node? l).isSome then throw .exists
  else return v.put l .directory

def isDirectory (v : Volume) (p : Path) : Bool :=
  match v.locate p with
  | .error _ => false
  | .ok l =>
    match v.node? l with
    | some .directory => true
    | _ => false

/-- Commands run on a volume. -/
abbrev On := StateM Volume

/-- An operation that may be refused and otherwise changes the volume. -/
def change (f : Volume → Except Refused Volume) : On (Except Refused Unit) := fun v =>
  match f v with
  | .ok v' => (.ok (), v')
  | .error e => (.error e, v)

instance : FileSystem On where
  read p := fun v => (v.read p, v)
  write p text := change (·.write p text)
  makeDirectory p := change (·.makeDirectory p)
  isDirectory p := fun v => (v.isDirectory p, v)

end Volume
end OverloadTables.Command
