import OverloadTables.Command.Path
import OverloadTables.Text.Quoted

/-!
# File systems

What a command asks of a file system, and how its refusals are worded.  A path with a null
character is never handed to a file system.

* `FileSystem`         reading, writing, and making directories;
* `readFile`, `writeFile`   reading and writing by any path;
* `ensureDirectory`    a directory and all above it, made as far as they are missing.
-/

namespace OverloadTables.Command

/-- Why an operation is refused. -/
inductive Refused where
  | notFound
  | exists
  | notADirectory
  | isADirectory
  | nameTooLong
  | other (number : Nat) (text : String)
  deriving DecidableEq, Repr

namespace Refused

def number : Refused → Nat
  | .notFound => 2
  | .exists => 17
  | .notADirectory => 20
  | .isADirectory => 21
  | .nameTooLong => 36
  | .other number _ => number

def text : Refused → String
  | .notFound => "No such file or directory"
  | .exists => "File exists"
  | .notADirectory => "Not a directory"
  | .isADirectory => "Is a directory"
  | .nameTooLong => "File name too long"
  | .other _ text => text

end Refused

/-- A refused operation and its path. -/
structure FileFault where
  refused : Refused
  path : Path
  deriving DecidableEq, Repr

def FileFault.message (f : FileFault) : String :=
  s!"[Errno {f.refused.number}] {f.refused.text}: {Text.quote f.path.toString}"

/-- Why a file operation fails. -/
inductive FileFailure where
  | refused (f : FileFault)
  /-- The path has a null character. -/
  | nullCharacter
  deriving DecidableEq, Repr

/-- What a command asks of a file system. -/
class FileSystem (m : Type → Type) where
  read : Path → m (Except Refused ByteArray)
  write : Path → String → m (Except Refused Unit)
  makeDirectory : Path → m (Except Refused Unit)
  isDirectory : Path → m Bool

variable {m : Type → Type} [Monad m] [FileSystem m]

/-- The result of an operation on a path. -/
def resultAt {α : Type} (p : Path) : Except Refused α → Except FileFailure α :=
  Except.mapError fun refused => .refused ⟨refused, p⟩

/-- An operation on a path, unless the path has a null character. -/
def unlessNull {α : Type} (p : Path) (act : m (Except FileFailure α)) :
    m (Except FileFailure α) :=
  if p.hasNull then return .error .nullCharacter else act

def readFile (p : Path) : m (Except FileFailure ByteArray) :=
  unlessNull p do return resultAt p (← FileSystem.read p)

/-- A refusal to make a directory is none if the directory is there. -/
def unlessDirectory (p : Path) (refused : Refused) : m (Except FileFailure Unit) := do
  if ← FileSystem.isDirectory p then return .ok () else return .error (.refused ⟨refused, p⟩)

/-- A directory whose parent is there. -/
def ensureLast (p : Path) : m (Except FileFailure Unit) := do
  match ← FileSystem.makeDirectory p with
  | .ok () => return .ok ()
  | .error .notFound => return .error (.refused ⟨.notFound, p⟩)
  | .error refused => unlessDirectory p refused

/-- `ensureDirectory` on the components of a path, the last one first. -/
def ensureParts (anchor : Anchor) : List String → m (Except FileFailure Unit)
  | [] => ensureLast ⟨anchor, []⟩
  | part :: above => do
    let p : Path := ⟨anchor, (part :: above).reverse⟩
    match ← FileSystem.makeDirectory p with
    | .ok () => return .ok ()
    | .error .notFound =>
      match ← ensureParts anchor above with
      | .ok () => ensureLast p
      | .error f => return .error f
    | .error refused => unlessDirectory p refused

/-- A directory and all above it, made as far as they are missing. -/
def ensureDirectory (p : Path) : m (Except FileFailure Unit) :=
  unlessNull p (ensureParts p.anchor p.parts.reverse)

/-- A text is written to a file, whose directory is made if it is missing. -/
def writeFile (p : Path) (text : String) : m (Except FileFailure Unit) := do
  match ← ensureDirectory p.parent with
  | .error f => return .error f
  | .ok () => unlessNull p do return resultAt p (← FileSystem.write p text)

end OverloadTables.Command
