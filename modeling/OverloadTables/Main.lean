import OverloadTables.Command.Run

/-!
# The program

The command on the machine's own files.  A run answers on the standard output and the error output
and ends with an exit code.
-/

namespace OverloadTables.Command

/-- The number of a refusal, which some operations give below zero. -/
def errorNumber (n : UInt32) : Nat := n.toInt32.toInt.natAbs

/-- The refusal of a number, worded by the machine if it is none of those known by name. -/
def refusalOf (n : UInt32) (text : String) : Refused :=
  ([.notFound, .exists, .notADirectory, .isADirectory, .nameTooLong].find?
    (·.number = errorNumber n)).getD (.other (errorNumber n) text)

/-- The refusal behind an error of the machine. -/
def refusedBy : IO.Error → Refused
  | .alreadyExists _ n t | .noFileOrDirectory _ n t | .invalidArgument _ n t
  | .permissionDenied _ n t | .resourceExhausted _ n t | .inappropriateType _ n t
  | .noSuchThing _ n t | .interrupted _ n t => refusalOf n t
  | .otherError n t | .resourceBusy n t | .resourceVanished n t | .unsupportedOperation n t
  | .hardwareFault n t | .unsatisfiedConstraints n t | .illegalOperation n t | .protocolError n t
  | .timeExpired n t => refusalOf n t
  | .unexpectedEof => refusalOf 5 "Input/output error"
  | .userError t => refusalOf 5 t

/-- An action with its error as a refusal. -/
def refusable {α : Type} (act : IO α) : IO (Except Refused α) := do
  try return .ok (← act) catch e => return .error (refusedBy e)

/-- The machine's own files. -/
instance : FileSystem IO where
  read p := refusable (IO.FS.readBinFile p.toString)
  write p text := refusable (IO.FS.writeBinFile p.toString text.toUTF8)
  makeDirectory p := refusable (IO.FS.createDir p.toString)
  isDirectory p := do
    match ← refusable (IO.FS.realPath p.toString) with
    | .ok path => path.isDir
    | .error _ => return false

def usage : String :=
  "usage: builtin-tablegen gen CATALOG [-o OUT] [--format python|json] [--json]\n"
    ++ "       builtin-tablegen lookup CATALOG NAME... [--json]\n"

end OverloadTables.Command

open OverloadTables.Command in
def main (args : List String) : IO UInt32 := do
  match ← (run args : IO Outcome) with
  | .refused .help =>
    IO.print usage
    return 0
  | .refused .usage =>
    IO.eprint usage
    return 2
  | .finished exit out err =>
    IO.print out
    IO.eprint err
    return exit.toUInt32
  | .stopped s =>
    IO.eprintln s.message
    return 1
