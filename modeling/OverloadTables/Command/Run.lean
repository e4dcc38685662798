import OverloadTables.Command.Arguments
import OverloadTables.Command.FileSystem
import OverloadTables.Document.Generate

/-!
# The command

`gen CATALOG [-o OUT] [--format python|json] [--json]` writes the document of a catalog, and
`lookup CATALOG NAME... [--json]` prints the blocks of names.  The exit code is 0 for success, 1 for
a refused catalog, and 2 for wrong arguments or a refused file operation.

* `readRequest`        the request of a command line;
* `perform`            a request carried out on a file system;
* `run`                both.
-/

namespace OverloadTables.Command

/-- Where a document goes. -/
inductive Target where
  | standardOutput
  | file (p : Path)
  /-- A file was asked for, and its path left out. -/
  | missing
  deriving DecidableEq, Repr

/-- Write the document of a catalog. -/
structure Gen where
  catalog : Path
  target : Target
  /-- There is none if the format was asked for and its name left out. -/
  format : Option Format
  json : Bool
  deriving DecidableEq, Repr

/-- Print the blocks of names. -/
structure Lookup where
  catalog : Path
  names : List String
  json : Bool
  deriving DecidableEq, Repr

/-- What a command line asks for. -/
inductive Request where
  | gen (g : Gen)
  | lookup (l : Lookup)
  deriving DecidableEq, Repr

/-- A switch under its names. -/
def switch {σ : Type} (names : List String) (takesValue : Bool)
    (act : List String → σ → Except Refusal σ) : List (Switch σ) :=
  names.map fun n => ⟨n.toList, takesValue, act⟩

def helpSwitch {σ : Type} : List (Switch σ) :=
  switch ["-h", "--help"] false fun _ _ => .error .help

def targetOf : List String → Target
  | [] => .missing
  | v :: _ => .file (Path.ofString v)

/-- The format of the values of a switch; a name must be one of a format. -/
def formatOf : List String → Except Refusal (Option Format)
  | [] => .ok none
  | v :: _ =>
    match Format.ofName? v with
    | none => .error .usage
    | some f => .ok (some f)

/-- The arguments of `gen`; the last value of a switch counts. -/
def genGrammar : Grammar Gen where
  switches := helpSwitch
    ++ switch ["-o", "--output"] true (fun vs g => .ok { g with target := targetOf vs })
    ++ switch ["--format"] true (fun vs g => return { g with format := ← formatOf vs })
    ++ switch ["--json"] false (fun _ g => .ok { g with json := true })
  operands := [⟨.one, fun as g => .ok { g with catalog := Path.ofString (as.headD "") }⟩]

def lookupGrammar : Grammar Lookup where
  switches := helpSwitch ++ switch ["--json"] false (fun _ l => .ok { l with json := true })
  operands := [⟨.one, fun as l => .ok { l with catalog := Path.ofString (as.headD "") }⟩,
    ⟨.oneOrMore, fun as l => .ok { l with names := as }⟩]

def emptyGen : Gen := ⟨Path.ofString "", .standardOutput, some .python, false⟩

def emptyLookup : Lookup := ⟨Path.ofString "", [], false⟩

def readCommand : List String → Except Refusal Request
  | "gen" :: as => (genGrammar.read emptyGen as).map .gen
  | "lookup" :: as => (lookupGrammar.read emptyLookup as).map .lookup
  | _ => .error .usage

def mainGrammar : Grammar (Option Request) where
  switches := helpSwitch
  operands := [⟨.rest, fun as _ => (readCommand as).map some⟩]

def readRequest (args : List String) : Except Refusal Request := do
  match ← mainGrammar.read none args with
  | some r => return r
  | none => throw .usage

/-- What a command has no report for. -/
inductive Stop where
  | failure (f : Failure)
  /-- A path has a null character. -/
  | nullCharacter
  /-- The document has no file to go to. -/
  | noTarget
  deriving DecidableEq, Repr

def Stop.message : Stop → String
  | .failure f => f.message
  | .nullCharacter => "embedded null byte"
  | .noTarget => "no path is given for the document"

/-- How a run ends. -/
inductive Outcome where
  /-- The command line ends the run. -/
  | refused (r : Refusal)
  | finished (exit : Nat) (out err : String)
  /-- The run breaks off without a report. -/
  | stopped (s : Stop)
  deriving DecidableEq, Repr

def Refusal.exit : Refusal → Nat
  | .help => 0
  | .usage => 2

/-- A refused catalog is reported: on the error output, where lone surrogates are escaped, or as one
line of JSON on the output. -/
def report (json : Bool) (f : Failure) : Outcome :=
  match f.rejection? with
  | none => .stopped (.failure f)
  | some r =>
    if json then
      .finished 1 (Json.render .report (.obj [("exit_code", .int 1),
        ("diagnostics", .arr [r.diagnostic.toJson])]) ++ "\n") ""
    else .finished 1 "" (r.diagnostic.human.shown ++ "\n")

/-- A refused file operation is reported under the path the command was given. -/
def reportFile (p : Path) : FileFailure → Outcome
  | .refused f => .finished 2 "" (p.toString ++ ":?:?: error: " ++ f.message ++ "\n")
  | .nullCharacter => .stopped .nullCharacter

def lookupLine (t : Tables) (name : String) : String :=
  let e := t.index.lookup name
  name ++ " " ++ toString e.start ++ " " ++ toString e.count ++ "\n"

variable {m : Type → Type} [Monad m] [FileSystem m]

def deliver (target : Target) (text : String) : m Outcome := do
  match target with
  | .standardOutput => return .finished 0 text ""
  | .missing => return .stopped .noTarget
  | .file p =>
    match ← writeFile p text with
    | .ok () => return .finished 0 "" ""
    | .error f => return reportFile p f

/-- How a name that was left out is shown. -/
def leftOutName : String := "[]"

def performGen (g : Gen) : m Outcome := do
  match g.format with
  | none => return .stopped (.failure (.unsupportedFormat leftOutName))
  | some format =>
    match ← readFile g.catalog with
    | .error f => return reportFile g.catalog f
    | .ok bytes =>
      match documentOfBytes format g.catalog.toString bytes with
      | .error f => return report g.json f
      | .ok text => deliver g.target text

def performLookup (l : Lookup) : m Outcome := do
  match ← readFile l.catalog with
  | .error f => return reportFile l.catalog f
  | .ok bytes =>
    match tablesOfBytes l.catalog.toString bytes with
    | .error f => return report l.json f
    | .ok t => return .finished 0 (String.join (l.names.map (lookupLine t))) ""

def perform : Request → m Outcome
  | .gen g => performGen g
  | .lookup l => performLookup l

def run (args : List String) : m Outcome :=
  match readRequest args with
  | .error r => return .refused r
  | .ok r => perform r

end OverloadTables.Command
