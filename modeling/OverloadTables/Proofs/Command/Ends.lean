import OverloadTables.Command.Run
import OverloadTables.Proofs.Catalog.Taken
import OverloadTables.Proofs.Command.Files
import OverloadTables.Proofs.Document.Label
import OverloadTables.Proofs.Tables.Verdict

/-!
# How a run ends

A run that is carried out on a file system ends with an exit code and what it has written, or it
breaks off.

* `Unreported`         why a catalog has no tables and no rejection either;
* `Makes`              the catalog of a request is read, and has a document;
* `Finishes`           the ends with an exit code, one case each;
* `Breaks`             what makes a run break off;
* `perform_ends`       there is no other end.
-/

namespace OverloadTables.Command

variable {σ : Type}

/-! ## requests -/

namespace Request

def catalog : Request → Path
  | .gen g => g.catalog
  | .lookup l => l.catalog

def json : Request → Bool
  | .gen g => g.json
  | .lookup l => l.json

/-- A format that was asked for has a name. -/
def HasFormat : Request → Prop
  | .gen g => g.format.isSome
  | .lookup _ => True

end Request

/-! ## what is written -/

/-- What is written on the output for a rejected catalog. -/
def rejectionOut (json : Bool) (r : Rejection) : String :=
  if json then Json.render .report (.obj [("exit_code", .int 1),
    ("diagnostics", .arr [r.diagnostic.toJson])]) ++ "\n" else ""

/-- What is written on the error output for a rejected catalog. -/
def rejectionErr (json : Bool) (r : Rejection) : String :=
  if json then "" else r.diagnostic.human.shown ++ "\n"

/-- The line for a refused operation, under the path the command was given. -/
def fileLine (p : Path) (f : FileFault) : String := p.toString ++ ":?:?: error: " ++ f.message

theorem report_rejected (json : Bool) {f : Failure} {r : Rejection} (h : f.rejection? = some r) :
    report json f = .finished 1 (rejectionOut json r) (rejectionErr json r) := by
  rw [report, h]
  cases json <;> rfl

theorem report_unreported (json : Bool) {f : Failure} (h : f.rejection? = none) :
    report json f = .stopped (.failure f) := by
  rw [report, h]

/-! ## what can fail -/

/-- Why a catalog has no tables and no rejection either: its bytes are not UTF-8, an integer is not
read, or all rules hold and a lone surrogate keeps its canonical bytes from being written. -/
inductive Unreported (file : String) (bytes : ByteArray) : Failure → Prop where
  | notUtf8 (undecoded : String.fromUTF8? bytes = none) : Unreported file bytes (.load .notUtf8)
  | longInteger {text : String} {digits line : Nat} (decoded : String.fromUTF8? bytes = some text)
      (long : Json.parseLimited (Text.unifyLineEnds text.toList)
        = .error ⟨.longInteger digits, line⟩) : Unreported file bytes (.load (.longInteger digits))
  | surrogates {c : Catalog} {first : Surrogate} {place count : Nat}
      (read : Catalog.ofBytes file bytes = .ok c) (acceptable : c.content.Acceptable)
      (unwritten : c.content.canonicalBytes = .error (.surrogates first place count)) :
      Unreported file bytes (.build (.unwritten (.surrogates first place count)))

section
variable {file : String} {bytes : ByteArray} {f : Failure}

/-- Reading a catalog and building its tables fails for these reasons and for a rejection, and for
nothing else. -/
theorem tablesOfBytes_eq_error (h : tablesOfBytes file bytes = .error f) :
    Unreported file bytes f ∨ ∃ r, f.rejection? = some r := by
  rcases bind_eq_error.mp h with hload | ⟨c, hc, hbuild⟩
  · obtain ⟨e, he, rfl⟩ := mapError_eq_error.mp hload
    cases Catalog.ofBytes_eq_error.mp he with
    | notUtf8 hutf => exact .inl (.notUtf8 hutf)
    | longInteger hutf hlong => exact .inl (.longInteger hutf hlong)
    | syntaxError | refused => exact .inr ⟨_, rfl⟩
  · obtain ⟨e, he, rfl⟩ := mapError_eq_error.mp hbuild
    have hread := mapError_eq_ok.mp hc
    rcases Tables.build_eq_error he with ⟨r, rfl⟩ | ⟨w, rfl⟩
    · exact .inr ⟨r, rfl⟩
    cases w with
    | tooManyDigits =>
      -- no integer of a file is beyond the limit
      exact absurd he (Tables.build_ne_tooManyDigits (Catalog.ofBytes_taken hread).2)
    | surrogates first place count =>
      obtain ⟨hacceptable, hbytes⟩ := Tables.build_surrogates_iff.mp he
      exact .inl (.surrogates hread hacceptable hbytes)

theorem Unreported.rejection (h : Unreported file bytes f) : f.rejection? = none := by
  cases h with
  | notUtf8 | longInteger | surrogates => rfl

end

/-- Tables that were built can be written. -/
theorem exists_document {file : String} {bytes : ByteArray} {t : Tables}
    (h : tablesOfBytes file bytes = .ok t) (format : Format) :
    ∃ text, documentOfBytes format file bytes = .ok text := by
  obtain ⟨c, -, hbuild⟩ := bind_eq_ok.mp h
  obtain ⟨g⟩ := Tables.build_eq_ok.mp (mapError_eq_ok.mp hbuild)
  cases format with
  | python =>
    obtain ⟨rest, hrest, -⟩ := Source.below_ok g
    have hlines : Source.render t = .ok _ := Source.render_eq_ok hrest
    exact ⟨_, bind_eq_ok.mpr ⟨t, h, mapError_eq_ok.mpr hlines⟩⟩
  | json => exact ⟨_, bind_eq_ok.mpr ⟨t, h, rfl⟩⟩

/-- A document fails exactly as the tables do. -/
theorem documentOfBytes_eq_error {format : Format} {file : String} {bytes : ByteArray}
    {f : Failure} :
    documentOfBytes format file bytes = .error f ↔ tablesOfBytes file bytes = .error f := by
  cases ht : tablesOfBytes file bytes with
  | error e =>
    rw [documentOfBytes, ht]
    constructor
    · rintro ⟨⟩
      rfl
    · rintro ⟨⟩
      rfl
  | ok t =>
    obtain ⟨text, htext⟩ := exists_document ht format
    rw [htext]
    exact iff_of_false nofun nofun

/-! ## ends -/

section
variable [FileSystem (StateM σ)]

/-- The catalog file of a `gen` is read, and `text` is its document in the format asked for. -/
inductive Makes (s : σ) (g : Gen) : String → σ → Prop where
  | intro {format : Format} {bytes : ByteArray} {text : String} {s' : σ}
      (format_eq : g.format = some format)
      (read : (readFile g.catalog : StateM σ _) s = (.ok bytes, s'))
      (document : documentOfBytes format g.catalog.toString bytes = .ok text) : Makes s g text s'

/-- A run from the state `s` ends with an exit code, with what it has written on the output and the
error output, and with a state. -/
inductive Finishes (s : σ) : Request → Nat → String → String → σ → Prop where
  /-- The document goes to the output. -/
  | printed {g : Gen} {text : String} {s' : σ} (makes : Makes s g text s')
      (target : g.target = .standardOutput) : Finishes s (.gen g) 0 text "" s'
  /-- The document goes to a file. -/
  | written {g : Gen} {p : Path} {text : String} {s' s'' : σ} (makes : Makes s g text s')
      (target : g.target = .file p)
      (write : (writeFile p text : StateM σ _) s' = (.ok (), s'')) : Finishes s (.gen g) 0 "" "" s''
  /-- The blocks of the names are printed, a line each. -/
  | listed {l : Lookup} {bytes : ByteArray} {t : Tables} {s' : σ}
      (read : (readFile l.catalog : StateM σ _) s = (.ok bytes, s'))
      (tables : tablesOfBytes l.catalog.toString bytes = .ok t) :
      Finishes s (.lookup l) 0 (String.join (l.names.map (lookupLine t))) "" s'
  /-- The catalog is rejected, which is reported once. -/
  | rejected {q : Request} {bytes : ByteArray} {f : Failure} {r : Rejection} {s' : σ}
      (format : q.HasFormat) (read : (readFile q.catalog : StateM σ _) s = (.ok bytes, s'))
      (tables : tablesOfBytes q.catalog.toString bytes = .error f)
      (rejection : f.rejection? = some r) :
      Finishes s q 1 (rejectionOut q.json r) (rejectionErr q.json r) s'
  /-- The catalog file is not read. -/
  | unread {q : Request} {f : FileFault} {s' : σ} (format : q.HasFormat)
      (read : (readFile q.catalog : StateM σ _) s = (.error (.refused f), s')) :
      Finishes s q 2 "" (fileLine q.catalog f ++ "\n") s'
  /-- The document is not written. -/
  | unwritten {g : Gen} {p : Path} {f : FileFault} {text : String} {s' s'' : σ}
      (makes : Makes s g text s') (target : g.target = .file p)
      (write : (writeFile p text : StateM σ _) s' = (.error (.refused f), s'')) :
      Finishes s (.gen g) 2 "" (fileLine p f ++ "\n") s''

/-- A run from the state `s` breaks off. -/
inductive Breaks (s : σ) : Request → Stop → Prop where
  /-- The name of the format was left out. -/
  | noFormat {g : Gen} (format : g.format = none) :
      Breaks s (.gen g) (.failure (.unsupportedFormat leftOutName))
  /-- The path of the catalog has a null character. -/
  | nullCatalog {q : Request} (format : q.HasFormat) (null : q.catalog.hasNull = true) :
      Breaks s q .nullCharacter
  /-- The catalog has no tables and no rejection either. -/
  | unreported {q : Request} {bytes : ByteArray} {f : Failure} {s' : σ} (format : q.HasFormat)
      (read : (readFile q.catalog : StateM σ _) s = (.ok bytes, s'))
      (tables : Unreported q.catalog.toString bytes f) : Breaks s q (.failure f)
  /-- There is a document, and the path it was to go to was left out. -/
  | noTarget {g : Gen} {text : String} {s' : σ} (makes : Makes s g text s')
      (target : g.target = .missing) : Breaks s (.gen g) .noTarget
  /-- There is a document, and the path it is to go to has a null character; no directory above it
  was refused. -/
  | nullTarget {g : Gen} {p : Path} {text : String} {s' : σ} (makes : Makes s g text s')
      (target : g.target = .file p) (null : p.hasNull = true)
      (above : ∀ f, ((ensureDirectory p.parent : StateM σ _) s').1 ≠ .error (.refused f)) :
      Breaks s (.gen g) .nullCharacter

/-! ## runs -/

section
variable {g : Gen} {format : Format} {s s' : σ}

theorem performGen_unread {f : FileFailure} (hformat : g.format = some format)
    (hread : (readFile g.catalog : StateM σ _) s = (.error f, s')) :
    (performGen g : StateM σ _) s = (reportFile g.catalog f, s') := by
  rw [performGen, hformat]
  dsimp only
  rw [run_bind, hread]
  rfl

theorem performGen_failed {bytes : ByteArray} {f : Failure} (hformat : g.format = some format)
    (hread : (readFile g.catalog : StateM σ _) s = (.ok bytes, s'))
    (hdocument : documentOfBytes format g.catalog.toString bytes = .error f) :
    (performGen g : StateM σ _) s = (report g.json f, s') := by
  rw [performGen, hformat]
  dsimp only
  rw [run_bind, hread]
  dsimp only
  rw [hdocument]
  rfl

theorem performGen_made {text : String} (h : Makes s g text s') :
    (performGen g : StateM σ _) s = (deliver g.target text : StateM σ _) s' := by
  obtain ⟨hformat, hread, hdocument⟩ := h
  rw [performGen, hformat]
  dsimp only
  rw [run_bind, hread]
  dsimp only
  rw [hdocument]

theorem deliver_written {p : Path} {text : String}
    (h : (writeFile p text : StateM σ _) s = (.ok (), s')) :
    (deliver (.file p) text : StateM σ _) s = (.finished 0 "" "", s') := by
  rw [deliver, run_bind, h]
  rfl

theorem deliver_unwritten {p : Path} {text : String} {f : FileFailure}
    (h : (writeFile p text : StateM σ _) s = (.error f, s')) :
    (deliver (.file p) text : StateM σ _) s = (reportFile p f, s') := by
  rw [deliver, run_bind, h]
  rfl

theorem performLookup_unread {l : Lookup} {f : FileFailure}
    (hread : (readFile l.catalog : StateM σ _) s = (.error f, s')) :
    (performLookup l : StateM σ _) s = (reportFile l.catalog f, s') := by
  rw [performLookup, run_bind, hread]
  rfl

theorem performLookup_failed {l : Lookup} {bytes : ByteArray} {f : Failure}
    (hread : (readFile l.catalog : StateM σ _) s = (.ok bytes, s'))
    (htables : tablesOfBytes l.catalog.toString bytes = .error f) :
    (performLookup l : StateM σ _) s = (report l.json f, s') := by
  rw [performLookup, run_bind, hread]
  dsimp only
  rw [htables]
  rfl

theorem performLookup_listed {l : Lookup} {bytes : ByteArray} {t : Tables}
    (hread : (readFile l.catalog : StateM σ _) s = (.ok bytes, s'))
    (htables : tablesOfBytes l.catalog.toString bytes = .ok t) :
    (performLookup l : StateM σ _) s
      = (.finished 0 (String.join (l.names.map (lookupLine t))) "", s') := by
  rw [performLookup, run_bind, hread]
  dsimp only
  rw [htables]
  rfl

end

section
variable {q : Request} {s s' : σ}

/-- A catalog file that is not read ends the run with its report. -/
theorem perform_unread {f : FileFailure} (hformat : q.HasFormat)
    (hread : (readFile q.catalog : StateM σ _) s = (.error f, s')) :
    (perform q : StateM σ _) s = (reportFile q.catalog f, s') := by
  cases q with
  | gen g =>
    obtain ⟨format, hg⟩ := Option.isSome_iff_exists.mp hformat
    exact performGen_unread hg hread
  | lookup l => exact performLookup_unread hread

/-- A catalog without tables ends the run with its report. -/
theorem perform_failed {bytes : ByteArray} {f : Failure} (hformat : q.HasFormat)
    (hread : (readFile q.catalog : StateM σ _) s = (.ok bytes, s'))
    (htables : tablesOfBytes q.catalog.toString bytes = .error f) :
    (perform q : StateM σ _) s = (report q.json f, s') := by
  cases q with
  | gen g =>
    obtain ⟨format, hg⟩ := Option.isSome_iff_exists.mp hformat
    exact performGen_failed hg hread (documentOfBytes_eq_error.mpr htables)
  | lookup l => exact performLookup_failed hread htables

end

/-- How a run of a request from a state can end. -/
def Ends (s : σ) (q : Request) : Prop :=
  (∃ stop, Breaks s q stop ∧ ((perform q : StateM σ _) s).1 = .stopped stop) ∨
    ∃ exit out err s', Finishes s q exit out err s' ∧
      (perform q : StateM σ _) s = (.finished exit out err, s')

section
variable {q : Request} {s s' : σ}

theorem ends_unread {f : FileFailure} (hformat : q.HasFormat)
    (hread : (readFile q.catalog : StateM σ _) s = (.error f, s')) : Ends s q := by
  have hrun := perform_unread hformat hread
  cases f with
  | refused f => exact .inr ⟨2, "", _, s', .unread hformat hread, hrun⟩
  | nullCharacter =>
    have hnull := hasNull_of_readFile (congrArg Prod.fst hread)
    exact .inl ⟨.nullCharacter, .nullCatalog hformat hnull, congrArg Prod.fst hrun⟩

theorem ends_failed {bytes : ByteArray} {f : Failure} (hformat : q.HasFormat)
    (hread : (readFile q.catalog : StateM σ _) s = (.ok bytes, s'))
    (htables : tablesOfBytes q.catalog.toString bytes = .error f) : Ends s q := by
  have hrun := perform_failed hformat hread htables
  rcases tablesOfBytes_eq_error htables with hf | ⟨r, hr⟩
  · rw [report_unreported q.json hf.rejection] at hrun
    exact .inl ⟨_, .unreported hformat hread hf, congrArg Prod.fst hrun⟩
  · rw [report_rejected _ hr] at hrun
    exact .inr ⟨1, _, _, s', .rejected hformat hread htables hr, hrun⟩

theorem ends_made {g : Gen} {text : String} (hmakes : Makes s g text s') : Ends s (.gen g) := by
  have hrun : (perform (.gen g) : StateM σ _) s = (deliver g.target text : StateM σ _) s' :=
    performGen_made hmakes
  cases ht : g.target with
  | standardOutput =>
    rw [ht] at hrun
    exact .inr ⟨0, text, "", s', .printed hmakes ht, hrun⟩
  | missing =>
    rw [ht] at hrun
    exact .inl ⟨.noTarget, .noTarget hmakes ht, congrArg Prod.fst hrun⟩
  | file p =>
    rw [ht] at hrun
    cases hwrite : (writeFile p text : StateM σ _) s' with
    | mk r s'' =>
      match r with
      | .ok () =>
        rw [deliver_written hwrite] at hrun
        exact .inr ⟨0, "", "", s'', .written hmakes ht hwrite, hrun⟩
      | .error (.refused f) =>
        rw [deliver_unwritten hwrite] at hrun
        exact .inr ⟨2, "", _, s'', .unwritten hmakes ht hwrite, hrun⟩
      | .error .nullCharacter =>
        rw [deliver_unwritten hwrite] at hrun
        obtain ⟨hnull, habove⟩ := (writeFile_null_iff text).mp (congrArg Prod.fst hwrite)
        exact .inl ⟨_, .nullTarget hmakes ht hnull habove, congrArg Prod.fst hrun⟩

end

/-- **A run ends with an exit code or breaks off, each for one of the reasons given.** -/
theorem perform_ends (q : Request) (s : σ) : Ends s q := by
  cases q with
  | gen g =>
    cases hg : g.format with
    | none =>
      refine .inl ⟨_, .noFormat hg, ?_⟩
      show ((performGen g : StateM σ _) s).1 = _
      rw [performGen, hg]
      rfl
    | some format =>
      have hformat : (Request.gen g).HasFormat := Option.isSome_iff_exists.mpr ⟨format, hg⟩
      cases hread : (readFile g.catalog : StateM σ _) s with
      | mk r s' =>
        cases r with
        | error f => exact ends_unread hformat hread
        | ok bytes =>
          cases hdocument : documentOfBytes format g.catalog.toString bytes with
          | error f => exact ends_failed hformat hread (documentOfBytes_eq_error.mp hdocument)
          | ok text => exact ends_made ⟨hg, hread, hdocument⟩
  | lookup l =>
    cases hread : (readFile l.catalog : StateM σ _) s with
    | mk r s' =>
      cases r with
      | error f => exact ends_unread (q := .lookup l) trivial hread
      | ok bytes =>
        cases htables : tablesOfBytes l.catalog.toString bytes with
        | error f => exact ends_failed (q := .lookup l) trivial hread htables
        | ok t =>
          exact .inr ⟨0, _, "", s', .listed hread htables, performLookup_listed hread htables⟩

end

end OverloadTables.Command
