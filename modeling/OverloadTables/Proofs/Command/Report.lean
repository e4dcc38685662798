import OverloadTables.Proofs.Command.Verdict
import OverloadTables.Proofs.Json.Same
import OverloadTables.Proofs.Tables.Culprit

/-!
# The report of a rejected catalog

* `Rejects file bytes r`   the catalog in a file is rejected, as it is read or as its tables are
                           built;
* `run_rejected`           an accepted command line ends with the exit code 1 exactly for a catalog
                           that is rejected;
* `diagnostic_told`        the JSON of a diagnostic tells all of it;
* `Reported out err d`     what is written is one line of JSON, from which the diagnostic is read;
* `report_lossless`        so is every report that was asked for in JSON.
-/

namespace OverloadTables

open Json (Regular IsAscii sorted)

attribute [ext] Place Diagnostic

/-! ## rejections -/

/-- The catalog in a file is rejected, as it is read or as its tables are built. -/
inductive Rejects (file : String) (bytes : ByteArray) (r : Rejection) : Prop where
  | read (h : Catalog.ofBytes file bytes = .error (.rejected r)) : Rejects file bytes r
  | built {c : Catalog} (hread : Catalog.ofBytes file bytes = .ok c)
      (h : Tables.build c = .error (.rejected r)) : Rejects file bytes r

theorem rejects_iff {file : String} {bytes : ByteArray} {r : Rejection} :
    Rejects file bytes r ↔ ∃ f, tablesOfBytes file bytes = .error f ∧ f.rejection? = some r := by
  constructor
  · rintro (h | ⟨hread, h⟩)
    · exact ⟨.load (.rejected r), bind_eq_error.mpr (.inl (mapError_eq_error.mpr ⟨_, h, rfl⟩)), rfl⟩
    · refine ⟨.build (.rejected r), bind_eq_error.mpr (.inr ⟨_, mapError_eq_ok.mpr hread, ?_⟩), rfl⟩
      exact mapError_eq_error.mpr ⟨_, h, rfl⟩
  · rintro ⟨f, htables, hr⟩
    rcases bind_eq_error.mp htables with h | ⟨c, hc, h⟩
    · obtain ⟨e, he, rfl⟩ := mapError_eq_error.mp h
      cases e with
      | notUtf8 | longInteger _ => exact nomatch hr
      | rejected r' =>
        obtain rfl : r' = r := Option.some.inj hr
        exact .read he
    · obtain ⟨e, he, rfl⟩ := mapError_eq_error.mp h
      cases e with
      | rejected r' =>
        obtain rfl : r' = r := Option.some.inj hr
        exact .built (mapError_eq_ok.mp hc) he
      | signature _ | index _ | unwritten _ => exact nomatch hr

/-- The bytes of declarations that have any. -/
def Content.stored (c : Content) : ByteArray := (Json.canonical c.toJson).toUTF8

/-- A catalog whose tables are refused is rejected as it is stored. -/
theorem Rejects.of_content {content : Content} {file : String} {c : Catalog} {r : Rejection}
    (hlimits : content.WithinLimits) (hplain : content.NoSurrogate)
    (hc : Catalog.ofJson (some file) content.toJson = .ok c)
    (hr : Tables.build c = .error (.rejected r)) : Rejects file content.stored r := by
  have hencodable : content.toJson.Encodable := Json.encodable_iff.mpr
    ⟨Content.withinLimits_toJson.mpr hlimits, Content.plain_toJson.mpr hplain⟩
  refine .built ?_ hr
  rw [Content.stored, Catalog.ofBytes_toUTF8,
    Catalog.ofText_canonical (regular_toJson content) hencodable, hc]
  rfl

/-- A catalog is rejected for one reason. -/
theorem Rejects.unique {file : String} {bytes : ByteArray} {r r' : Rejection}
    (h : Rejects file bytes r) (h' : Rejects file bytes r') : r = r' := by
  obtain ⟨f, htables, hr⟩ := rejects_iff.mp h
  obtain ⟨f', htables', hr'⟩ := rejects_iff.mp h'
  obtain rfl : f = f' := Except.error.inj (htables.symm.trans htables')
  exact Option.some.inj (hr.symm.trans hr')

/-- A file is rejected because it is not JSON, or because its document is refused. -/
theorem Rejects.refused {file : String} {bytes : ByteArray} {r : Rejection}
    (h : Rejects file bytes r) : (∃ e, r = ⟨.syntaxError e, .root (some file)⟩) ∨
      ∃ cs v, Json.parseLimited cs = .ok v ∧ Refused (some file) v r := by
  rcases h with h | ⟨hread, hbuild⟩
  · cases Catalog.ofBytes_eq_error.mp h with
    | syntaxError => exact .inl ⟨_, rfl⟩
    | refused _ hv hr => exact .inr ⟨_, _, hv, .inl hr⟩
  · obtain ⟨text, v, -, hv, hc⟩ := Catalog.ofBytes_eq_ok hread
    exact .inr ⟨_, v, hv, .inr ⟨_, hc, hbuild⟩⟩

/-- In what is told of a file surrogates stand apart. -/
theorem Rejects.apart {file : String} {bytes : ByteArray} {r : Rejection}
    (h : Rejects file bytes r) : r.fault.message.Apart ∧ ∀ n ∈ r.fault.notes, n.Apart := by
  rcases h.refused with ⟨e, rfl⟩ | ⟨cs, v, hv, hrefused⟩
  · exact ⟨LooseText.apart_text _, List.forall_mem_nil _⟩
  refine Fault.apart_of_shown ?_
  rcases hrefused.points with ⟨-, hheader⟩ | ⟨path, x, -, hleads, hculprit⟩
  · rw [hheader.shows_nothing.1, hheader.shows_nothing.2]
    exact List.forall_mem_nil _
  · have hzero : Text.withinLimit 0 = true := rfl
    exact hculprit.taken LooseText.apart_text hzero (Json.parseLimited_all hv) hleads

namespace Command

section
variable {σ : Type} [FileSystem (StateM σ)]

/-- **An accepted command line ends with the exit code 1 exactly for a catalog that is rejected**,
and with its report. -/
theorem run_rejected {args : List String} {q : Request} (hq : readRequest args = .ok q) {s s' : σ}
    {out err : String} : (run args : StateM σ _) s = (.finished 1 out err, s') ↔
      ∃ bytes r, q.HasFormat ∧ (readFile q.catalog : StateM σ _) s = (.ok bytes, s') ∧
        Rejects q.catalog.toString bytes r ∧ out = rejectionOut q.json r ∧
        err = rejectionErr q.json r := by
  rw [run_accepted hq]
  constructor
  · intro h
    cases finishes_of_perform h with
    | rejected format read tables rejection =>
      exact ⟨_, _, format, read, rejects_iff.mpr ⟨_, tables, rejection⟩, rfl, rfl⟩
  · rintro ⟨bytes, r, hformat, hread, hrejects, rfl, rfl⟩
    obtain ⟨f, htables, hr⟩ := rejects_iff.mp hrejects
    rw [perform_failed hformat hread htables, report_rejected q.json hr]

end

end Command

/-! ## reports in JSON -/

/-- The JSON of a diagnostic tells all of it. -/
theorem diagnostic_told {d e : Diagnostic} (h : sorted d.toJson = sorted e.toJson) : d = e := by
  have hphase : d.phase = e.phase := textOrNull_told (member_told h "phase" rfl rfl)
  have hcode : d.code = e.code := textOrNull_told (member_told h "code" rfl rfl)
  have hmessage : d.message = e.message := Json.str.inj (member_told h "message" rfl rfl)
  have hseverity : d.severity = e.severity := string_told (member_told h "severity" rfl rfl)
  have hfile : d.place.file = e.place.file := textOrNull_told (member_told h "file" rfl rfl)
  have hpath : d.place.path = e.place.path := textOrNull_told (member_told h "path" rfl rfl)
  have htext (a b : LooseText) (hab : sorted (.str a) = sorted (.str b)) : id a = id b :=
    Json.str.inj hab
  have hnotes : d.notes.map id = e.notes.map id :=
    array_told htext (member_told h "notes" rfl rfl)
  rw [List.map_id, List.map_id] at hnotes
  exact Diagnostic.ext hmessage hcode hphase hseverity (Place.ext hfile hpath) hnotes

/-- The report of a diagnostic for a program. -/
def Diagnostic.report (d : Diagnostic) : Json :=
  .obj [("exit_code", .int 1), ("diagnostics", .arr [d.toJson])]

theorem regular_diagnostic (d : Diagnostic) : Regular d.toJson := by
  have hkeys : (["phase", "code", "message", "severity", "file", "path", "line", "column", "notes"]
      : List LooseText).Nodup := by decide
  refine .obj hkeys ?_
  simp only [List.forall_mem_cons]
  exact ⟨regular_textOrNull _, regular_textOrNull _, .str _, .str _, regular_textOrNull _,
    regular_textOrNull _, .null, .null, .arr (List.forall_mem_map.mpr fun n _ => .str n),
    List.forall_mem_nil _⟩

theorem Diagnostic.regular_report (d : Diagnostic) : Regular d.report := by
  have hkeys : (["exit_code", "diagnostics"] : List LooseText).Nodup := by decide
  refine .obj hkeys ?_
  simp only [List.forall_mem_cons]
  exact ⟨.int 1, .arr (List.forall_mem_singleton.mpr (regular_diagnostic d)), List.forall_mem_nil _⟩

/-- The report is written so that it can be read back. -/
theorem Diagnostic.keepsAll_report {d : Diagnostic} (hmessage : d.message.Apart)
    (hnotes : ∀ n ∈ d.notes, n.Apart) : Json.Layout.report.KeepsAll d.report := by
  have hkeeps {t : LooseText} (ht : t.Apart) : Json.Layout.report.Keeps t := ⟨ht, nofun⟩
  have hstring (s : String) : Json.Layout.report.Keeps s := hkeeps (LooseText.apart_text s)
  have hnull (s : Option String) : Json.Layout.report.KeepsAll (Diagnostic.textOrNull s) :=
    (plain_textOrNull s).keepsAll _
  have hnotes : Json.Layout.report.KeepsAll (.arr (d.notes.map .str)) :=
    .arr (List.forall_mem_map.mpr fun n hn => .str (hkeeps (hnotes n hn)))
  have htold : Json.Layout.report.KeepsAll d.toJson := by
    simp only [Diagnostic.toJson, Json.all_cons, Json.all_nil, Json.all_str, hstring, hnull,
      hkeeps hmessage, hnotes, and_true, true_and]
    exact ⟨.null, .null⟩
  refine Json.all_cons.mpr ⟨hstring _, .int trivial, Json.all_cons.mpr ⟨hstring _, ?_,
    Json.all_nil.mpr trivial⟩⟩
  exact .arr (List.forall_mem_singleton.mpr htold)

theorem Diagnostic.report_injective {d e : Diagnostic} (h : d.report = e.report) : d = e := by
  have hitems : [d.toJson] = [e.toJson] :=
    Json.arr.inj (Option.some.inj (congrArg (Members.get? "diagnostics") (Json.obj.inj h)))
  exact diagnostic_told (congrArg sorted (List.singleton_inj.mp hitems))

/-- One line of ASCII is written, all of it on the output.  Read as JSON it is the report of the
diagnostic, and of no other one. -/
structure Reported (out err : String) (d : Diagnostic) : Prop where
  line : ∃ line, out = line ++ "\n" ∧ (∀ c ∈ line.toList, IsAscii c) ∧
    Json.parse line = .ok d.report ∧ ∀ e, Json.parse line = .ok e.report → e = d
  quiet : err = ""

theorem reported_rejection {r : Rejection} (hmessage : r.fault.message.Apart)
    (hnotes : ∀ n ∈ r.fault.notes, n.Apart) :
    Reported (Command.rejectionOut true r) (Command.rejectionErr true r) r.diagnostic := by
  have hregular := r.diagnostic.regular_report
  have hkeeps : Json.Layout.report.KeepsAll r.diagnostic.report :=
    Diagnostic.keepsAll_report hmessage hnotes
  have hchars : (Json.render .report r.diagnostic.report).toList
      = Json.write .report 0 r.diagnostic.report := by
    rw [Json.render, String.toList_ofList]
  have hparse : Json.parse (Json.render .report r.diagnostic.report) = .ok r.diagnostic.report := by
    rw [Json.parse, hchars, Json.parseChars_write (by decide) hregular hkeeps]
  refine ⟨⟨Json.render .report r.diagnostic.report, rfl, fun c hc => ?_, hparse, fun e he => ?_⟩,
    rfl⟩
  · rw [hchars] at hc
    rcases Json.uses_write .report (by decide) hregular hkeeps 0 c hc with
      hascii | ⟨-, hlines⟩ | ⟨-, hraw⟩
    · exact hascii
    · exact absurd rfl hlines
    · cases hraw
  · rw [hparse] at he
    exact Diagnostic.report_injective (Except.ok.inj he).symm

namespace Command

section
variable {σ : Type} [FileSystem (StateM σ)]

/-- **Reports in JSON are lossless.**  Where they are asked for, a run that ends with the exit code 1
has read a catalog that is rejected, and written one line of ASCII on the output and nothing on the
error output; the line is read as the report of just the diagnostic that the catalog is rejected
with.  Every catalog that is rejected has such a run. -/
theorem report_lossless {args : List String} {q : Request} (hq : readRequest args = .ok q)
    (hjson : q.json = true) {s s' : σ} :
    (∀ out err, (run args : StateM σ _) s = (.finished 1 out err, s') → ∃ bytes r,
      (readFile q.catalog : StateM σ _) s = (.ok bytes, s') ∧
      Rejects q.catalog.toString bytes r ∧ Reported out err r.diagnostic) ∧
    ∀ bytes r, q.HasFormat → (readFile q.catalog : StateM σ _) s = (.ok bytes, s') →
      Rejects q.catalog.toString bytes r → ∃ out err,
      (run args : StateM σ _) s = (.finished 1 out err, s') ∧ Reported out err r.diagnostic := by
  have hreported {bytes : ByteArray} {r : Rejection} (h : Rejects q.catalog.toString bytes r) :=
    reported_rejection h.apart.1 h.apart.2
  rw [← hjson] at hreported
  refine ⟨fun out err h => ?_, fun bytes r hformat hread hrejects => ?_⟩
  · obtain ⟨bytes, r, -, hread, hrejects, rfl, rfl⟩ := (run_rejected hq).mp h
    exact ⟨bytes, r, hread, hrejects, hreported hrejects⟩
  · refine ⟨_, _, (run_rejected hq).mpr ⟨bytes, r, hformat, hread, hrejects, rfl, rfl⟩,
      hreported hrejects⟩

end

/-! ## on volumes -/

/-- A catalog with a type of negative width, whose key has a line end, a quote and a character
beyond the first plane. -/
def narrowContent : Content where
  types := [⟨"\n\"𝄞", "int", -1, .default, false, none⟩]
  overloads := []
  versions := []
  label := none

def narrow : Volume := ⟨[(["c.json"], .file narrowContent.stored)], []⟩

def narrowRejection : Rejection :=
  ⟨.negativeWidth "\n\"𝄞" (-1), ⟨some "c.json", some "types[0].vec_width"⟩⟩

theorem narrow_rejects : Rejects "c.json" narrowContent.stored narrowRejection :=
  .of_content (by decide) (by decide) rfl rfl

theorem report_lossless_narrow : ∃ q out err,
    readRequest ["gen", "c.json", "--json"] = .ok q ∧ q.json = true ∧
    (run ["gen", "c.json", "--json"] : Volume.On Outcome) narrow
      = (.finished 1 out err, narrow) ∧ Reported out err narrowRejection.diagnostic := by
  have hq : readRequest ["gen", "c.json", "--json"]
      = .ok (.gen ⟨Path.ofString "c.json", .standardOutput, some .python, true⟩) := rfl
  obtain ⟨hreads, hruns⟩ := @report_lossless Volume _ _ _ hq rfl narrow narrow
  obtain ⟨out, err, hrun, -⟩ := hruns _ _ rfl rfl narrow_rejects
  obtain ⟨bytes, r, hread, hrejects, hreported⟩ := hreads out err hrun
  obtain rfl : narrowContent.stored = bytes := Except.ok.inj (congrArg Prod.fst hread)
  rw [hrejects.unique narrow_rejects] at hreported
  exact ⟨_, out, err, hq, rfl, hrun, hreported⟩

end Command
end OverloadTables
