import OverloadTables.Proofs.Catalog.RoundTrip
import OverloadTables.Proofs.Command.FileView
import OverloadTables.Proofs.Command.Verdict

/-!
# What a run leaves behind

* `Generates`          the text of the document of a catalog file;
* `gen_effects`        a `gen` writes its whole document or nothing, and the same text everywhere.
-/

namespace OverloadTables.Command

namespace FileView

section
variable {σ : Type} [FileSystem (StateM σ)] (view : FileView σ)

/-- The document of the catalog of a `gen`, as `generate` gives it. -/
def Generates (s : σ) (g : Gen) (text : String) : Prop :=
  ∃ name file bytes, Format.ofName? name = g.format ∧ view.find s g.catalog = some file ∧
    view.bytes s file = some bytes ∧ generate name g.catalog.toString bytes = .ok text

theorem generates_of_makes {s s' : σ} {g : Gen} {text : String} (h : Makes s g text s') :
    s' = s ∧ view.Generates s g text := by
  cases h with
  | @intro format bytes text s' hformat hread hdocument =>
    have hstate := view.readFile_state g.catalog s
    obtain ⟨file, hfind, hbytes⟩ := view.readFile_bytes (congrArg Prod.fst hread)
    rw [hread] at hstate
    obtain ⟨name, hname⟩ : ∃ name, Format.ofName? name = some format := by
      cases format
      · exact ⟨"python", rfl⟩
      · exact ⟨"json", rfl⟩
    refine ⟨hstate, name, file, bytes, hname.trans hformat.symm, hfind, hbytes, ?_⟩
    rw [generate, hname]
    exact hdocument

end

end FileView

section
variable {σ : Type} [FileSystem (StateM σ)] (view : FileView σ)

/-- **A `gen` writes its whole document or nothing, and the same text everywhere.** -/
theorem gen_effects {args : List String} {g : Gen} (hq : readRequest args = .ok (.gen g)) {s s' : σ}
    {exit : Nat} {out err : String}
    (h : (run args : StateM σ _) s = (.finished exit out err, s')) :
    (exit = 0 → ∃ text, view.Generates s g text ∧
      (g.target = .standardOutput → out = text ∧ s' = s) ∧
      (∀ p, g.target = .file p → out = "" ∧ view.Wrote s s' p text)) ∧
    (exit = 1 → s' = s ∧ (g.json = false → out = "")) ∧
    (exit = 2 → view.Same s s') := by
  rw [run_accepted hq] at h
  generalize hg : Request.gen g = q at h
  cases finishes_of_perform h with
  | printed makes target =>
    cases hg
    obtain ⟨hstate, hgenerates⟩ := view.generates_of_makes makes
    refine ⟨fun _ => ⟨_, hgenerates, fun _ => ⟨rfl, hstate⟩, fun p hp => ?_⟩, nofun, nofun⟩
    rw [target] at hp
    exact nomatch hp
  | written makes target write =>
    cases hg
    obtain ⟨rfl, hgenerates⟩ := view.generates_of_makes makes
    refine ⟨fun _ => ⟨_, hgenerates, fun ht => ?_, fun p hp => ?_⟩, nofun, nofun⟩
    · rw [target] at ht
      exact nomatch ht
    · rw [target] at hp
      cases hp
      exact ⟨rfl, view.wrote_of_writeFile write⟩
  | listed => exact nomatch hg
  | rejected format read =>
    have hstate := view.readFile_state q.catalog s
    rw [read] at hstate
    refine ⟨nofun, fun _ => ⟨hstate, fun hjson => ?_⟩, nofun⟩
    have hreport : q.json = false := hg ▸ hjson
    rw [hreport]
    rfl
  | unread format read =>
    have hstate := view.readFile_state q.catalog s
    rw [read] at hstate
    obtain rfl : s' = s := hstate
    exact ⟨nofun, nofun, fun _ _ => rfl⟩
  | unwritten makes target write =>
    cases hg
    obtain ⟨rfl, -⟩ := view.generates_of_makes makes
    exact ⟨nofun, nofun, fun _ => view.same_of_writeFile write⟩

end

/-- A catalog of nothing, and a volume with no other file. -/
def bareCatalog : String := "\x7b\"format\": \"builtin-catalog\", \"version\": 0\x7d"

def bare : Volume := ⟨[(["c.json"], .file bareCatalog.toUTF8)], []⟩

/-- The arguments that ask for its document in a directory that is missing. -/
def bareArguments : List String := ["gen", "c.json", "--format", "json", "-o", "out/t.json"]

def bareGen : Gen :=
  ⟨Path.ofString "c.json", .file (Path.ofString "out/t.json"), some .json, false⟩

theorem bare_tables : ∃ t, tablesOfBytes "c.json" bareCatalog.toUTF8 = .ok t := by
  rw [tablesOfBytes, Catalog.ofBytes_toUTF8]
  exact ⟨_, rfl⟩

theorem gen_effects_bare : ∃ v text,
    readRequest bareArguments = .ok (.gen bareGen) ∧
    (run bareArguments : Volume.On Outcome) bare = (.finished 0 "" "", v) ∧
    Volume.view.Generates bare bareGen text ∧
    Volume.view.Wrote bare v (Path.ofString "out/t.json") text := by
  have hq : readRequest bareArguments = .ok (.gen bareGen) := rfl
  obtain ⟨t, htables⟩ := bare_tables
  obtain ⟨text, hdocument⟩ := exists_document htables .json
  have hmakes : Makes bare bareGen text bare := ⟨rfl, rfl, hdocument⟩
  obtain ⟨v, hwrite⟩ : ∃ v, (writeFile (Path.ofString "out/t.json") text : Volume.On _) bare
      = (.ok (), v) := ⟨_, rfl⟩
  have hrun : (run bareArguments : Volume.On Outcome) bare = (.finished 0 "" "", v) := by
    rw [run_accepted hq]
    exact (performGen_made hmakes).trans (deliver_written hwrite)
  obtain ⟨hsuccess, -, -⟩ := gen_effects Volume.view hq hrun
  obtain ⟨text', hgenerates, -, hfile⟩ := hsuccess rfl
  exact ⟨v, text', hq, hrun, hgenerates, (hfile _ rfl).2⟩

end OverloadTables.Command
