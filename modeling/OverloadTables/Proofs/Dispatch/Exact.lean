import OverloadTables.Proofs.Dispatch.Scan
import OverloadTables.Proofs.Script.Matcher

/-!
# A dispatch runs the statement of the subject and no other

* `Dispatch.Exact`         what the lines for pairwise different strings do;
* `FirstRepeated`          the string that is refused;
* `render_exact`           lines for strings that come once each, and a refusal for all others.
-/

namespace OverloadTables.Dispatch

open Script

/-- What the lines for cases do where the length of the subject is at hand: the statement of a
string is run for it, and none for any other subject, whatever statements do.  The groups of strings
of one length were scanned to the end. -/
structure Exact (n : Names) (depth : Nat) (cases : List Case) (ls : List String) : Prop where
  found {α : Type} (perform : String → Step (Option α)) : ∀ k ∈ cases,
    Matcher.execute perform n depth (Matcher.textOf ls) k.text (some k.length)
      = perform k.body (some k.length)
  absent {α : Type} (perform : String → Step (Option α)) : ∀ s : String, s ∉ cases.map (·.text) →
    Matcher.execute perform n depth (Matcher.textOf ls) s (some s.toList.length)
      = .ok (none, some s.toList.length)
  scanned : ∀ m ∈ lengths cases, Scans m (ofLength m cases) (Tree.build m (ofLength m cases))

/-- The first string that came before. -/
def FirstRepeated (cases : List Case) (text : String) : Prop :=
  ∃ before k after, cases = before ++ k :: after ∧ (before.map (·.text)).Nodup ∧
    k.text ∈ before.map (·.text) ∧ k.text = text

theorem firstRepeated?_of_not_nodup {seen : List String} {cases : List Case}
    (hseen : seen.Nodup) (h : ¬ (seen.reverse ++ cases.map (·.text)).Nodup) :
    ∃ before k after, cases = before ++ k :: after ∧
      (seen.reverse ++ before.map (·.text)).Nodup ∧
      k.text ∈ seen.reverse ++ before.map (·.text) ∧
      firstRepeated? seen cases = some k.text := by
  induction cases generalizing seen with
  | nil =>
    rw [List.map_nil, List.append_nil, List.nodup_reverse] at h
    exact absurd hseen h
  | cons k cases ih =>
    rw [firstRepeated?]
    by_cases hk : k.text ∈ seen
    · rw [if_pos hk]
      refine ⟨[], k, cases, rfl, ?_, ?_, rfl⟩
      · rw [List.map_nil, List.append_nil, List.nodup_reverse]
        exact hseen
      · rw [List.map_nil, List.append_nil, List.mem_reverse]
        exact hk
    · rw [if_neg hk]
      have hrest : ¬ ((k.text :: seen).reverse ++ cases.map (·.text)).Nodup := by
        rwa [List.reverse_cons, List.append_assoc, List.singleton_append]
      obtain ⟨before, l, after, rfl, hnodup, hmem, hfirst⟩ :=
        ih (List.nodup_cons.mpr ⟨hk, hseen⟩) hrest
      rw [List.reverse_cons, List.append_assoc, List.singleton_append] at hnodup hmem
      exact ⟨k :: before, l, after, rfl, hnodup, hmem, hfirst⟩

/-- Cases with a string that comes twice are refused. -/
theorem render_repeated (n : Names) {cases : List Case} (h : ¬ (cases.map (·.text)).Nodup) :
    ∃ text, FirstRepeated cases text ∧ render n cases = .error ⟨text⟩ := by
  obtain ⟨before, k, after, hcases, hnodup, hmem, hfirst⟩ :=
    firstRepeated?_of_not_nodup List.nodup_nil h
  refine ⟨k.text, ⟨before, k, after, hcases, hnodup, hmem, rfl⟩, ?_⟩
  rw [render, lines, hfirst]
  rfl

theorem caseOf?_of_mem {cases : List Case} (h : (cases.map (·.text)).Nodup) {k : Case}
    (hk : k ∈ cases) : caseOf? cases k.text.toList = some k.body := by
  have hagree : ∀ l ∈ cases, l.text.toList = k.text.toList → l.body = k.body := fun l hl htext =>
    congrArg Case.body (List.inj_on_of_nodup_map h hl hk (String.toList_inj.mp htext))
  obtain ⟨l, hl, e⟩ : ∃ l, cases.find? (·.text.toList = k.text.toList) = some l ∧ l.body = k.body :=
    find?_agree Case.body hk rfl hagree
  rw [caseOf?, hl, Option.map_some, e]

theorem caseOf?_of_notMem {cases : List Case} {s : String} (h : s ∉ cases.map (·.text)) :
    caseOf? cases s.toList = none := by
  rw [caseOf?, List.find?_eq_none.mpr]
  · rfl
  · intro k hk e
    exact h (List.mem_map.mpr ⟨k, hk, String.toList_inj.mp (of_decide_eq_true e)⟩)

section
variable {n : Names} (hn : Variables n) {depth : Nat}
  (hi : n.indent.toList = List.replicate depth '\t') {cases : List Case}
  (hbody : ∀ k ∈ cases, Matcher.IsStatement k.body)
include hn hi hbody

/-- What the lines for strings that come once each do for any subject. -/
theorem execute_lines (h : (cases.map (·.text)).Nodup) {α : Type}
    (perform : String → Step (Option α)) (s : String) :
    Matcher.execute perform n depth (Matcher.textOf
      ((linesOfLengths cases true (lengths cases)).map (·.render n))) s (some s.toList.length)
        = outcome id perform (caseOf? cases s.toList) (some s.toList.length) := by
  rw [Matcher.execute, Matcher.program?_lines hn hi h hbody]
  have hrun := run_lines id h perform s.toList .pass
  exact hrun.trans (congrFun (bind_answer _) _)

theorem exact_lines (h : (cases.map (·.text)).Nodup) :
    Exact n depth cases ((linesOfLengths cases true (lengths cases)).map (·.render n)) := by
  refine ⟨fun perform k hk => ?_, fun perform s hs => ?_, fun m hm => ?_⟩
  · have hrun := execute_lines hn hi hbody h perform k.text
    rw [caseOf?_of_mem h hk] at hrun
    exact hrun
  · rw [execute_lines hn hi hbody h perform s, caseOf?_of_notMem hs]
    rfl
  · exact scans_build (distinct_ofLength h m) (ofLength_ne_nil hm)

/-- **Strings that come once each are told apart exactly, and a string that comes twice is
refused.** -/
theorem render_exact :
    ((cases.map (·.text)).Nodup → ∃ ls, render n cases = .ok ls ∧ Exact n depth cases ls) ∧
    (¬ (cases.map (·.text)).Nodup → ∃ text, FirstRepeated cases text ∧
      render n cases = .error ⟨text⟩) := by
  refine ⟨fun h => ⟨_, ?_, exact_lines hn hi hbody h⟩, render_repeated n⟩
  rw [render, lines_eq_ok h]
  rfl

end

/-- The empty string, strings in front of others, and strings that need escapes. -/
def awkward : List Case :=
  [⟨"", "return 0"⟩, ⟨"ab", "return 1"⟩, ⟨"a", "return 2"⟩, ⟨"abc", "return 3"⟩,
    ⟨"abd", "if flag: return 4"⟩, ⟨"it's", "raise KeyError"⟩, ⟨"\"q\"\\", "return '\\n'"⟩,
    ⟨"é→𝄞\n", "return 7"⟩]

def awkwardNames : Names := ⟨"text", "n", "\t\t"⟩

theorem render_exact_awkward :
    (∃ ls, render awkwardNames awkward = .ok ls ∧ Exact awkwardNames 2 awkward ls) ∧
    ∃ text, FirstRepeated (awkward ++ awkward) text ∧
      render awkwardNames (awkward ++ awkward) = .error ⟨text⟩ := by
  have hn : Variables awkwardNames := ⟨by decide, by decide, by decide⟩
  have hi : awkwardNames.indent.toList = List.replicate 2 '\t' := rfl
  have hbody : ∀ k ∈ awkward, Matcher.IsStatement k.body := by decide
  have htwice : ∀ k ∈ awkward ++ awkward, Matcher.IsStatement k.body := fun k hk =>
    hbody k ((List.mem_append.mp hk).elim id id)
  exact ⟨(render_exact hn hi hbody).1 (by decide), (render_exact hn hi htwice).2 (by decide)⟩

end OverloadTables.Dispatch
