import OverloadTables.Proofs.BlockIndex
import OverloadTables.Proofs.Dispatch.Lines

/-!
# The dispatcher answers as the index does

* `Source.meaning`                 the statement of a line;
* `Source.guarded`                 the program of a dispatcher around its chain of clauses;
* `Source.dispatcher_of_blocks`    the lines of a dispatcher, read and run, for any index.
-/

namespace OverloadTables.Source

open Script

/-! ## answers -/

/-- The statement that a line of a dispatcher makes. -/
def meaning (body : String) : Statement := (statement? body.toList).getD .measure

theorem answer_toList (start count : Nat) :
    (answer ⟨start, count⟩).toList = "return (".toList ++ ((toString start).toList
      ++ (", ".toList ++ ((toString count).toList ++ ")".toList))) := by
  simp only [answer, String.toList_append, List.append_assoc]
  rfl

theorem statement?_answer (start count : Nat) :
    statement? (answer ⟨start, count⟩).toList = some (.answer ⟨start, count⟩) := by
  have hstart : NoDigit (", ".toList ++ ((toString count).toList ++ ")".toList)) :=
    noDigit_cons rfl _
  have hcount : NoDigit ")".toList := noDigit_cons rfl _
  have hmeasure : ∀ cs, measure? ("return (".toList ++ cs) = none := fun _ => rfl
  have hanswer : answer? ("return (".toList ++ ((toString start).toList ++ (", ".toList
      ++ ((toString count).toList ++ ")".toList)))) = some (.answer ⟨start, count⟩) := by
    rw [answer?, skip_append, Option.bind_eq_bind, Option.bind_some, number?_toString start hstart,
      Option.bind_eq_bind, Option.bind_some]
    show (skip ", ".toList (", ".toList ++ ((toString count).toList ++ ")".toList)) >>= _) = _
    rw [skip_append, Option.bind_eq_bind, Option.bind_some, number?_toString count hcount]
    rfl
  rw [answer_toList, statement?, hmeasure, hanswer]
  rfl

/-- An answer with numbers that are not negative is understood. -/
theorem meaning_answer {e : Extent} (hs : 0 ≤ e.start) (hc : 0 ≤ e.count) :
    meaning (answer e) = .answer e ∧ dispatcherReader.Does (answer e) (.answer e) := by
  obtain ⟨start, count⟩ := e
  obtain ⟨start, rfl⟩ := Int.eq_ofNat_of_zero_le hs
  obtain ⟨count, rfl⟩ := Int.eq_ofNat_of_zero_le hc
  have hread := statement?_answer start count
  have hhead : (answer ⟨start, count⟩).toList.head? = some 'r' := by
    rw [answer_toList]
    rfl
  exact ⟨by rw [meaning, hread]; rfl, .of_head hread hhead (by decide)⟩

/-! ## the cases of an index -/

section
variable {blocks : List Block} {ix : BlockIndex} (h : BlockIndex.ofBlocks blocks = .ok ix)
include h

theorem dispatchCases_nodup : ((dispatchCases ix).map (·.text)).Nodup := by
  obtain ⟨hblocks, hadded⟩ := BlockIndex.ofBlocks_added h
  rw [dispatchCases, List.map_map, hblocks]
  exact hadded.nodup

/-- The case of a name answers with its extent; a name without one is absent. -/
theorem caseOf?_dispatchCases (s : String) :
    (Dispatch.caseOf? (dispatchCases ix) s.toList = none ∧ ix.lookup s = ⟨0, 0⟩) ∨
      (Dispatch.caseOf? (dispatchCases ix) s.toList = some (answer (ix.lookup s)) ∧
        1 ≤ (ix.lookup s).start ∧ 1 ≤ (ix.lookup s).count) := by
  obtain ⟨hblocks, hadded⟩ := BlockIndex.ofBlocks_added h
  have hcase : Dispatch.caseOf? (dispatchCases ix) s.toList
      = (blocks.find? (·.name = s)).map fun b => answer b.extent := by
    rw [Dispatch.caseOf?, dispatchCases, hblocks, List.find?_map, Option.map_map]
    simp only [Function.comp_def, String.toList_inj]
  rw [hcase]
  cases hf : blocks.find? (·.name = s) with
  | none =>
    left
    refine ⟨rfl, BlockIndex.lookup_of_notMem h fun hm => ?_⟩
    obtain ⟨b, hb, rfl⟩ := List.mem_map.mp hm
    simpa using List.find?_eq_none.mp hf b hb
  | some b =>
    right
    have hb := List.mem_of_find?_eq_some hf
    obtain rfl : b.name = s := by simpa using List.find?_some hf
    rw [BlockIndex.lookup_of_mem h hb]
    exact ⟨rfl, hadded.bounds b hb⟩

end

/-! ## the function -/

/-- The lines before the chain of clauses. -/
def guard : List String :=
  ["\tif not isinstance(name, str):", "\t\treturn (0, 0)", "\tlength = len(name)"]

/-- The lines after it. -/
def finish : List String := ["\treturn (0, 0)", ""]

/-- The program of a dispatcher with this chain. -/
def guarded (chain : Code Condition Statement) : Code Condition Statement :=
  .fork .notText (.step (.answer ⟨0, 0⟩) .pass) .pass (.step .measure chain)

def otherwise : Code Condition Statement := .step (.answer ⟨0, 0⟩) .pass

/-- The lines up to the end of the docstring. -/
def opening : List String :=
  ["",
    "def is_builtin(name: str) -> Tuple[int, int]:",
    "\t\"\"\"",
    "\tReturn (0, 0) if `name` is not a recognized builtin, else (start, count)",
    "\twhere BUILTIN_TABLE[start - 1 : start - 1 + count] are its overloads.",
    "\t\"\"\""]

theorem dispatcher_eq_ok {ix : BlockIndex} {body : List String} (h : dispatchBody ix = .ok body) :
    dispatcher ix = .ok (opening ++ (body ++ finish)) := by
  rw [← List.append_assoc, dispatcher, h]
  rfl

theorem dispatchBody_empty {ix : BlockIndex} (h : ix.blocks = []) : dispatchBody ix = .ok [] := by
  rw [dispatchBody, h]
  rfl

theorem belowDocstring_opening (body : List String) : belowDocstring (opening ++ body) = body :=
  rfl

section
variable {ls : List Dispatch.Line}
  (hls : ∀ l ∈ ls, ∀ body, l.content = .statement body → dispatcherReader.Does body (meaning body))
include hls

/-- The lines of a dispatcher are read as a program if those of its chain are. -/
theorem program?_guarded {chain : Code Condition Statement}
    (h : readOnto (ls.map (ofLine 1 meaning)) [⟨1, none, otherwise⟩] = some [⟨1, none, chain⟩]) :
    dispatcherReader.program? (guard ++ (ls.map (·.render dispatchNames) ++ finish))
      = some (guarded chain) := by
  obtain ⟨first, hguard, hfirst⟩ : ∃ first, (guard.filter fun l => !isBlank l).mapM
      dispatcherReader.line? = some first ∧ readOnto first [⟨1, none, chain⟩]
        = some [⟨1, none, guarded chain⟩] := ⟨_, rfl, rfl⟩
  have hfinish : (finish.filter fun l => !isBlank l).mapM dispatcherReader.line?
      = some [⟨1, .does (.answer ⟨0, 0⟩)⟩] := rfl
  have hindent : dispatchNames.indent.toList = List.replicate 1 '\t' := rfl
  have hlines := Reader.lines?_render condition?_render hindent ls hls
  rw [Reader.program?, List.filter_append, List.filter_append,
    mapM_append_some hguard (mapM_append_some hlines hfinish), Option.bind_some, block?,
    readOnto_append, readOnto_append]
  have hlast : readOnto [⟨1, .does (.answer ⟨0, 0⟩)⟩] [] = some [⟨1, none, otherwise⟩] := rfl
  rw [hlast, Option.bind_some, h, Option.bind_some, hfirst]
  rfl

end

/-! ## running -/

theorem run_guarded (chain : Code Condition Statement) (s : List Char) :
    (guarded chain).run (holds s) (perform s) none
      = chain.run (holds s) (perform s) (some s.length) := by
  rfl

section
variable {blocks : List Block} {ix : BlockIndex} (h : BlockIndex.ofBlocks blocks = .ok ix)
include h

theorem dispatchCases_mean : ∀ k ∈ dispatchCases ix,
    dispatcherReader.Does k.body (meaning k.body) := by
  obtain ⟨hblocks, hadded⟩ := BlockIndex.ofBlocks_added h
  intro k hk
  obtain ⟨b, hb, rfl⟩ := List.mem_map.mp hk
  obtain ⟨hs, hc⟩ := hadded.bounds b (hblocks ▸ hb)
  obtain ⟨hmeaning, hdoes⟩ := meaning_answer (e := b.extent) (by omega) (by omega)
  show dispatcherReader.Does (answer b.extent) (meaning (answer b.extent))
  rw [hmeaning]
  exact hdoes

/-- The chain of an index answers as the index does. -/
theorem run_chain (s : String) :
    ∃ st, (Dispatch.codeOfLengths meaning (dispatchCases ix) otherwise
        (Dispatch.lengths (dispatchCases ix))).run (holds s.toList) (perform s.toList)
          (some s.toList.length) = .ok (some (ix.lookup s), st) := by
  rw [Dispatch.run_lines meaning (dispatchCases_nodup h)]
  rcases caseOf?_dispatchCases h s with ⟨hcase, hlookup⟩ | ⟨hcase, hs, hc⟩
  · rw [hcase, hlookup]
    exact ⟨_, rfl⟩
  · rw [hcase, Dispatch.outcome, (meaning_answer (by omega) (by omega)).1]
    exact ⟨_, rfl⟩

theorem dispatchBody_eq_ok (hne : ix.blocks ≠ []) :
    dispatchBody ix = .ok (guard ++ (Dispatch.linesOfLengths (dispatchCases ix) true
      (Dispatch.lengths (dispatchCases ix))).map (·.render dispatchNames)) := by
  have hempty : ¬ ix.blocks.isEmpty = true := fun e => hne (List.isEmpty_iff.mp e)
  rw [dispatchBody, if_neg hempty, Dispatch.render, Dispatch.lines_eq_ok (dispatchCases_nodup h)]
  rfl

/-- **The dispatcher of an index answers as the index does.** -/
theorem dispatcher_of_blocks :
    ∃ ls, dispatcher ix = .ok ls ∧ ∀ s, call ls s = .ok (some (ix.lookup s)) := by
  by_cases hne : ix.blocks = []
  · -- without blocks the function has its last answer alone, and every name is absent
    refine ⟨_, dispatcher_eq_ok (dispatchBody_empty hne), fun s => ?_⟩
    have habsent : ix.lookup s = ⟨0, 0⟩ := by
      refine BlockIndex.lookup_of_notMem h fun hm => ?_
      rw [← (BlockIndex.ofBlocks_added h).1, hne] at hm
      exact nomatch hm
    rw [habsent, call, belowDocstring_opening]
    rfl
  · have hcases : dispatchCases ix ≠ [] := fun e => hne (List.map_eq_nil_iff.mp e)
    refine ⟨_, dispatcher_eq_ok (dispatchBody_eq_ok h hne), fun s => ?_⟩
    have hread := Dispatch.readOnto_lines meaning (dispatchCases_nodup h) 1 hcases
      (atDepth_cons ⟨1, none, otherwise⟩ [])
    have hlines := Dispatch.linesOfLengths_bodies (dispatchCases_nodup h)
      (fun body => dispatcherReader.Does body (meaning body)) true (dispatchCases_mean h)
      (fun n hn => Dispatch.ofLength_ne_nil hn)
    obtain ⟨st, hrun⟩ := run_chain h s
    rw [call, belowDocstring_opening, List.append_assoc, program?_guarded hlines hread]
    show ((guarded _).run (holds s.toList) (perform s.toList) none).map (·.1) = _
    rw [run_guarded, hrun]
    rfl

end

end OverloadTables.Source
