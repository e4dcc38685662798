import OverloadTables.Proofs.Tables.Blocks

/-!
# Every signature is stored once, in the order of declaration

* `Stages.signatures`      the signatures of all overloads as they were declared;
* `Tables.build_signatures`   the signature table is made of the distinct ones, its runs are theirs,
                           and rows share a run when they share a signature.
-/

namespace OverloadTables

namespace Stages

variable {c : Catalog} {t : Tables} (g : Stages c t)

def signatures : List Signature := c.content.overloads.map g.scope.resolved

theorem table_flatten : t.signatureTable = g.signatures.eraseDups.flatten := by
  rw [g.table_eq, g.stores.table]
  rfl

theorem runs_layOut : t.runs = SignaturePool.layOut 0 g.signatures.eraseDups := by
  rw [g.runs_eq, g.stores.runs]
  rfl

theorem distinct_nonempty : ∀ s ∈ g.signatures.eraseDups, s ≠ [] := fun s hs =>
  g.stores.nonempty s (List.mem_eraseDups.mp hs)

theorem map_run_runs : t.runs.map t.run = g.signatures.eraseDups := by
  have hlaid := SignaturePool.layOut_runs [] g.signatures.eraseDups
  rw [List.nil_append, ← g.table_flatten] at hlaid
  rw [g.runs_layOut]
  exact hlaid

include g in
theorem runs_flatMap : t.runs.flatMap t.run = t.signatureTable := by
  rw [List.flatMap_def, g.map_run_runs, g.table_flatten]

include g in
theorem length_run {r : Run} (hr : r ∈ t.runs) : (t.run r).length = r.length := by
  have hlengths : t.runs.map (fun r => (t.run r).length) = t.runs.map (·.length) := by
    have := SignaturePool.layOut_lengths 0 g.signatures.eraseDups
    rw [← g.runs_layOut, ← g.map_run_runs, List.map_map] at this
    exact this.symm
  exact List.map_inj_left.mp hlengths r hr

include g in
/-- A run starts after those above it. -/
theorem run_start {above below : List Run} {r : Run} (h : t.runs = above ++ r :: below) :
    r.start = (above.flatMap t.run).length := by
  have hstart := SignaturePool.layOut_start_eq (g.runs_layOut.symm.trans h)
  rw [Nat.zero_add] at hstart
  rw [hstart, List.length_flatMap]
  refine congrArg List.sum (List.map_congr_left fun a ha => (g.length_run ?_).symm)
  rw [h]
  exact List.mem_append_left _ ha

/-- Grouping moves rows and loses none. -/
theorem rows_perm : g.rows.Perm t.rows := by
  rw [g.grouped_eq]
  exact (group_perm _ _).symm

/-- What the signature table has for a row is what its overload resolved to. -/
theorem signatureOf_rowOf {o : Overload} {r : Row}
    (h : RowOf g.scope g.versions g.signatures.eraseDups o r) :
    t.signatureOf r = g.scope.resolved o := by
  rw [Tables.signatureOf, Tables.run, g.table_flatten, h.length, h.starts.take_drop]

theorem rows_signatures : g.rows.map t.signatureOf = g.signatures := by
  refine (map_eq_map_of_forall₂ (fun o r h => ?_) g.rowsOf).symm
  exact (g.signatureOf_rowOf h).symm

theorem signatures_declared :
    c.content.overloads.map (fun o => o.signature.map g.scope.descriptor?)
      = g.signatures.map (·.map some) := by
  rw [← g.rows_signatures, List.map_map]
  refine map_eq_map_of_forall₂ (fun o r h => ?_) g.rowsOf
  show _ = (t.signatureOf r).map some
  rw [g.signatureOf_rowOf h, h.declared]

/-- A row points to where its signature is stored. -/
theorem row_starts {r : Row} (hr : r ∈ t.rows) :
    StartsAt g.signatures.eraseDups (t.signatureOf r) r.start ∧
      r.length = (t.signatureOf r).length := by
  obtain ⟨o, -, ho⟩ : ∃ o ∈ c.content.overloads,
      RowOf g.scope g.versions g.signatures.eraseDups o r := by
    obtain ⟨i, hi, rfl⟩ := List.mem_iff_getElem.mp (g.rows_perm.mem_iff.mpr hr)
    have hlen := g.rowsOf.length_eq
    exact ⟨_, List.getElem_mem (hlen ▸ hi), List.Forall₂.get g.rowsOf (hlen ▸ hi) hi⟩
  rw [g.signatureOf_rowOf ho]
  exact ⟨ho.starts, ho.length⟩

theorem exists_row {s : Signature} (hs : s ∈ g.signatures) : ∃ r ∈ t.rows, t.signatureOf r = s := by
  rw [← g.rows_signatures, List.mem_map] at hs
  obtain ⟨r, hr, e⟩ := hs
  exact ⟨r, g.rows_perm.mem_iff.mp hr, e⟩

include g in
theorem mem_runs {run : Run} : run ∈ t.runs ↔ ∃ r ∈ t.rows, run = ⟨r.start, r.length⟩ := by
  rw [g.runs_layOut, SignaturePool.mem_layOut]
  constructor
  · rintro ⟨s, n, hs, rfl⟩
    obtain ⟨r, hr, rfl⟩ := g.exists_row (List.mem_eraseDups.mp hs.mem)
    obtain ⟨hr', hl⟩ := g.row_starts hr
    refine ⟨r, hr, ?_⟩
    rw [StartsAt.start_unique (nodup_eraseDups _) hs hr', hl, Nat.zero_add]
  · rintro ⟨r, hr, rfl⟩
    obtain ⟨hr', hl⟩ := g.row_starts hr
    exact ⟨t.signatureOf r, r.start, hr', by rw [Nat.zero_add, hl]⟩

include g in
theorem start_eq_iff {r r' : Row} (hr : r ∈ t.rows) (hr' : r' ∈ t.rows) :
    r.start = r'.start ↔ t.signatureOf r = t.signatureOf r' := by
  have h := (g.row_starts hr).1
  have h' := (g.row_starts hr').1
  constructor
  · intro e
    rw [← e] at h'
    exact StartsAt.signature_unique g.distinct_nonempty h h'
  · intro e
    rw [← e] at h'
    exact StartsAt.start_unique (nodup_eraseDups _) h h'

end Stages

namespace Tables

/-- **The signature table holds every distinct signature once, in the order of declaration.**  The
runs are those of the distinct signatures, each after all before it.  The rows, put back in the
order of declaration, have the declared signatures; two of them share a start exactly if they share
a signature, and the runs are the stretches that rows point to, in ascending order. -/
theorem build_signatures {c : Catalog} {t : Tables} (h : Tables.build c = .ok t) :
    ∃ scope, ∃ sigs : List Signature, TypeScope.ofDeclared c.types = .ok scope ∧
      c.content.overloads.map (fun o => o.signature.map scope.descriptor?)
        = sigs.map (·.map some) ∧
      t.signatureTable = sigs.eraseDups.flatten ∧
      t.runs.map (·.length) = sigs.eraseDups.map List.length ∧
      t.runs.map (·.start) = (List.range sigs.eraseDups.length).map (fun i =>
        ((sigs.eraseDups.take i).map List.length).sum) ∧
      (∃ rows : List Row, rows.Perm t.rows ∧
        rows.map (fun r => (r.name : LooseText)) = c.content.overloads.map (·.name) ∧
        rows.map t.signatureOf = sigs) ∧
      (∀ r ∈ t.rows, ∀ r' ∈ t.rows,
        (r.start = r'.start ↔ t.signatureOf r = t.signatureOf r') ∧
          (r.start = r'.start → r.length = r'.length)) ∧
      (∀ run, run ∈ t.runs ↔ ∃ r ∈ t.rows, run = ⟨r.start, r.length⟩) ∧
      t.runs.Pairwise (fun a b => a.start < b.start) := by
  obtain ⟨g⟩ := build_eq_ok.mp h
  refine ⟨g.scope, g.signatures, g.scope_eq, g.signatures_declared, g.table_flatten, ?_, ?_,
    ⟨g.rows, g.rows_perm, g.rows_names, g.rows_signatures⟩, ?_, fun _ => g.mem_runs, ?_⟩
  · rw [g.runs_layOut, SignaturePool.layOut_lengths]
  · rw [g.runs_layOut, SignaturePool.layOut_starts]
    simp only [Nat.zero_add]
  · intro r hr r' hr'
    refine ⟨g.start_eq_iff hr hr', fun e => ?_⟩
    rw [(g.row_starts hr).2, (g.row_starts hr').2, (g.start_eq_iff hr hr').mp e]
  · rw [g.runs_layOut]
    exact SignaturePool.layOut_ascending 0 g.distinct_nonempty

set_option maxRecDepth 4000 in
theorem build_signatures_interleaved :
    ∃ t, ∃ sigs : List Signature, Tables.build interleaved = .ok t ∧
      sigs.map List.length = [3, 2, 3] ∧ t.signatureTable = sigs.eraseDups.flatten ∧
      t.runs = [⟨0, 3⟩, ⟨3, 2⟩] ∧ t.rows.map (·.start) = [0, 0, 3] ∧
      ∀ r ∈ t.rows, ∀ r' ∈ t.rows, r.start = r'.start ↔ t.signatureOf r = t.signatureOf r' := by
  obtain ⟨t, h, hruns, hstarts⟩ : ∃ t, Tables.build interleaved = .ok t ∧
      t.runs = [⟨0, 3⟩, ⟨3, 2⟩] ∧ t.rows.map (·.start) = [0, 0, 3] := ⟨_, rfl, rfl, rfl⟩
  obtain ⟨scope, sigs, -, hsigs, htable, -, -, -, hrows, -, -⟩ := build_signatures h
  have hlen : sigs.map List.length = [3, 2, 3] := by
    have := congrArg (List.map List.length) hsigs
    rw [List.map_map, List.map_map] at this
    simpa [Function.comp_def, interleaved, Catalog.content] using this.symm
  exact ⟨t, sigs, h, hlen, htable, hruns, hstarts, fun r hr r' hr' => (hrows r hr r' hr').1⟩

end Tables
end OverloadTables
