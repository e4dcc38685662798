import OverloadTables.Signature.Pool
import OverloadTables.Proofs.Distinct
import OverloadTables.Proofs.Trie
import Mathlib.Algebra.Ring.Nat

/-!
# The pool stores each signature once

* `StartsAt ds s n`        in the table of `ds` the signature `s` starts at `n`;
* `SignaturePool.layOut`   the runs of signatures one after the other;
* `SignaturePool.Stores p l`   the pool holds the signatures `l`, each once, in the order of first
                           sight;
* `SignaturePool.Stores.intern`   one signature more.
-/

namespace OverloadTables

/-! ## where a signature starts -/

/-- `s` is among the signatures `ds`, and those before it have `n` descriptors together. -/
def StartsAt (ds : List Signature) (s : Signature) (n : Nat) : Prop :=
  ∃ before after, ds = before ++ s :: after ∧ n = before.flatten.length

namespace StartsAt

variable {ds : List Signature} {s s' : Signature} {n n' : Nat}

theorem not_nil : ¬ StartsAt [] s n := by
  rintro ⟨before, after, h, -⟩
  simp at h

theorem cons_iff {d : Signature} :
    StartsAt (d :: ds) s n ↔ s = d ∧ n = 0 ∨ ∃ m, StartsAt ds s m ∧ n = d.length + m := by
  constructor
  · rintro ⟨before, after, h, rfl⟩
    cases before with
    | nil =>
      rw [List.nil_append, List.cons.injEq] at h
      exact .inl ⟨h.1.symm, rfl⟩
    | cons b before =>
      rw [List.cons_append, List.cons.injEq] at h
      obtain ⟨rfl, rfl⟩ := h
      exact .inr ⟨before.flatten.length, ⟨before, after, rfl, rfl⟩, by simp⟩
  · rintro (⟨rfl, rfl⟩ | ⟨m, ⟨before, after, rfl, rfl⟩, rfl⟩)
    · exact ⟨[], ds, rfl, rfl⟩
    · exact ⟨d :: before, after, rfl, by simp⟩

theorem append (h : StartsAt ds s n) (more : List Signature) : StartsAt (ds ++ more) s n := by
  obtain ⟨before, after, rfl, rfl⟩ := h
  exact ⟨before, after ++ more, by simp, rfl⟩

theorem concat_self (ds : List Signature) (s : Signature) :
    StartsAt (ds ++ [s]) s ds.flatten.length :=
  ⟨ds, [], rfl, rfl⟩

theorem mem (h : StartsAt ds s n) : s ∈ ds := by
  obtain ⟨before, after, rfl, -⟩ := h
  simp

theorem exists_of_mem (h : s ∈ ds) : ∃ n, StartsAt ds s n := by
  obtain ⟨before, after, rfl⟩ := List.append_of_mem h
  exact ⟨_, before, after, rfl, rfl⟩

/-- The run of a signature holds it. -/
theorem take_drop (h : StartsAt ds s n) : (ds.flatten.drop n).take s.length = s := by
  obtain ⟨before, after, rfl, rfl⟩ := h
  rw [List.flatten_append, List.drop_left, List.flatten_cons, List.take_left]

/-- Signatures with a return type cannot start at one place. -/
theorem signature_unique (hne : ∀ d ∈ ds, d ≠ []) (h : StartsAt ds s n) (h' : StartsAt ds s' n) :
    s = s' := by
  induction ds generalizing n with
  | nil => exact absurd h not_nil
  | cons d ds ih =>
    have hd : 0 < d.length := List.length_pos_iff.mpr (hne d List.mem_cons_self)
    rcases cons_iff.mp h with ⟨rfl, hn⟩ | ⟨m, hm, hn⟩ <;>
      rcases cons_iff.mp h' with ⟨rfl, hn'⟩ | ⟨m', hm', hn'⟩
    · rfl
    · omega
    · omega
    · obtain rfl : m = m' := by omega
      exact ih (fun e he => hne e (List.mem_cons_of_mem _ he)) hm hm'

/-- A signature that is stored once starts at one place. -/
theorem start_unique (hnd : ds.Nodup) (h : StartsAt ds s n) (h' : StartsAt ds s n') : n = n' := by
  induction ds generalizing n n' with
  | nil => exact absurd h not_nil
  | cons d ds ih =>
    obtain ⟨hd, hds⟩ := List.nodup_cons.mp hnd
    rcases cons_iff.mp h with ⟨rfl, hn⟩ | ⟨m, hm, hn⟩ <;>
      rcases cons_iff.mp h' with ⟨e, hn'⟩ | ⟨m', hm', hn'⟩
    · omega
    · exact absurd hm'.mem hd
    · exact absurd (e ▸ hm.mem) hd
    · rw [hn, hn', ih hds hm hm']

/-- One signature more, apart from those before it. -/
theorem concat_iff (hnd : (ds ++ [s]).Nodup) :
    StartsAt (ds ++ [s]) s' n ↔ if s' = s then n = ds.flatten.length else StartsAt ds s' n := by
  have hself := concat_self ds s
  by_cases e : s' = s
  · subst e
    rw [if_pos rfl]
    constructor
    · exact fun h => start_unique hnd h hself
    · rintro rfl
      exact hself
  · rw [if_neg e]
    constructor
    · intro h
      have hs' : s' ∈ ds := by
        rcases List.mem_append.mp h.mem with hs' | hs'
        · exact hs'
        · exact absurd (List.mem_singleton.mp hs') e
      obtain ⟨k, hk⟩ := exists_of_mem hs'
      rwa [start_unique hnd h (hk.append [s])]
    · exact fun h => h.append [s]

end StartsAt

namespace SignaturePool

/-! ## runs one after the other -/

/-- The runs of signatures one after the other, the first from `start` on. -/
def layOut : Nat → List Signature → List Run
  | _, [] => []
  | start, s :: ss => ⟨start, s.length⟩ :: layOut (start + s.length) ss

theorem layOut_append (start : Nat) (a b : List Signature) :
    layOut start (a ++ b) = layOut start a ++ layOut (start + a.flatten.length) b := by
  induction a generalizing start with
  | nil => rfl
  | cons s a ih =>
    rw [List.cons_append, layOut, ih, layOut, List.flatten_cons, List.length_append,
      List.cons_append, Nat.add_assoc]

theorem layOut_lengths (start : Nat) (ds : List Signature) :
    (layOut start ds).map (·.length) = ds.map List.length := by
  induction ds generalizing start with
  | nil => rfl
  | cons s ds ih => rw [layOut, List.map_cons, List.map_cons, ih]

/-- A run starts after all that stands before it. -/
theorem layOut_starts (start : Nat) (ds : List Signature) :
    (layOut start ds).map (·.start)
      = (List.range ds.length).map fun i => start + ((ds.take i).map List.length).sum := by
  induction ds generalizing start with
  | nil => rfl
  | cons s ds ih =>
    rw [layOut, List.map_cons, ih, List.length_cons, List.range_succ_eq_map, List.map_cons,
      List.map_map]
    congr 1
    apply List.map_congr_left
    intro i _
    show start + s.length + _ = start + (s.length + _)
    exact Nat.add_assoc ..

theorem mem_layOut {start : Nat} {ds : List Signature} {r : Run} :
    r ∈ layOut start ds ↔ ∃ s n, StartsAt ds s n ∧ r = ⟨start + n, s.length⟩ := by
  induction ds generalizing start with
  | nil => simp [layOut, StartsAt.not_nil]
  | cons d ds ih =>
    rw [layOut, List.mem_cons, ih]
    constructor
    · rintro (rfl | ⟨s, n, hs, rfl⟩)
      · exact ⟨d, 0, StartsAt.cons_iff.mpr (.inl ⟨rfl, rfl⟩), rfl⟩
      · exact ⟨s, d.length + n, StartsAt.cons_iff.mpr (.inr ⟨n, hs, rfl⟩), by
          rw [Nat.add_assoc]⟩
    · rintro ⟨s, n, hs, rfl⟩
      rcases StartsAt.cons_iff.mp hs with ⟨rfl, rfl⟩ | ⟨m, hm, rfl⟩
      · exact .inl rfl
      · exact .inr ⟨s, m, hm, by rw [Nat.add_assoc]⟩

/-- The runs in a table that has the signatures from `before.length` on. -/
theorem layOut_runs (before : List Descriptor) (ds : List Signature) :
    (layOut before.length ds).map (fun r => ((before ++ ds.flatten).drop r.start).take r.length)
      = ds := by
  induction ds generalizing before with
  | nil => rfl
  | cons s ds ih =>
    have hrest := ih (before ++ s)
    rw [List.length_append, List.append_assoc] at hrest
    rw [layOut, List.map_cons, List.flatten_cons, hrest, List.drop_left, List.take_left]

theorem layOut_start_eq {start : Nat} {ds : List Signature} {above below : List Run} {r : Run}
    (h : layOut start ds = above ++ r :: below) :
    r.start = start + (above.map (·.length)).sum := by
  induction above generalizing start ds with
  | nil =>
    cases ds with
    | nil => cases h
    | cons s ds =>
      rw [layOut, List.nil_append, List.cons.injEq] at h
      rw [← h.1]
      rfl
  | cons a above ih =>
    cases ds with
    | nil => cases h
    | cons s ds =>
      rw [layOut, List.cons_append, List.cons.injEq] at h
      rw [ih h.2, ← h.1, List.map_cons, List.sum_cons, Nat.add_assoc]

/-- Runs of signatures with a return type stand in ascending order. -/
theorem layOut_ascending (start : Nat) {ds : List Signature} (hne : ∀ d ∈ ds, d ≠ []) :
    (layOut start ds).Pairwise fun a b => a.start < b.start := by
  induction ds generalizing start with
  | nil => exact List.Pairwise.nil
  | cons d ds ih =>
    have hd : 0 < d.length := List.length_pos_iff.mpr (hne d List.mem_cons_self)
    refine List.Pairwise.cons ?_ (ih _ fun e he => hne e (List.mem_cons_of_mem _ he))
    intro r hr
    obtain ⟨s, n, -, rfl⟩ := mem_layOut.mp hr
    show start < start + d.length + n
    omega

/-! ## the pool -/

/-- The pool after the signatures `l` were stored one after the other. -/
structure Stores (p : SignaturePool) (l : List Signature) : Prop where
  nonempty : ∀ s ∈ l, s ≠ []
  table : p.table = l.eraseDups.flatten
  runs : p.runs = layOut 0 l.eraseDups
  starts : ∀ s n, p.starts.find? s = some n ↔ StartsAt l.eraseDups s n

theorem stores_empty : Stores empty [] where
  nonempty := by simp
  table := rfl
  runs := rfl
  starts s n := by
    show (Trie.empty : Trie Descriptor Nat).find? s = some n ↔ _
    rw [Trie.find?_empty]
    simp [StartsAt.not_nil]

theorem intern_eq_ok {p p' : SignaturePool} {s : Signature} {n : Nat} :
    p.intern s = .ok (n, p') ↔ s ≠ [] ∧ (p.starts.find? s = some n ∧ p' = p ∨
      p.starts.find? s = none ∧ n = p.table.length ∧
        p' = ⟨p.table ++ s, p.runs ++ [⟨n, s.length⟩], p.starts.insert s n⟩) := by
  rw [intern]
  by_cases hs : s = []
  · rw [if_pos hs]
    simp [hs]
  · rw [if_neg hs]
    cases hf : p.starts.find? s with
    | some m => simp [hs, eq_comm]
    | none =>
      rw [Except.ok.injEq, Prod.mk.injEq]
      constructor
      · rintro ⟨rfl, rfl⟩
        exact ⟨hs, .inr ⟨rfl, rfl, rfl⟩⟩
      · rintro ⟨-, ⟨h, -⟩ | ⟨-, rfl, rfl⟩⟩
        · cases h
        · exact ⟨rfl, rfl⟩

/-- A signature with a return type is never refused. -/
theorem intern_ok (p : SignaturePool) {s : Signature} (hs : s ≠ []) :
    ∃ r, p.intern s = .ok r := by
  rw [intern, if_neg hs]
  cases p.starts.find? s with
  | none => exact ⟨_, rfl⟩
  | some start => exact ⟨_, rfl⟩

section
variable {p : SignaturePool} {l : List Signature} {s : Signature} (hp : Stores p l)
include hp

theorem Stores.nonempty_concat (hne : s ≠ []) : ∀ t ∈ l ++ [s], t ≠ [] := by
  intro t ht
  rcases List.mem_append.mp ht with ht | ht
  · exact hp.nonempty t ht
  · rwa [List.mem_singleton.mp ht]

/-- A signature that is stored already changes nothing. -/
theorem Stores.again (hne : s ≠ []) (hs : s ∈ l) : Stores p (l ++ [s]) := by
  refine ⟨hp.nonempty_concat hne, ?_, ?_, ?_⟩
  all_goals rw [eraseDups_concat_of_mem hs]
  · exact hp.table
  · exact hp.runs
  · exact hp.starts

/-- A signature that is new is stored at the end. -/
theorem Stores.anew (hne : s ≠ []) (hs : s ∉ l) :
    Stores ⟨p.table ++ s, p.runs ++ [⟨p.table.length, s.length⟩],
      p.starts.insert s p.table.length⟩ (l ++ [s]) := by
  have hnd : (l.eraseDups ++ [s]).Nodup := eraseDups_concat hs ▸ nodup_eraseDups _
  refine ⟨hp.nonempty_concat hne, ?_, ?_, ?_⟩
  all_goals rw [eraseDups_concat hs]
  · show p.table ++ s = _
    rw [hp.table, List.flatten_append, List.flatten_singleton]
  · show p.runs ++ [⟨p.table.length, s.length⟩] = _
    rw [hp.runs, layOut_append, Nat.zero_add, hp.table]
    rfl
  · intro t m
    show (p.starts.insert s p.table.length).find? t = some m ↔ _
    rw [Trie.find?_insert, StartsAt.concat_iff hnd, hp.table]
    by_cases e : t = s
    · rw [if_pos e, if_pos e, Option.some.injEq, eq_comm]
    · rw [if_neg e, if_neg e, hp.starts]

/-- **One signature more**: it starts where its first sight was stored, a new one at the end. -/
theorem Stores.intern {p' : SignaturePool} {n : Nat} (h : p.intern s = .ok (n, p')) :
    Stores p' (l ++ [s]) ∧ StartsAt (l ++ [s]).eraseDups s n := by
  obtain ⟨hne, ⟨hf, rfl⟩ | ⟨hf, rfl, rfl⟩⟩ := intern_eq_ok.mp h
  · have hst := (hp.starts s n).mp hf
    have hmem : s ∈ l := List.mem_eraseDups.mp hst.mem
    refine ⟨hp.again hne hmem, ?_⟩
    rwa [eraseDups_concat_of_mem hmem]
  · have hnew : s ∉ l := by
      intro hm
      obtain ⟨m, hm⟩ := StartsAt.exists_of_mem (List.mem_eraseDups.mpr hm)
      rw [(hp.starts s m).mpr hm] at hf
      exact nomatch hf
    refine ⟨hp.anew hne hnew, ?_⟩
    rw [eraseDups_concat hnew, hp.table]
    exact StartsAt.concat_self _ s

end

end SignaturePool
end OverloadTables
