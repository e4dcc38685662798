import OverloadTables.Proofs.Signature.Pool

/-!
# The pool as a list that is searched from the front

The pool finds a signature by a trie.  It could as well keep the signatures with their starts in a
list, and compare one after the other.

* `SignatureList`              such a list, with the table;
* `SignaturePool.after l`, `SignatureList.after l`   what they are after the calls `l`; a call that
                               fails leaves them as they were;
* `SignaturePool.Alike p r`    the pool and the list hold the same, and the trie finds what the list
                               has first;
* `SignaturePool.Scans l`      after the calls `l` nothing tells them apart, and what a start stands
                               for stays in the table;
* `SignaturePool.after_scans`  this holds of all calls.
-/

namespace OverloadTables

/-! ## the list -/

/-- Signatures with their starts in the order of first sight, and the table. -/
structure SignatureList where
  stored : List (Signature × Nat)
  table : List Descriptor

namespace SignatureList

open SignaturePool (Invalid)

def empty : SignatureList := ⟨[], []⟩

/-- The start that stands beside the first signature that is equal. -/
def startOf? (s : Signature) : List (Signature × Nat) → Option Nat
  | [] => none
  | (s', start) :: rest => if s' = s then some start else startOf? s rest

def intern (r : SignatureList) (s : Signature) : Except Invalid (Nat × SignatureList) :=
  if s = [] then .error .noReturnType
  else match startOf? s r.stored with
    | some start => .ok (start, r)
    | none => .ok (r.table.length, ⟨r.stored ++ [(s, r.table.length)], r.table ++ s⟩)

def runs (r : SignatureList) : List Run := r.stored.map fun e => ⟨e.2, e.1.length⟩

/-- The answer to one call, and the list after it. -/
def step (r : SignatureList) (s : Signature) : Except Invalid Nat × SignatureList :=
  match r.intern s with
  | .ok (start, r') => (.ok start, r')
  | .error e => (.error e, r)

def after (l : List Signature) : SignatureList := l.foldl (fun r s => (r.step s).2) empty

theorem startOf?_concat (s t : Signature) (start : Nat) (l : List (Signature × Nat)) :
    startOf? t (l ++ [(s, start)])
      = (startOf? t l).or (if s = t then some start else none) := by
  induction l with
  | nil => rfl
  | cons e l ih =>
    obtain ⟨s', start'⟩ := e
    rw [List.cons_append, startOf?, startOf?, ih]
    by_cases h : s' = t
    · rw [if_pos h, if_pos h, Option.some_or]
    · rw [if_neg h, if_neg h]

theorem after_concat (l : List Signature) (s : Signature) :
    after (l ++ [s]) = ((after l).step s).2 := by
  rw [after, List.foldl_append]
  rfl

end SignatureList

/-! ## calls to the pool -/

namespace SignaturePool

/-- The answer to one call, and the pool after it. -/
def step (p : SignaturePool) (s : Signature) : Except Invalid Nat × SignaturePool :=
  match p.intern s with
  | .ok (start, p') => (.ok start, p')
  | .error e => (.error e, p)

def after (l : List Signature) : SignaturePool := l.foldl (fun p s => (p.step s).2) empty

theorem after_append (l m : List Signature) :
    after (l ++ m) = m.foldl (fun p s => (p.step s).2) (after l) := by
  rw [after, List.foldl_append]
  rfl

theorem after_concat (l : List Signature) (s : Signature) :
    after (l ++ [s]) = ((after l).step s).2 := after_append l [s]

section
variable {p : SignaturePool} {s : Signature} {n : Nat} {e : Invalid}

theorem step_answered (h : (p.step s).1 = .ok n) : p.intern s = .ok (n, (p.step s).2) := by
  unfold step at h ⊢
  cases hi : p.intern s with
  | ok r =>
    rw [hi] at h
    rw [← Except.ok.inj h]
  | error e =>
    rw [hi] at h
    exact nomatch h

theorem step_nil (p : SignaturePool) : p.step [] = (.error .noReturnType, p) := rfl

theorem step_ok (p : SignaturePool) (hs : s ≠ []) : ∃ n, (p.step s).1 = .ok n := by
  obtain ⟨r, hr⟩ := p.intern_ok hs
  exact ⟨r.1, by rw [step, hr]⟩

theorem step_refused (h : (p.step s).1 = .error e) : s = [] ∧ (p.step s).2 = p := by
  by_cases hs : s = []
  · rw [hs, step_nil]
    exact ⟨rfl, rfl⟩
  · obtain ⟨n, hn⟩ := p.step_ok hs
    exact nomatch h.symm.trans hn

end

/-! ## the pool and the list -/

/-- They hold the same, and the trie finds what comes first in the list. -/
structure Alike (p : SignaturePool) (r : SignatureList) : Prop where
  table : p.table = r.table
  runs : p.runs = r.runs
  starts : ∀ s, p.starts.find? s = SignatureList.startOf? s r.stored

theorem alike_empty : Alike empty .empty := ⟨rfl, rfl, Trie.find?_empty⟩

section
variable {p : SignaturePool} {r : SignatureList} (h : Alike p r)
include h

/-- A new signature is stored in both at the same place. -/
theorem Alike.anew {s : Signature} (hs : p.starts.find? s = none) :
    Alike ⟨p.table ++ s, p.runs ++ [⟨p.table.length, s.length⟩],
        p.starts.insert s p.table.length⟩
      ⟨r.stored ++ [(s, r.table.length)], r.table ++ s⟩ := by
  refine ⟨by rw [h.table], ?_, fun t => ?_⟩
  · show p.runs ++ _ = (r.stored ++ _).map _
    rw [List.map_append, h.runs, h.table]
    rfl
  · show (p.starts.insert s p.table.length).find? t = _
    rw [Trie.find?_insert, SignatureList.startOf?_concat, ← h.starts t, h.table]
    by_cases e : t = s
    · rw [if_pos e, if_pos e.symm, e, hs, Option.none_or]
    · rw [if_neg e, if_neg fun e' => e e'.symm, Option.or_none]

/-- **One call**: the same answer, and the pool and the list are alike after it. -/
theorem Alike.step (s : Signature) :
    (p.step s).1 = (r.step s).1 ∧ Alike (p.step s).2 (r.step s).2 := by
  rw [SignaturePool.step, SignatureList.step, SignaturePool.intern, SignatureList.intern]
  by_cases hs : s = []
  · rw [if_pos hs, if_pos hs]
    exact ⟨rfl, h⟩
  · rw [if_neg hs, if_neg hs, ← h.starts s]
    cases hf : p.starts.find? s with
    | some start => exact ⟨rfl, h⟩
    | none =>
      refine ⟨?_, h.anew hf⟩
      show (.ok p.table.length : Except Invalid Nat) = .ok r.table.length
      rw [h.table]

end

theorem alike_after (l : List Signature) : Alike (after l) (SignatureList.after l) := by
  induction l using List.reverseRecOn with
  | nil => exact alike_empty
  | append_singleton l s ih =>
    rw [after_concat, SignatureList.after_concat]
    exact (ih.step s).2

/-! ## what a start stands for -/

/-- The calls that are no failures. -/
def proper (l : List Signature) : List Signature := l.filter (· ≠ [])

theorem proper_concat_nil (l : List Signature) : proper (l ++ [[]]) = proper l := by
  rw [proper, List.filter_append]
  exact List.append_nil _

theorem proper_concat (l : List Signature) {s : Signature} (hs : s ≠ []) :
    proper (l ++ [s]) = proper l ++ [s] := by
  rw [proper, List.filter_append, List.filter_singleton, decide_eq_true hs]
  rfl

/-- After any calls the pool stores the signatures of those that did not fail. -/
theorem stores_after (l : List Signature) : Stores (after l) (proper l) := by
  induction l using List.reverseRecOn with
  | nil => exact stores_empty
  | append_singleton l s ih =>
    rw [after_concat]
    by_cases hs : s = []
    · rw [hs, step_nil, proper_concat_nil]
      exact ih
    · obtain ⟨n, hn⟩ := (after l).step_ok hs
      rw [proper_concat l hs]
      exact (ih.intern (step_answered hn)).1

/-- What was stored from a start on is there after any later calls. -/
theorem kept_after {l : List Signature} {s : Signature} {n : Nat}
    (h : ((after l).step s).1 = .ok n) (more : List Signature) :
    ((after (l ++ s :: more)).table.drop n).take s.length = s := by
  obtain ⟨-, hstart⟩ := (stores_after l).intern (step_answered h)
  have hs : s ≠ [] := (intern_eq_ok.mp (step_answered h)).1
  have hlater : proper (l ++ s :: more) = (proper l ++ [s]) ++ proper more := by
    rw [← proper_concat l hs, proper, proper, proper, ← List.filter_append, List.append_assoc]
    rfl
  obtain ⟨new, hnew⟩ := prefix_eraseDups (List.prefix_append (proper l ++ [s]) (proper more))
  have hthere := hstart.append new
  rw [hnew, ← hlater] at hthere
  rw [(stores_after (l ++ s :: more)).table]
  exact hthere.take_drop

/-! ## the whole -/

/-- What holds after the calls `l`, some of which may have failed. -/
structure Scans (l : List Signature) : Prop where
  table : (after l).table = (SignatureList.after l).table
  runs : (after l).runs = (SignatureList.after l).runs
  size : (after l).size = (SignatureList.after l).stored.length
  answers : ∀ s, ((after l).step s).1 = ((SignatureList.after l).step s).1
  refused : ∀ s e, ((after l).step s).1 = .error e ↔ s = [] ∧ e = .noReturnType
  /-- A call that fails changes nothing, and later calls do not see that it was made. -/
  traceless : ∀ more, after (l ++ [] :: more) = after (l ++ more)
  /-- The signature is found from the start on that the call has answered, then and later. -/
  kept : ∀ s n more, ((after l).step s).1 = .ok n →
    ((after (l ++ s :: more)).table.drop n).take s.length = s

/-- **After any calls the pool is the list that is searched from the front.** -/
theorem after_scans (l : List Signature) : Scans l where
  table := (alike_after l).table
  runs := (alike_after l).runs
  size := by
    rw [size, (alike_after l).runs, SignatureList.runs, List.length_map]
  answers s := ((alike_after l).step s).1
  refused s e := by
    constructor
    · intro h
      obtain ⟨rfl, -⟩ := step_refused h
      exact ⟨rfl, (Except.error.inj h).symm⟩
    · rintro ⟨rfl, rfl⟩
      rfl
  traceless more := by
    rw [after_append, after_append, List.foldl_cons, step_nil]
  kept _ _ more h := kept_after h more

/-- The first signature again inside the second one, which is stored apart from it. -/
example : let f : Descriptor := ⟨0, 0, .default, false⟩
    let g : Descriptor := ⟨1, 4, .default, false⟩
    (after [[f, g], [], [g, f, g], [f, g], [f]]).runs = [⟨0, 2⟩, ⟨2, 3⟩, ⟨5, 1⟩] := by decide

end SignaturePool
end OverloadTables
