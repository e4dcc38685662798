import OverloadTables.Proofs.Except
import OverloadTables.Proofs.Script.Projector
import OverloadTables.Proofs.Script.Tables
import Mathlib.Data.List.Nodup

/-!
# Members by name

Whoever runs a module compares names by a normal form, so that names with different spellings may
be one name.  An enumeration takes its members in order and does not take a name that it has.

* `Script.Normalisation`   a normal form that leaves ASCII as it is;
* `Normalisation.define`   the enumeration of some members;
* `Normalisation.denotes`  the number that a name stands for in an enumeration;
* `define_eq_ok`           there is an enumeration exactly if no two members have one normal form;
* `denotes_of_mem`         and then each member stands for its own number;
* `Script.mentions?`       the members of a module, and the names in its rows and its branches.
-/

namespace OverloadTables.Script

/-! ## normal forms -/

/-- A normal form of names. -/
structure Normalisation where
  form : String → String
  /-- Names in ASCII stay as they are. -/
  ascii : ∀ s : String, (∀ c ∈ s.toList, c.toNat < 128) → form s = s

namespace Normalisation

variable (norm : Normalisation)

/-- One member more, or the name that is there. -/
def assign (taken : List (String × Nat)) (p : String × Nat) :
    Except String (List (String × Nat)) :=
  if norm.form p.1 ∈ taken.map (·.1) then .error (norm.form p.1)
  else .ok (taken ++ [(norm.form p.1, p.2)])

/-- The enumeration of members, or the first name that is there twice. -/
def define (members : List (String × Nat)) : Except String (List (String × Nat)) :=
  members.foldlM norm.assign []

/-- The number that a name stands for. -/
def denotes (taken : List (String × Nat)) (name : String) : Option Nat :=
  taken.lookup (norm.form name)

/-- The members under their normal forms. -/
def formed (members : List (String × Nat)) : List (String × Nat) :=
  members.map fun p => (norm.form p.1, p.2)

theorem formed_names (members : List (String × Nat)) :
    (norm.formed members).map (·.1) = members.map fun p => norm.form p.1 := by
  rw [formed, List.map_map]
  rfl

variable {norm}

theorem assign_eq_ok {taken taken' : List (String × Nat)} {p : String × Nat} :
    norm.assign taken p = .ok taken' ↔
      norm.form p.1 ∉ taken.map (·.1) ∧ taken' = taken ++ [(norm.form p.1, p.2)] := by
  rw [assign]
  split
  · next h => exact iff_of_false nofun fun h' => h'.1 h
  · next h => exact ⟨fun e => ⟨h, (Except.ok.inj e).symm⟩, fun e => congrArg Except.ok e.2.symm⟩

theorem assign_eq_error {taken : List (String × Nat)} {p : String × Nat} {name : String}
    (h : norm.assign taken p = .error name) :
    norm.form p.1 ∈ taken.map (·.1) ∧ name = norm.form p.1 := by
  rw [assign] at h
  split at h
  · next hmem => exact ⟨hmem, (Except.error.inj h).symm⟩
  · cases h

/-- What is taken in are the members under their normal forms, each once. -/
theorem define_sound {members taken : List (String × Nat)} (h : norm.define members = .ok taken) :
    (members.map fun p => norm.form p.1).Nodup ∧ taken = norm.formed members := by
  refine foldlM_invariant
    (P := fun done taken =>
      (done.map fun p => norm.form p.1).Nodup ∧ taken = norm.formed done)
    ?_ [] ⟨List.nodup_nil, rfl⟩ h
  rintro done taken p taken' ⟨hnodup, rfl⟩ hassign
  obtain ⟨hfresh, rfl⟩ := assign_eq_ok.mp hassign
  rw [formed_names] at hfresh
  constructor
  · rw [List.map_append, List.map_singleton, ← List.concat_eq_append]
    exact List.Nodup.concat hfresh hnodup
  · rw [formed, formed, List.map_append]
    rfl

/-- A name that is there twice is the normal form of two members, one after the other. -/
theorem define_eq_error {members : List (String × Nat)} {name : String}
    (h : norm.define members = .error name) : ∃ above p between q below,
      members = above ++ p :: between ++ q :: below ∧ norm.form p.1 = name ∧
      norm.form q.1 = name := by
  obtain ⟨done, q, below, taken, rfl, hdone, hq⟩ := foldlM_eq_error h
  obtain ⟨-, rfl⟩ := define_sound hdone
  obtain ⟨hmem, rfl⟩ := assign_eq_error hq
  rw [formed_names] at hmem
  obtain ⟨p, hp, hform⟩ := List.mem_map.mp hmem
  obtain ⟨above, between, rfl⟩ := List.append_of_mem hp
  exact ⟨above, p, between, q, below, rfl, hform, rfl⟩

/-- **There is an enumeration exactly if no two members have one normal form**, and it has the
members under these. -/
theorem define_eq_ok {members taken : List (String × Nat)} : norm.define members = .ok taken ↔
    (members.map fun p => norm.form p.1).Nodup ∧ taken = norm.formed members := by
  refine ⟨define_sound, ?_⟩
  rintro ⟨hnodup, rfl⟩
  cases h : norm.define members with
  | ok taken => rw [(define_sound h).2]
  | error name =>
    obtain ⟨above, p, between, q, below, rfl, hp, hq⟩ := define_eq_error h
    rw [List.map_append, List.nodup_append] at hnodup
    have hfirst : norm.form p.1 ∈ (above ++ p :: between).map fun p => norm.form p.1 :=
      List.mem_map_of_mem (List.mem_append_right above List.mem_cons_self)
    have hsecond : norm.form q.1 ∈ (q :: below).map fun p => norm.form p.1 :=
      List.mem_map_of_mem List.mem_cons_self
    exact absurd (hp.trans hq.symm) (hnodup.2.2 _ hfirst _ hsecond)

theorem define_ascii {members : List (String × Nat)} (hnodup : (members.map (·.1)).Nodup)
    (h : ∀ p ∈ members, ∀ c ∈ p.1.toList, c.toNat < 128) :
    norm.define members = .ok (norm.formed members) := by
  have hsame : (members.map fun p => norm.form p.1) = members.map (·.1) :=
    List.map_congr_left fun p hp => norm.ascii p.1 (h p hp)
  exact define_eq_ok.mpr ⟨hsame ▸ hnodup, rfl⟩

/-- A member stands for its own number. -/
theorem denotes_of_mem {members taken : List (String × Nat)} (h : norm.define members = .ok taken)
    {p : String × Nat} (hp : p ∈ members) : norm.denotes taken p.1 = some p.2 := by
  obtain ⟨hnodup, rfl⟩ := define_eq_ok.mp h
  obtain ⟨above, below, rfl⟩ := List.append_of_mem hp
  rw [List.map_append, List.nodup_append] at hnodup
  rw [denotes, List.lookup_eq_some_iff]
  refine ⟨norm.formed above, norm.formed below, ?_, fun q hq => ?_⟩
  · rw [formed, List.map_append]
    rfl
  · obtain ⟨q', hq', rfl⟩ := List.mem_map.mp hq
    have hne := hnodup.2.2 _ (List.mem_map_of_mem hq') _ (List.mem_map_of_mem List.mem_cons_self)
    exact bne_iff_ne.mpr (Ne.symm hne)

end Normalisation

/-! ## names in a module -/

/-- The tests of a program with their blocks, in order. -/
def Code.clauses {τ σ : Type} : Code τ σ → List (τ × Code τ σ)
  | .pass => []
  | .step _ next => next.clauses
  | .fork test yes no next => (test, yes) :: (yes.clauses ++ no.clauses ++ next.clauses)

namespace Projector

/-- The names that the tests of a projector ask for, with what is done under them. -/
def branches (code : Code Test Action) : List (String × Code Test Action) :=
  code.clauses.filterMap fun p =>
    match p.1 with
    | .base name => some (name, p.2)
    | _ => none

theorem branches_chain (pairs : List (String × String)) (next : Code Test Action) :
    branches (chain pairs next)
      = pairs.map (fun p => (p.1, .step (.builtin p.2) .pass)) ++ branches next := by
  induction pairs generalizing next with
  | nil => rfl
  | cons p pairs ih =>
    have hrest := ih .pass
    rw [branches] at hrest ⊢
    rw [chain, Code.clauses, List.filterMap_cons, List.filterMap_append, List.filterMap_append,
      hrest]
    simp only [branches, Code.clauses, List.filterMap_nil, List.append_nil, List.nil_append,
      List.map_cons, List.cons_append]

theorem branches_code (pairs : List (String × String)) : branches (code pairs)
    = pairs.map fun p => (p.1, .step (.builtin p.2) .pass) := by
  have htail : branches tail = [] := rfl
  show branches (chain pairs tail) = _
  rw [branches_chain, htail, List.append_nil]

end Projector

/-- What a module says of its members: those of the enumeration with their numbers, the names in
the rows of the signature table, and the names in the branches of the projector. -/
structure Mentions where
  members : List (String × Nat)
  rows : List String
  branches : List (String × Code Projector.Test Projector.Action)

def rowName? (cs : List Char) : Option String :=
  (skip "\tSignatureType(TypeID.".toList cs).map fun cs => String.ofList (upTo ',' cs).1

/-- Every line of the enumeration must be a member, every line of the signature table a mark or a
row, and the projector must be a program. -/
def mentions? (ls : List String) : Option Mentions := do
  let members ← (bodyOf? enumerationHead ls).bind members?
  let groups ← (bodyOf? signatureHead ls).bind (table? (item? offset? rowName?))
  let code ← Projector.program? (ls.dropWhile (· ≠ Projector.head))
  some ⟨members, groups.flatMap (·.2), Projector.branches code⟩

end OverloadTables.Script
