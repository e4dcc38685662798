import OverloadTables.Proofs.Document.Source
import OverloadTables.Proofs.Script.Projector
import OverloadTables.Proofs.Signature.Declared

/-!
# The projector of the module asks what `project` asks

* `Source.concretePairs`   the base types with concrete types;
* `Source.clauseLines`     the chain over them, one clause a pair;
* `program?_projector`     the lines of a projector read as a program;
* `Source.projector_project`   the projector of built tables, run for any descriptor on any context,
                           asks what `project` asks and answers what it answers.
-/

namespace OverloadTables.Source

open Script

/-! ## the chain over concrete types -/

def concretePairs (bases : List BaseType) : List (String × String) :=
  bases.filterMap fun b => b.concrete.map fun concrete => (member b.name, concrete)

/-- The clauses of a chain: the first one opens it, the others go on with it. -/
def clauseLines : Bool → List (String × String) → List String
  | _, [] => []
  | opens, (name, concrete) :: rest =>
    ("\t" ++ (if opens then "if" else "elif") ++ " ty.type_id == TypeID." ++ name ++ ":")
      :: ("\t\trt = ctx.ensure_builtin(" ++ Text.quote concrete ++ ")") :: clauseLines false rest

theorem concreteChain_eq (opens : Bool) (bases : List BaseType) :
    concreteChain opens bases = clauseLines opens (concretePairs bases) := by
  induction bases generalizing opens with
  | nil => rfl
  | cons b bases ih =>
    rw [concreteChain, concretePairs, List.filterMap_cons]
    cases b.concrete with
    | none => exact ih opens
    | some concrete =>
      show _ = clauseLines opens ((member b.name, concrete) :: concretePairs bases)
      rw [clauseLines, ← ih false]

theorem concreteOf_eq_some {bases : List BaseType} {base : Int} {concrete : String} :
    concreteOf (bases.map (·.concrete)) base = some concrete ↔
      ∃ (i : Nat) (b : BaseType), base = i ∧ bases[i]? = some b ∧ b.concrete = some concrete := by
  rw [concreteOf]
  by_cases hneg : base < 0
  · rw [if_pos hneg]
    constructor
    · intro h
      cases h
    · rintro ⟨i, b, rfl, -⟩
      omega
  · obtain ⟨i, rfl⟩ := Int.eq_ofNat_of_zero_le (Int.not_lt.mp hneg)
    rw [if_neg hneg, Int.toNat_natCast, List.getElem?_map, Option.join_eq_some_iff,
      Option.map_eq_some_iff]
    constructor
    · rintro ⟨b, hb, hc⟩
      exact ⟨i, b, rfl, hb, hc⟩
    · rintro ⟨j, b, hij, hb, hc⟩
      obtain rfl : i = j := by omega
      exact ⟨b, hb, hc⟩

section
variable {bases : List BaseType} (hnodup : (bases.map (·.name)).Nodup)
include hnodup

/-- Where the enumeration has each member once, a member is found at its position. -/
theorem idxOf_member {i : Nat} {b : BaseType} (hb : bases[i]? = some b) :
    (bases.map fun b => member b.name).idxOf (member b.name) = i := by
  have hmembers : (bases.map fun b => member b.name).Nodup := by
    have := hnodup.map member_injective
    rwa [List.map_map] at this
  obtain ⟨hi, rfl⟩ := List.getElem?_eq_some_iff.mp hb
  have := hmembers.idxOf_getElem i (by simpa using hi)
  rwa [List.getElem_map] at this

theorem concreteOf_of_mem_pairs {base : Int} {p : String × String} (hp : p ∈ concretePairs bases)
    (hbase : base = (bases.map fun b => member b.name).idxOf p.1) :
    concreteOf (bases.map (·.concrete)) base = some p.2 := by
  obtain ⟨b, hb, hpb⟩ := List.mem_filterMap.mp hp
  obtain ⟨concrete, hc, rfl⟩ := Option.map_eq_some_iff.mp hpb
  obtain ⟨i, hi⟩ := List.mem_iff_getElem?.mp hb
  exact concreteOf_eq_some.mpr
    ⟨i, b, hbase.trans (congrArg Nat.cast (idxOf_member hnodup hi)), hi, hc⟩

/-- The pair of a base with a concrete type is found by the number of the base. -/
theorem find?_concretePairs (base : Int) :
    ((concretePairs bases).find? fun p =>
        base = (bases.map fun b => member b.name).idxOf p.1).map (·.2)
      = concreteOf (bases.map (·.concrete)) base := by
  cases hf : (concretePairs bases).find? fun p =>
      base = (bases.map fun b => member b.name).idxOf p.1 with
  | some p =>
    have hbase := List.find?_some hf
    rw [decide_eq_true_iff] at hbase
    exact (concreteOf_of_mem_pairs hnodup (List.mem_of_find?_eq_some hf) hbase).symm
  | none =>
    -- a concrete type of the base would make a pair that is found
    cases hc : concreteOf (bases.map (·.concrete)) base with
    | none => rfl
    | some concrete =>
      obtain ⟨i, b, rfl, hi, hb⟩ := concreteOf_eq_some.mp hc
      have hp : (member b.name, concrete) ∈ concretePairs bases :=
        List.mem_filterMap.mpr ⟨b, List.mem_of_getElem? hi, by rw [hb]; rfl⟩
      have := List.find?_eq_none.mp hf _ hp
      rw [idxOf_member hnodup hi] at this
      simp at this

end

/-! ## reading -/

/-- The lines of a chain as they are read. -/
def ofPairs : Bool → List (String × String) → List (Line Projector.Test Projector.Action)
  | _, [] => []
  | opens, (name, concrete) :: rest =>
    ⟨1, if opens then .opens (.base name) else .continues (.base name)⟩
      :: ⟨2, .does (.builtin concrete)⟩ :: ofPairs false rest

theorem shows_clause (opens : Bool) {name : String} (h : Text.isIdentifier name = true) :
    Projector.reader.Shows
      ("\t" ++ (if opens then "if" else "elif") ++ " ty.type_id == TypeID." ++ name ++ ":")
      ⟨1, if opens then .opens (.base name) else .continues (.base name)⟩ := by
  have htest := Projector.test?_base h
  have htab : "\t".toList = List.replicate 1 '\t' := rfl
  cases opens with
  | true =>
    have htext : "\t" ++ "if" ++ " ty.type_id == TypeID." ++ name ++ ":"
        = "\t" ++ "if " ++ ("ty.type_id == TypeID." ++ name) ++ ":" := by
      simp only [← String.append_assoc, String.reduceAppend]
    exact htext ▸ Projector.reader.shows_opens htest htab
  | false =>
    have htext : "\t" ++ "elif" ++ " ty.type_id == TypeID." ++ name ++ ":"
        = "\t" ++ "elif " ++ ("ty.type_id == TypeID." ++ name) ++ ":" := by
      simp only [← String.append_assoc, String.reduceAppend]
    exact htext ▸ Projector.reader.shows_continues htest htab

theorem shows_builtin (concrete : String) :
    Projector.reader.Shows ("\t\trt = ctx.ensure_builtin(" ++ Text.quote concrete ++ ")")
      ⟨2, .does (.builtin concrete)⟩ := by
  have htext : "\t\trt = ctx.ensure_builtin(" ++ Text.quote concrete ++ ")"
      = "\t\t" ++ ("rt = ctx.ensure_builtin(" ++ (Text.quote concrete ++ ")")) := by
    simp only [← String.append_assoc, String.reduceAppend]
  rw [htext]
  exact (Projector.does_builtin concrete).shows rfl

/-- The lines of a chain are read, whatever stands below it. -/
theorem lines?_clauseLines (opens : Bool) {pairs : List (String × String)}
    (h : ∀ p ∈ pairs, Text.isIdentifier p.1 = true) {below : List String}
    {last : List (Line Projector.Test Projector.Action)}
    (hbelow : (below.filter fun l => !isBlank l).mapM Projector.reader.line? = some last) :
    ((clauseLines opens pairs ++ below).filter fun l => !isBlank l).mapM Projector.reader.line?
      = some (ofPairs opens pairs ++ last) := by
  induction pairs generalizing opens with
  | nil => exact hbelow
  | cons p pairs ih =>
    obtain ⟨name, concrete⟩ := p
    obtain ⟨hname, hpairs⟩ := List.forall_mem_cons.mp h
    exact (shows_clause opens hname).cons ((shows_builtin concrete).cons (ih false hpairs))

/-- The clauses that go on with a chain. -/
def moreClauses : List (String × String) → Option (Code Projector.Test Projector.Action)
  | [] => none
  | pairs => some (Projector.chain pairs .pass)

theorem moreClauses_getD (pairs : List (String × String)) :
    (moreClauses pairs).getD .pass = Projector.chain pairs .pass := by
  cases pairs <;> rfl

section
variable (next : Code Projector.Test Projector.Action)

theorem readOnto_more (pairs : List (String × String)) :
    readOnto (ofPairs false pairs) [⟨1, none, next⟩] = some [⟨1, moreClauses pairs, next⟩] := by
  induction pairs with
  | nil => rfl
  | cons p pairs ih =>
    have := readOnto_continues (reads_statement 2 (Projector.Action.builtin p.2)) (.base p.1) ih
      (atDepth_cons ⟨1, moreClauses pairs, next⟩ [])
    rw [moreClauses_getD] at this
    exact this

theorem readOnto_pairs (pairs : List (String × String)) :
    readOnto (ofPairs true pairs) [⟨1, none, next⟩]
      = some [⟨1, none, Projector.chain pairs next⟩] := by
  cases pairs with
  | nil => rfl
  | cons p pairs =>
    have := readOnto_opens (reads_statement 2 (Projector.Action.builtin p.2)) (.base p.1)
      (readOnto_more next pairs) (atDepth_cons ⟨1, moreClauses pairs, next⟩ [])
    rw [moreClauses_getD] at this
    exact this

end

/-- What stands below the chain. -/
def projectorEnd : List String :=
  ["",
    "\tif ty.vector_width > 0:",
    "\t\trt = ctx.ensure_ext_vector(rt, ty.vector_width)",
    "",
    "\tif ty.is_pointer:",
    "\t\trt = ctx.ensure_addr_space_qual(rt, ty.addr_space)",
    "\t\trt = ctx.ensure_pointer(rt)",
    "",
    "\treturn rt"]

/-- The lines of `projectorEnd` as they are read. -/
def endLines : List (Line Projector.Test Projector.Action) :=
  [⟨1, .opens .wide⟩, ⟨2, .does .vector⟩, ⟨1, .opens .pointer⟩, ⟨2, .does .qualify⟩,
    ⟨2, .does .pointer⟩, ⟨1, .does .answer⟩]

theorem lines?_projectorEnd :
    (projectorEnd.filter fun l => !isBlank l).mapM Projector.reader.line? = some endLines := by
  have htab : "\t".toList = List.replicate 1 '\t' := rfl
  have htabs : "\t\t".toList = List.replicate 2 '\t' := rfl
  have hwide := Projector.reader.shows_opens Projector.test?_wide htab
  have hvector := Projector.does_vector.shows htabs
  have hpointer := Projector.reader.shows_opens Projector.test?_pointer htab
  have hqualify := Projector.does_qualify.shows htabs
  have hasked := Projector.does_pointer.shows htabs
  have hanswer := Projector.does_answer.shows htab
  simp only [String.reduceAppend] at hwide hvector hpointer hqualify hasked hanswer
  exact Projector.reader.shown_blank (hwide.cons (hvector.cons (Projector.reader.shown_blank
    (hpointer.cons (hqualify.cons (hasked.cons (Projector.reader.shown_blank
      (hanswer.cons rfl))))))))

theorem does_note : Projector.reader.Does
    "\"\"\"Return the semantic type `ctx` associates with a SignatureType entry.\"\"\"" .note := by
  refine .of_head ?_ (by rw [String.toList_ofList]; rfl) (by decide)
  have hstatement : Projector.reader.statement = Projector.action? := rfl
  rw [hstatement, Projector.action?_text, if_neg (by simp), if_neg (by simp), if_neg (by simp),
    if_neg (by simp), if_neg (by simp), String.toList_ofList]
  rfl

theorem program?_head (body : List String) :
    Projector.program? ("" :: Projector.head :: body) = Projector.reader.program? body := by
  have hblank : ("" :: Projector.head :: body).dropWhile isBlank = Projector.head :: body := rfl
  rw [Projector.program?, hblank]
  exact if_pos rfl

/-- **The lines of a projector are its program.** -/
theorem program?_projector {bases : List BaseType}
    (h : ∀ p ∈ concretePairs bases, Text.isIdentifier p.1 = true) :
    Projector.program? (projector bases) = some (Projector.code (concretePairs bases)) := by
  have htab : "\t".toList = List.replicate 1 '\t' := rfl
  have hhead : Projector.program? (projector bases) = Projector.reader.program?
      (("\t" ++ "\"\"\"Return the semantic type `ctx` associates with a SignatureType entry.\"\"\"")
        :: ("\t" ++ "rt = ctx.ensure_void()") :: (concreteChain true bases ++ projectorEnd)) := by
    simp only [String.reduceAppend]
    rw [projector, List.append_assoc]
    exact program?_head _
  have hread := (does_note.shows htab).cons
    ((Projector.does_void.shows htab).cons (lines?_clauseLines true h lines?_projectorEnd))
  have hend : readOnto endLines [] = some [⟨1, none, Projector.tail⟩] := rfl
  have hchain : readOnto (ofPairs true (concretePairs bases) ++ endLines) []
      = some [⟨1, none, Projector.chain (concretePairs bases) Projector.tail⟩] := by
    rw [readOnto_append, hend, Option.bind_some, readOnto_pairs]
  rw [hhead, Reader.program?, concreteChain_eq, hread, Option.bind_some, block?, readOnto, readOnto,
    hchain]
  rfl

/-! ## the projector in the module -/

/-- **The projector of the tables of a catalog asks a context what `project` asks**, and answers
what it answers, for every descriptor and in every kind of context.  Members of the enumeration are
known by their positions, and the chain has a clause for each base type with a concrete type. -/
theorem projector_project {c : Catalog} {t : Tables} (h : Tables.build c = .ok t) :
    (∃ above, lines t = .ok (above ++ projector t.bases)) ∧
      concreteChain true t.bases = clauseLines true (concretePairs t.bases) ∧
      ∀ {m : Type → Type} [Monad m] [LawfulMonad m] {τ : Type} (supply : TypeSupplier m τ)
        (d : Descriptor),
        Projector.call (t.bases.map fun b => member b.name) supply d (projector t.bases)
          = (fun a => .ok (some a)) <$> project supply t.concretes d := by
  obtain ⟨g⟩ := Tables.build_eq_ok.mp h
  have hnames := bases_nodup g
  have hpairs : ∀ p ∈ concretePairs t.bases, ∃ b ∈ t.bases, p.1 = member b.name := by
    intro p hp
    obtain ⟨b, hb, hpb⟩ := List.mem_filterMap.mp hp
    obtain ⟨concrete, -, rfl⟩ := Option.map_eq_some_iff.mp hpb
    exact ⟨b, hb, rfl⟩
  have hprogram : Projector.program? (projector t.bases)
      = some (Projector.code (concretePairs t.bases)) := by
    refine program?_projector fun p hp => ?_
    obtain ⟨b, hb, hpb⟩ := hpairs p hp
    rw [hpb]
    exact isIdentifier_member (bases_identifiers g b hb)
  obtain ⟨table, htable, -⟩ := signatureTable_ok (bases_identifiers g) (signatureTable_bases g)
  obtain ⟨ls, hls, -⟩ := dispatcher_of_blocks g.index_blocks
  refine ⟨⟨_, by rw [lines, htable, hls]; rfl⟩, concreteChain_eq true t.bases, ?_⟩
  intro m _ _ τ supply d
  rw [Projector.call, hprogram]
  refine Projector.run_code (fun p hp => ?_) (find?_concretePairs hnames d.base)
  obtain ⟨b, hb, hpb⟩ := hpairs p hp
  exact List.mem_map.mpr ⟨b, hb, hpb.symm⟩

/-- A context that records what it is asked, and answers with the number of the question. -/
def recorder : TypeSupplier (StateM (List TypeTable.Request)) Int :=
  TypeTable.supplierOf fun r asked => (asked.length, asked ++ [r])

/-- Abstract base types first, last and side by side. -/
def gaps : Catalog where
  types := [("any", none), ("half", some "Half"), ("gen", none), ("sgen", none),
    ("it", some "it's"), ("end", none)].map fun b =>
      ⟨⟨b.1, b.1, 0, .default, false, b.2⟩, .root none⟩
  overloads := [⟨⟨"max", ["gen", "half"], some "CL10", ""⟩, .root none⟩]
  versions := [⟨⟨"CL10", 100⟩, .root none⟩]
  label := none
  file := none

set_option maxRecDepth 8000 in
theorem projector_project_gaps : ∃ t, Tables.build gaps = .ok t ∧
    (Projector.call (t.bases.map fun b => member b.name) recorder ⟨4, 8, .openclGlobal, true⟩
        (projector t.bases)).run []
      = (.ok (some 4), [.void, .builtin "it's", .vector 1 8, .qualify 2 .openclGlobal,
        .pointer 3]) ∧
    (Projector.call (t.bases.map fun b => member b.name) recorder ⟨2, 0, .default, false⟩
        (projector t.bases)).run [] = (.ok (some 0), [.void]) := by
  obtain ⟨t, h, hconcretes⟩ : ∃ t, Tables.build gaps = .ok t ∧
      t.concretes = [none, some "Half", none, none, some "it's", none] := ⟨_, rfl, rfl⟩
  obtain ⟨-, -, hcall⟩ := projector_project h
  refine ⟨t, h, ?_, ?_⟩
  · rw [hcall, hconcretes]
    rfl
  · rw [hcall, hconcretes]
    rfl

end OverloadTables.Source
