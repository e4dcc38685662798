import OverloadTables.Proofs.Document.Dispatcher
import OverloadTables.Proofs.Signature.TypeScope
import OverloadTables.Proofs.Tables.Signatures
import OverloadTables.Proofs.Text.OneLine

/-!
# The module of built tables

* `Source.below t`         the lines below the fingerprint;
* `Source.lines_eq`        title, label and fingerprint stand above them;
* `Source.below_ok`        the tables of a catalog always have these lines, and each is one line,
                           whatever names, extensions and concrete types the catalog has;
* `Source.dispatcher_lookup`   the dispatcher of the module answers every name as the tables do.
-/

namespace OverloadTables.Source

open Script Text

/-! ## the parts -/

def title : String :=
  "# Builtin overload tables. Autogenerated by builtin_tablegen; do not edit."

def fingerprintLine (fingerprint : String) : String := "# catalog sha256: " ++ fingerprint

def imports : List String :=
  ["",
    "from __future__ import annotations",
    "",
    "from enum import IntEnum",
    "from typing import Any, NamedTuple, Tuple",
    "",
    "from builtin_tablegen.core.types_core import AddressSpace",
    ""]

/-- The lines below the fingerprint. -/
def below (t : Tables) : Except Failure (List String) :=
  return imports ++ enumeration t.bases ++ recordTypes ++ (← signatureTable t)
    ++ overloadTable t ++ (← dispatcher t.index) ++ projector t.bases

theorem lines_eq (t : Tables) : lines t = (below t).map fun rest =>
    title :: (labelLine t.label ++ fingerprintLine t.fingerprint :: rest) := by
  rw [lines, below]
  cases signatureTable t with
  | error e => rfl
  | ok table =>
    cases dispatcher t.index with
    | error e => rfl
    | ok dispatch =>
      have hheader : header t
          = title :: (labelLine t.label ++ fingerprintLine t.fingerprint :: imports) := rfl
      show Except.ok _ = Except.ok _
      rw [hheader]
      simp only [List.append_assoc, List.cons_append]

/-! ## one line each -/

/-- Every line of the list is one line. -/
def Lined (ls : List String) : Prop := ∀ l ∈ ls, OneLine l.toList

theorem lined_append {a b : List String} : Lined (a ++ b) ↔ Lined a ∧ Lined b :=
  List.forall_mem_append

theorem lined_cons {l : String} {ls : List String} :
    Lined (l :: ls) ↔ OneLine l.toList ∧ Lined ls :=
  List.forall_mem_cons

theorem lined_nil : Lined [] := fun _ h => absurd h List.not_mem_nil

theorem lined_imports : Lined imports := by
  simp only [imports, lined_cons, lined_nil, and_true]
  and_intros <;> exact oneLine_ofList (by decide)

theorem lined_recordTypes : Lined recordTypes := by
  simp only [recordTypes, lined_cons, lined_nil, and_true]
  and_intros <;> exact oneLine_ofList (by decide)

/-! ## base types -/

theorem member_injective : Function.Injective member := fun a b h => by
  have := congrArg String.toList h
  rw [member, member, String.toList_append, String.toList_append] at this
  exact String.toList_inj.mp (List.append_cancel_left this)

theorem isIdentifier_member {name : String} (h : isIdentifier name = true) :
    isIdentifier (member name) = true :=
  isIdentifier_append (by decide) h

section
variable {bases : List BaseType} (h : ∀ b ∈ bases, isIdentifier b.name = true)
include h

theorem oneLine_member {b : BaseType} (hb : b ∈ bases) : OneLine (member b.name).toList :=
  oneLine_of_identifier (isIdentifier_member (h b hb))

theorem lined_memberLines (i : Nat) {bs : List BaseType} (hbs : ∀ b ∈ bs, b ∈ bases) :
    Lined (memberLines i bs) := by
  induction bs generalizing i with
  | nil => exact lined_nil
  | cons b bs ih =>
    obtain ⟨hb, hbs⟩ := List.forall_mem_cons.mp hbs
    rw [memberLines, lined_cons]
    refine ⟨?_, ih (i + 1) hbs⟩
    simp only [oneLine_str, oneLine_member h hb, oneLine_nat, and_true]
    and_intros <;> exact oneLine_ofList (by decide)

theorem lined_enumeration : Lined (enumeration bases) := by
  rw [enumeration, lined_append]
  constructor
  · simp only [lined_cons, lined_nil, and_true]
    and_intros <;> exact oneLine_ofList (by decide)
  · split
    · exact lined_cons.mpr ⟨oneLine_ofList (by decide), lined_nil⟩
    · exact lined_memberLines h 0 fun b hb => hb

theorem lined_concreteChain (opens : Bool) {bs : List BaseType} (hbs : ∀ b ∈ bs, b ∈ bases) :
    Lined (concreteChain opens bs) := by
  induction bs generalizing opens with
  | nil => exact lined_nil
  | cons b bs ih =>
    obtain ⟨hb, hbs⟩ := List.forall_mem_cons.mp hbs
    rw [concreteChain]
    split
    · exact ih opens hbs
    · have hkeyword : OneLine (if opens then "if" else "elif").toList := by
        cases opens <;> exact oneLine_ofList (by decide)
      simp only [lined_cons, oneLine_str, hkeyword, oneLine_member h hb, oneLine_quote,
        ih false hbs, and_true]
      and_intros <;> exact oneLine_ofList (by decide)

theorem lined_projector : Lined (projector bases) := by
  rw [projector, lined_append, lined_append]
  refine ⟨⟨?_, lined_concreteChain h true fun b hb => hb⟩, ?_⟩
  all_goals
    simp only [lined_cons, lined_nil, and_true]
    and_intros <;> exact oneLine_ofList (by decide)

end

/-! ## the signature table -/

/-- The descriptor has the number of a base type. -/
def HasBase (bases : List BaseType) (d : Descriptor) : Prop :=
  ∃ (i : Nat) (b : BaseType), d.base = i ∧ bases[i]? = some b

/-- The row of a descriptor whose base has this name. -/
def descriptorText (name : String) (d : Descriptor) : String :=
  "\tSignatureType(TypeID." ++ member name ++ ", " ++ toString d.width
    ++ ", AddressSpace." ++ d.space.memberName ++ ", " ++ truth d.pointer ++ "),"

/-- The row of a descriptor among base types, of which it has one. -/
def descriptorRow (bases : List BaseType) (d : Descriptor) : String :=
  descriptorText ((baseName? bases d.base).getD "") d

/-- A run after its mark. -/
def runRows (t : Tables) (r : Run) : List String :=
  ("\t# " ++ toString r.start) :: (t.run r).map (descriptorRow t.bases)

theorem baseName?_of_getElem? {bases : List BaseType} {base : Int} {i : Nat} {b : BaseType}
    (hbase : base = i) (hb : bases[i]? = some b) : baseName? bases base = some b.name := by
  rw [baseName?, hbase, if_neg (by omega), Int.toNat_natCast, hb]
  rfl

theorem mem_of_mem_run {t : Tables} {r : Run} {d : Descriptor} (h : d ∈ t.run r) :
    d ∈ t.signatureTable :=
  List.mem_of_mem_drop (List.mem_of_mem_take h)

theorem signatureTable_eq {t : Tables} (hd : ∀ d ∈ t.signatureTable, HasBase t.bases d) :
    signatureTable t = .ok (["", "SIGNATURE_TABLE: Tuple[SignatureType, ...] = ("]
      ++ t.runs.flatMap (runRows t) ++ [")", ""]) := by
  have hrow : ∀ d ∈ t.signatureTable,
      descriptorLine t.bases d = .ok (descriptorRow t.bases d) := by
    intro d hmem
    obtain ⟨i, b, hi, hb⟩ := hd d hmem
    rw [descriptorLine, descriptorRow, baseName?_of_getElem? hi hb]
    rfl
  have hrun : ∀ r ∈ t.runs, runLines t r = .ok (runRows t r) := by
    intro r _
    have hrows : ∀ d ∈ t.run r, descriptorLine t.bases d = .ok (descriptorRow t.bases d) :=
      fun d hmem => hrow d (mem_of_mem_run hmem)
    rw [runLines, mapM_eq_map hrows]
    rfl
  rw [signatureTable, mapM_eq_map hrun]
  rfl

theorem lined_runRows {t : Tables} (h : ∀ b ∈ t.bases, isIdentifier b.name = true)
    (hd : ∀ d ∈ t.signatureTable, HasBase t.bases d) (r : Run) : Lined (runRows t r) := by
  rw [runRows, lined_cons]
  refine ⟨oneLine_str.mpr ⟨oneLine_ofList (by decide), oneLine_nat _⟩, fun l hl => ?_⟩
  obtain ⟨d, hmem, rfl⟩ := List.mem_map.mp hl
  obtain ⟨i, b, hi, hb⟩ := hd d (mem_of_mem_run hmem)
  have hspace : OneLine d.space.memberName.toList := by
    cases d.space <;> exact oneLine_ofList (by decide)
  have htruth : OneLine (truth d.pointer).toList := by
    cases d.pointer <;> exact oneLine_ofList (by decide)
  have hrow : descriptorRow t.bases d = descriptorText b.name d := by
    rw [descriptorRow, baseName?_of_getElem? hi hb]
    rfl
  rw [hrow]
  unfold descriptorText
  simp only [oneLine_str, oneLine_member h (List.mem_of_getElem? hb), oneLine_int, hspace, htruth,
    and_true]
  and_intros <;> exact oneLine_ofList (by decide)

theorem signatureTable_ok {t : Tables} (h : ∀ b ∈ t.bases, isIdentifier b.name = true)
    (hd : ∀ d ∈ t.signatureTable, HasBase t.bases d) :
    ∃ ls, signatureTable t = .ok ls ∧ Lined ls := by
  refine ⟨_, signatureTable_eq hd, ?_⟩
  simp only [lined_append, lined_cons, lined_nil, and_true]
  refine ⟨⟨⟨oneLine_ofList (by decide), oneLine_ofList (by decide)⟩, fun l hl => ?_⟩,
    oneLine_ofList (by decide), oneLine_ofList (by decide)⟩
  obtain ⟨r, -, hl⟩ := List.mem_flatMap.mp hl
  exact lined_runRows h hd r l hl

/-! ## the overload table -/

theorem oneLine_rowLine (r : Row) : OneLine (rowLine r).toList := by
  unfold rowLine
  simp only [oneLine_str, oneLine_nat, oneLine_int, oneLine_quote, and_true]
  and_intros <;> exact oneLine_ofList (by decide)

theorem lined_overloadTable {t : Tables} (h : ∀ b ∈ t.index.blocks, OneLine b.name.toList) :
    Lined (overloadTable t) := by
  have hblocks : Lined (t.index.blocks.flatMap (blockLines t)) := by
    intro l hl
    obtain ⟨b, hb, hl⟩ := List.mem_flatMap.mp hl
    rw [blockLines, List.mem_cons] at hl
    rcases hl with rfl | hl
    · exact oneLine_str.mpr ⟨oneLine_ofList (by decide), h b hb⟩
    · obtain ⟨r, -, rfl⟩ := List.mem_map.mp hl
      exact oneLine_rowLine r
  simp only [overloadTable, lined_append, lined_cons, lined_nil, hblocks, and_true]
  and_intros <;> exact oneLine_ofList (by decide)

/-! ## the dispatcher -/

theorem oneLine_answer (e : Extent) : OneLine (answer e).toList := by
  simp only [answer, oneLine_str, oneLine_int, and_true]
  and_intros <;> exact oneLine_ofList (by decide)

theorem oneLine_dispatchNames : OneLine dispatchNames.subject.toList ∧
    OneLine dispatchNames.length.toList ∧ OneLine dispatchNames.indent.toList := by
  and_intros <;> exact oneLine_ofList (by decide)

theorem dispatcher_lined {blocks : List Block} {ix : BlockIndex}
    (h : BlockIndex.ofBlocks blocks = .ok ix) : ∃ ls, dispatcher ix = .ok ls ∧ Lined ls := by
  obtain ⟨hsubject, hlength, hindent⟩ := oneLine_dispatchNames
  have hends : Lined opening ∧ Lined guard ∧ Lined finish := by
    simp only [opening, guard, finish, lined_cons, lined_nil, and_true]
    and_intros <;> exact oneLine_ofList (by decide)
  obtain ⟨hopening, hguard, hfinish⟩ := hends
  by_cases hne : ix.blocks = []
  · exact ⟨_, dispatcher_eq_ok (dispatchBody_empty hne), lined_append.mpr ⟨hopening, hfinish⟩⟩
  · refine ⟨_, dispatcher_eq_ok (dispatchBody_eq_ok h hne), ?_⟩
    rw [lined_append, lined_append, lined_append]
    refine ⟨hopening, ⟨hguard, fun l hl => ?_⟩, hfinish⟩
    obtain ⟨l', hl', rfl⟩ := List.mem_map.mp hl
    refine Dispatch.oneLine_line hsubject hlength hindent
      (Dispatch.linesOfLengths_bodies (dispatchCases_nodup h) (fun body => OneLine body.toList)
        true ?_ (fun n hn => Dispatch.ofLength_ne_nil hn) l' hl')
    intro k hk
    obtain ⟨b, -, rfl⟩ := List.mem_map.mp hk
    exact oneLine_answer b.extent

/-! ## the whole -/

section
variable {c : Catalog} {t : Tables} (g : Stages c t)
include g

theorem bases_identifiers : ∀ b ∈ t.bases, isIdentifier b.name = true := by
  intro b hb
  have hscope : b.map .text ∈ g.scope.bases := g.bases ▸ List.mem_map_of_mem hb
  obtain ⟨o, ho, hbase⟩ := List.mem_map.mp hscope
  have hname := (TypeScope.ofDeclared_sound g.scope_eq).identifiers o ho
  rwa [hbase] at hname

theorem bases_nodup : (t.bases.map (·.name)).Nodup := by
  have hscope := (TypeScope.ofDeclared_reflects g.scope_eq).names_nodup
  rw [g.bases, List.map_map] at hscope
  have htexts : ((t.bases.map (·.name)).map LooseText.text).Nodup := by
    rw [List.map_map]
    exact hscope
  exact htexts.of_map

theorem signatureTable_bases : ∀ d ∈ t.signatureTable, HasBase t.bases d := by
  intro d hd
  rw [g.table_flatten, List.mem_flatten] at hd
  obtain ⟨s, hs, hd⟩ := hd
  obtain ⟨o, -, rfl⟩ := List.mem_map.mp (List.mem_eraseDups.mp hs)
  obtain ⟨key, -, hkey⟩ := List.mem_filterMap.mp hd
  obtain ⟨i, b, hi, hb⟩ := (TypeScope.ofDeclared_sound g.scope_eq).descriptor hkey
  rw [g.bases, List.getElem?_map] at hb
  obtain ⟨b', hb', -⟩ := Option.map_eq_some_iff.mp hb
  exact ⟨i, b', hi, hb'⟩

theorem names_oneLine : ∀ b ∈ t.index.blocks, OneLine b.name.toList := by
  intro b hb
  have hname : (b.name : LooseText) ∈ c.content.names := by
    rw [← g.blocks_names]
    exact List.mem_map.mpr ⟨b, hb, rfl⟩
  obtain ⟨o, ho, e⟩ := List.mem_map.mp (List.mem_eraseDups.mp hname)
  have hprintable := g.names_printable o ho
  rw [e] at hprintable
  exact oneLine_of_printable hprintable

/-- **The lines below the fingerprint are there, and each is one line.** -/
theorem below_ok : ∃ rest, below t = .ok rest ∧ Lined rest := by
  have hbases := bases_identifiers g
  obtain ⟨table, htable, htlined⟩ := signatureTable_ok hbases (signatureTable_bases g)
  obtain ⟨dispatch, hdispatch, hdlined⟩ := dispatcher_lined g.index_blocks
  refine ⟨_, by rw [below, htable, hdispatch]; rfl, ?_⟩
  simp only [lined_append]
  exact ⟨⟨⟨⟨⟨⟨lined_imports, lined_enumeration hbases⟩, lined_recordTypes⟩, htlined⟩,
    lined_overloadTable (names_oneLine g)⟩, hdlined⟩, lined_projector hbases⟩

end

/-! ## the dispatcher in the module -/

/-- **The dispatcher of the tables of a catalog answers every name as the tables do.** -/
theorem dispatcher_lookup {c : Catalog} {t : Tables} (h : Tables.build c = .ok t) :
    ∃ above ls, dispatcher t.index = .ok ls ∧
      lines t = .ok (above ++ ls ++ projector t.bases) ∧
      (∀ s, call ls s = .ok (some (t.index.lookup s))) ∧
      (c.overloads = [] → ∀ s, call ls s = .ok (some ⟨0, 0⟩)) := by
  obtain ⟨g⟩ := Tables.build_eq_ok.mp h
  obtain ⟨ls, hls, hcall⟩ := dispatcher_of_blocks g.index_blocks
  obtain ⟨table, htable, -⟩ := signatureTable_ok (bases_identifiers g) (signatureTable_bases g)
  refine ⟨_, ls, hls, by rw [lines, htable, hls]; rfl, hcall, fun hnone s => ?_⟩
  have hnamed : c.content.named s = [] := by
    rw [Content.named, Catalog.content, hnone]
    rfl
  rw [hcall s, g.lookup_unnamed hnamed]
  rfl

/-- Names that share lengths, a first character and a run, and that need escapes. -/
def similar : Catalog where
  types := [⟨⟨"f", "float", 0, .default, false, some "Float"⟩, .root none⟩]
  overloads := ["max", "min", "maxmag", "minmag", "it's", "\"q\"\\", "é→𝄞", "max"].map fun name =>
    ⟨⟨name, ["f"], some "CL10", ""⟩, .root none⟩
  versions := [⟨⟨"CL10", 100⟩, .root none⟩]
  label := none
  file := none

set_option maxRecDepth 8000 in
theorem dispatcher_lookup_similar : ∃ t ls, Tables.build similar = .ok t ∧
    dispatcher t.index = .ok ls ∧ call ls "max" = .ok (some ⟨1, 2⟩) ∧
    call ls "it's" = .ok (some ⟨6, 1⟩) ∧ call ls "maxma" = .ok (some ⟨0, 0⟩) ∧
    ∀ s, call ls s = .ok (some (t.index.lookup s)) := by
  obtain ⟨t, h, hmax, hits, hmaxma⟩ : ∃ t, Tables.build similar = .ok t ∧
      t.index.lookup "max" = ⟨1, 2⟩ ∧ t.index.lookup "it's" = ⟨6, 1⟩ ∧
      t.index.lookup "maxma" = ⟨0, 0⟩ := ⟨_, rfl, rfl, rfl, rfl⟩
  obtain ⟨-, ls, hls, -, hcall, -⟩ := dispatcher_lookup h
  refine ⟨t, ls, h, hls, ?_, ?_, ?_, hcall⟩
  · rw [hcall, hmax]
  · rw [hcall, hits]
  · rw [hcall, hmaxma]

end OverloadTables.Source
