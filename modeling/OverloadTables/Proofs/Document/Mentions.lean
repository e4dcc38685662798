import OverloadTables.Proofs.Document.Tables
import OverloadTables.Proofs.Script.Mentions

/-!
# Members told apart by their normal forms

The names of base types are told apart by their characters, and what runs the module tells the
members apart by normal forms.

* `Source.mentionsOf t`        the members of the module of tables, and where it names them;
* `Source.mentions?_lines`     they are read from its lines;
* `Source.mentions_denote`     the enumeration can be made exactly if no two members have one normal
                               form, and then each row and each branch names its own base type;
* `Source.ligatures`           a normal form, which takes ligatures apart.
-/

namespace OverloadTables.Source

open Script

/-! ## what the module mentions -/

/-- The name in the row of a descriptor. -/
def rowName (bases : List BaseType) (d : Descriptor) : String :=
  member ((baseName? bases d.base).getD "")

def mentionsOf (t : Tables) : Mentions where
  members := t.bases.zipIdx.map fun p => (member p.1.name, p.2)
  rows := t.signatureTable.map (rowName t.bases)
  branches := (concretePairs t.bases).map fun p => (p.1, .step (.builtin p.2) .pass)

theorem item?_descriptorText {name : String} (h : Text.isIdentifier (member name) = true)
    (d : Descriptor) :
    item? offset? rowName? (descriptorText name d) = some (.row (member name)) := by
  have htext : (descriptorText name d).toList = "\tSignatureType(TypeID.".toList
      ++ ((member name).toList ++ ',' :: (" ".toList ++ ((toString d.width).toList
      ++ (", AddressSpace.".toList ++ (d.space.memberName.toList ++ (", ".toList
      ++ ((truth d.pointer).toList ++ "),".toList))))))) := by
    unfold descriptorText
    simp only [String.toList_append, List.append_assoc]
    rfl
  rw [item?, htext]
  show (rowName? _).map _ = _
  rw [rowName?, skip_append, Option.map_some, upTo_append (Text.identifier_notMem h rfl),
    String.ofList_toList]
  rfl

theorem table?_rowNames {t : Tables} (h : ∀ b ∈ t.bases, Text.isIdentifier b.name = true)
    (hd : ∀ d ∈ t.signatureTable, HasBase t.bases d) :
    table? (item? offset? rowName?) (t.runs.flatMap (runRows t))
      = some (t.runs.map fun r => (r.start, (t.run r).map (rowName t.bases))) := by
  refine table?_flatMap (fun r _ => item?_offset rowName? r.start) fun r _ d hmem => ?_
  obtain ⟨i, b, hi, hb⟩ := hd d (mem_of_mem_run hmem)
  rw [descriptorRow, rowName, baseName?_of_getElem? hi hb]
  exact item?_descriptorText (isIdentifier_member (h b (List.mem_of_getElem? hb))) d

theorem program?_bases {bases : List BaseType}
    (h : ∀ b ∈ bases, Text.isIdentifier b.name = true) : Projector.program? (projector bases)
      = some (Projector.code (concretePairs bases)) := by
  refine program?_projector fun p hp => ?_
  obtain ⟨b, hb, hpb⟩ := List.mem_filterMap.mp hp
  obtain ⟨concrete, -, rfl⟩ := Option.map_eq_some_iff.mp hpb
  exact isIdentifier_member (h b hb)

/-! ## the lines of the module -/

/-- The lines of a module, part by part. -/
def partsOf (t : Tables) (dispatch : List String) : List String :=
  heading t ++ (imports ++ ((enumeration t.bases ++ recordTypes)
    ++ ((["", signatureHead] ++ t.runs.flatMap (runRows t) ++ [")", ""])
    ++ (overloadTable t ++ (dispatch ++ projector t.bases)))))

theorem partsOf_concat (t : Tables) (dispatch : List String) :
    partsOf t dispatch ++ [""] = linesBelow (heading t) t dispatch := by
  rw [partsOf, linesBelow]
  simp only [List.append_assoc]

section
variable {t : Tables} {dispatch : List String} (hdispatch : dispatcher t.index = .ok dispatch)
include hdispatch

theorem lines_partsOf {c : Catalog} (g : Stages c t) : lines t = .ok (partsOf t dispatch) := by
  obtain ⟨rest, hbelow, -⟩ := below_ok g
  rw [lines_eq, hbelow]
  have hlines := lines_linesBelow g hbelow hdispatch
  rw [← partsOf_concat] at hlines
  exact congrArg Except.ok (List.append_cancel_right hlines)

/-- A line of the outline that stands there once stands once at the left margin. -/
theorem once_partsOf {head : String} (h : outline.count head = 1) :
    ((partsOf t dispatch).filter isOuter).count head = 1 := by
  have houtline := filter_linesBelow (inner_heading t) hdispatch
  rw [← partsOf_concat, List.filter_append] at houtline
  have hfilter : (partsOf t dispatch).filter isOuter = outline :=
    (List.append_nil _).symm.trans houtline
  rwa [hfilter]

theorem bodyOf?_members :
    bodyOf? enumerationHead (partsOf t dispatch) = some (memberBody t.bases ++ ["", ""]) := by
  have hpart := (hasPart_memberBody t.bases).append (heading t ++ imports)
    ((["", signatureHead] ++ t.runs.flatMap (runRows t) ++ [")", ""])
      ++ (overloadTable t ++ (dispatch ++ projector t.bases)))
  rw [List.append_assoc, ← partsOf] at hpart
  exact hpart.bodyOf? (List.forall_mem_append.mpr ⟨inner_memberBody t.bases, by decide⟩)
    (by decide) (once_partsOf hdispatch (by decide))

theorem bodyOf?_rows :
    bodyOf? signatureHead (partsOf t dispatch) = some (t.runs.flatMap (runRows t)) := by
  have hpart := (hasPart_runRows t).append
    (heading t ++ (imports ++ (enumeration t.bases ++ recordTypes)))
    (overloadTable t ++ (dispatch ++ projector t.bases))
  rw [List.append_assoc, List.append_assoc, ← partsOf] at hpart
  exact hpart.bodyOf? (inner_runRows t) (by decide) (once_partsOf hdispatch (by decide))

/-- The last part of the module is its projector. -/
theorem dropWhile_projector : (partsOf t dispatch).dropWhile (· ≠ Projector.head)
    = Projector.head :: (projector t.bases).drop 2 := by
  have hlast : partsOf t dispatch = (heading t ++ (imports ++ ((enumeration t.bases ++ recordTypes)
      ++ ((["", signatureHead] ++ t.runs.flatMap (runRows t) ++ [")", ""])
      ++ (overloadTable t ++ (dispatch ++ [""]))))))
      ++ Projector.head :: (projector t.bases).drop 2 := by
    rw [partsOf]
    simp only [List.append_assoc]
    rfl
  have honce := once_partsOf hdispatch (by decide : outline.count Projector.head = 1)
  rw [hlast] at honce ⊢
  exact dropWhile_head (by decide) honce

end

/-- **The members, the rows and the branches are read from the lines of the module.** -/
theorem mentions?_lines {c : Catalog} {t : Tables} (g : Stages c t) :
    ∃ ls, lines t = .ok ls ∧ mentions? ls = some (mentionsOf t) := by
  obtain ⟨dispatch, hdispatch, -⟩ := dispatcher_lined g.index_blocks
  have hbases := bases_identifiers g
  have hprogram : Projector.program? (Projector.head :: (projector t.bases).drop 2)
      = some (Projector.code (concretePairs t.bases)) := program?_bases hbases
  have hread := members?_memberBody hbases ["", ""] rfl
  refine ⟨partsOf t dispatch, lines_partsOf hdispatch g, ?_⟩
  rw [mentions?, bodyOf?_members hdispatch, bodyOf?_rows hdispatch, dropWhile_projector hdispatch,
    hprogram]
  simp only [Option.bind_eq_bind, Option.bind_some, hread,
    table?_rowNames hbases (signatureTable_bases g), Projector.branches_code, mentionsOf]
  rw [List.flatMap_map, ← List.map_flatMap, g.runs_flatMap]

/-! ## what it denotes -/

/-- The name in each row stands for the base type of its descriptor, and the name in each branch for
a base type with the concrete type that the branch asks for, in their order. -/
structure Denotes (norm : Normalisation) (taken : List (String × Nat)) (t : Tables)
    (m : Mentions) : Prop where
  rows : m.rows.map (fun name => (norm.denotes taken name).map Int.ofNat)
    = t.signatureTable.map fun d => some d.base
  branches : m.branches.map (fun b => (norm.denotes taken b.1, b.2))
    = t.bases.zipIdx.filterMap fun p =>
        p.1.concrete.map fun concrete => (some p.2, .step (.builtin concrete) .pass)

theorem concretePairs_zipIdx (bases : List BaseType) : concretePairs bases
    = bases.zipIdx.filterMap fun p =>
        p.1.concrete.map fun concrete => (member p.1.name, concrete) := by
  have hfst : bases = bases.zipIdx.map (·.1) := (List.zipIdx_map_fst 0 bases).symm
  conv_lhs => rw [concretePairs, hfst, List.filterMap_map]
  rfl

section
variable {norm : Normalisation} {taken : List (String × Nat)} {t : Tables}
  (h : norm.define (mentionsOf t).members = .ok taken)
include h

theorem denotes_member {i : Nat} {b : BaseType} (hb : t.bases[i]? = some b) :
    norm.denotes taken (member b.name) = some i :=
  Normalisation.denotes_of_mem h
    (List.mem_map.mpr ⟨(b, i), List.mem_zipIdx_iff_getElem?.mpr hb, rfl⟩)

theorem denotes_mentionsOf (hd : ∀ d ∈ t.signatureTable, HasBase t.bases d) :
    Denotes norm taken t (mentionsOf t) where
  rows := by
    show (t.signatureTable.map (rowName t.bases)).map _ = _
    rw [List.map_map]
    refine List.map_congr_left fun d hmem => ?_
    obtain ⟨i, b, hi, hb⟩ := hd d hmem
    show (norm.denotes taken (rowName t.bases d)).map Int.ofNat = some d.base
    rw [rowName, baseName?_of_getElem? hi hb, Option.getD_some, denotes_member h hb, hi]
    rfl
  branches := by
    show ((concretePairs t.bases).map _).map _ = _
    rw [concretePairs_zipIdx, List.map_map, List.map_filterMap]
    refine List.filterMap_congr fun p hp => ?_
    have hb : t.bases[p.2]? = some p.1 := List.mem_zipIdx_iff_getElem?.mp hp
    rw [Option.map_map]
    show p.1.concrete.map (fun concrete => (norm.denotes taken (member p.1.name), _)) = _
    rw [denotes_member h hb]

end

theorem members_map {α : Type} (t : Tables) (f : String → α) :
    ((mentionsOf t).members.map fun p => f p.1) = t.bases.map fun b => f (member b.name) := by
  have hfst : t.bases.zipIdx.map (·.1) = t.bases := List.zipIdx_map_fst 0 t.bases
  conv_rhs => rw [← hfst]
  rw [mentionsOf, List.map_map, List.map_map]
  rfl

theorem member_ascii {name : String} (h : ∀ c ∈ name.toList, c.toNat < 128) :
    ∀ c ∈ (member name).toList, c.toNat < 128 := by
  have hmark : "T_".toList = ['T', '_'] := String.toList_ofList
  rw [member, String.toList_append, hmark]
  exact List.forall_mem_append.mpr ⟨by simp, h⟩

/-- **The enumeration of the tables of a catalog can be made exactly if no two members have one
normal form**, and then each row and each branch names its own base type.  Members in ASCII are
told apart by every normal form. -/
theorem mentions_denote (norm : Normalisation) {c : Catalog} {t : Tables}
    (h : Tables.build c = .ok t) : ∃ ls m, lines t = .ok ls ∧ mentions? ls = some m ∧
      m.members = t.bases.zipIdx.map (fun p => (member p.1.name, p.2)) ∧
      ((∃ taken, norm.define m.members = .ok taken) ↔
        (t.bases.map fun b => norm.form (member b.name)).Nodup) ∧
      (∀ taken, norm.define m.members = .ok taken → Denotes norm taken t m) ∧
      ((∀ b ∈ t.bases, ∀ ch ∈ b.name.toList, ch.toNat < 128) →
        ∃ taken, norm.define m.members = .ok taken) := by
  obtain ⟨g⟩ := Tables.build_eq_ok.mp h
  obtain ⟨ls, hlines, hread⟩ := mentions?_lines g
  refine ⟨ls, mentionsOf t, hlines, hread, rfl, ?_, ?_,
    fun hascii => ⟨norm.formed (mentionsOf t).members, ?_⟩⟩
  · rw [← members_map]
    exact ⟨fun ⟨taken, htaken⟩ => (Normalisation.define_eq_ok.mp htaken).1,
      fun hnodup => ⟨_, Normalisation.define_eq_ok.mpr ⟨hnodup, rfl⟩⟩⟩
  · exact fun taken htaken => denotes_mentionsOf htaken (signatureTable_bases g)
  · have hnames := bases_nodup g
    refine Normalisation.define_ascii ?_ fun p hp => ?_
    · rw [members_map t fun name => name]
      have hmembers := hnames.map member_injective
      rwa [List.map_map] at hmembers
    · obtain ⟨⟨b, i⟩, hb, rfl⟩ := List.mem_map.mp hp
      exact member_ascii (hascii b (List.fst_mem_of_mem_zipIdx hb))

/-! ## ligatures -/

/-- Ligatures with their letters. -/
def ligatureLetters : List (Char × List Char) :=
  [('\ufb00', ['f', 'f']), ('\ufb01', ['f', 'i']), ('\ufb02', ['f', 'l']),
    ('\ufb03', ['f', 'f', 'i']), ('\ufb04', ['f', 'f', 'l']), ('\ufb05', ['s', 't']),
    ('\ufb06', ['s', 't'])]

def letters (c : Char) : List Char := (ligatureLetters.lookup c).getD [c]

theorem letters_ascii {c : Char} (h : c.toNat < 128) : letters c = [c] := by
  have hkeys : ∀ p ∈ ligatureLetters, 128 ≤ p.1.toNat := by decide
  have hnone : ligatureLetters.lookup c = none := by
    refine List.lookup_eq_none_iff.mpr fun p hp => bne_iff_ne.mpr ?_
    rintro rfl
    exact Nat.not_lt.mpr (hkeys p hp) h
  rw [letters, hnone]
  rfl

/-- The normal form that takes ligatures apart. -/
def ligatures : Normalisation where
  form s := String.ofList (s.toList.flatMap letters)
  ascii s h := by
    have hsame : s.toList.flatMap letters = s.toList.flatMap fun c => [c] :=
      List.flatMap_congr fun c hc => letters_ascii (h c hc)
    rw [hsame, List.flatMap_singleton', String.ofList_toList]

/-- A base type `name` and a base type `other` in one signature. -/
def twoTypes (name other : String) : Catalog where
  types := [⟨⟨"A", name, 0, .default, false, some "ATy"⟩, .root none⟩,
    ⟨⟨"B", other, 0, .default, false, none⟩, .root none⟩]
  overloads := [⟨⟨"f", ["B", "A", "A"], some "CL10", ""⟩, .root none⟩]
  versions := [⟨⟨"CL10", 100⟩, .root none⟩]
  label := none
  file := none

set_option maxRecDepth 8000 in
theorem mentions_denote_ligature : ∃ t ls m taken,
    Tables.build (twoTypes "\ufb01" "float") = .ok t ∧ lines t = .ok ls ∧ mentions? ls = some m ∧
    ligatures.define m.members = .ok taken ∧ taken = [("T_fi", 0), ("T_float", 1)] ∧
    Denotes ligatures taken t m ∧ t.signatureTable.map (·.base) = [1, 0, 0] := by
  obtain ⟨t, h, hbases, htable⟩ : ∃ t, Tables.build (twoTypes "\ufb01" "float") = .ok t ∧
      t.bases = [⟨"\ufb01", some "ATy"⟩, ⟨"float", none⟩] ∧
      t.signatureTable.map (·.base) = [1, 0, 0] := ⟨_, rfl, rfl, rfl⟩
  obtain ⟨ls, m, hlines, hread, hmembers, hmade, hdenotes, -⟩ := mentions_denote ligatures h
  rw [hbases] at hmembers hmade
  obtain ⟨taken, htaken⟩ := hmade.mpr (by decide)
  refine ⟨t, ls, m, taken, h, hlines, hread, htaken, ?_, hdenotes taken htaken, htable⟩
  rw [hmembers] at htaken
  have hmade : ligatures.define [("T_\ufb01", 0), ("T_float", 1)]
      = .ok [("T_fi", 0), ("T_float", 1)] := rfl
  exact Except.ok.inj (htaken.symm.trans hmade)

set_option maxRecDepth 8000 in
/-- Two base types with different names, of which one is the other with a ligature. -/
theorem mentions_clash : ∃ t ls m, Tables.build (twoTypes "fi" "\ufb01") = .ok t ∧
    lines t = .ok ls ∧ mentions? ls = some m ∧ m.members = [("T_fi", 0), ("T_\ufb01", 1)] ∧
    ligatures.define m.members = .error "T_fi" := by
  obtain ⟨t, h, hbases⟩ : ∃ t, Tables.build (twoTypes "fi" "\ufb01") = .ok t ∧
      t.bases = [⟨"fi", some "ATy"⟩, ⟨"\ufb01", none⟩] := ⟨_, rfl, rfl⟩
  obtain ⟨g⟩ := Tables.build_eq_ok.mp h
  obtain ⟨ls, hlines, hread⟩ := mentions?_lines g
  have hmembers : (mentionsOf t).members = [("T_fi", 0), ("T_\ufb01", 1)] := by
    rw [mentionsOf, hbases]
    rfl
  refine ⟨t, ls, mentionsOf t, h, hlines, hread, hmembers, ?_⟩
  rw [hmembers]
  rfl

end OverloadTables.Source
