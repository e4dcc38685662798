import OverloadTables.Proofs.Document.Source
import OverloadTables.Proofs.Script.Tables

/-!
# The rows of the module, read

* `Source.moduleOf t`      what the module of tables is to say;
* `members?_memberBody`    the members of the enumeration, read;
* `table?_runRows`         the signature table, read;
* `table?_blockLines`      the overload table, read.
-/

namespace OverloadTables.Source

open Script

/-! ## rows -/

/-- The lines of members, numbered from `i` on. -/
theorem memberLines_eq (i : Nat) (bases : List BaseType) : memberLines i bases
    = (bases.zipIdx i).map fun p => "\t" ++ member p.1.name ++ " = " ++ toString p.2 := by
  induction bases generalizing i with
  | nil => rfl
  | cons b bases ih => rw [memberLines, ih, List.zipIdx_cons, List.map_cons]

theorem memberLine?_eq {name : String} (h : Text.isIdentifier name = true) (i : Nat) :
    memberLine? ("\t" ++ name ++ " = " ++ toString i) = some (name, i) := by
  have hread := number?_toString i noDigit_nil
  rw [List.append_nil] at hread
  have hname : upTo ' ' (name.toList ++ (" = ".toList ++ (toString i).toList))
      = (name.toList, " = ".toList ++ (toString i).toList) :=
    upTo_append (Text.identifier_notMem h (by decide)) _
  simp only [memberLine?, String.toList_append, List.append_assoc, skip_append, hname, hread,
    Option.bind_eq_bind, Option.bind_some, String.ofList_toList]
  exact if_pos ⟨trivial, h⟩

theorem lookup_members {bases : List BaseType} (hnodup : (bases.map (·.name)).Nodup) (i : Nat)
    {k : Nat} {b : BaseType} (hb : bases[k]? = some b) :
    ((bases.zipIdx i).map fun p => (member p.1.name, p.2)).lookup (member b.name)
      = some (i + k) := by
  induction bases generalizing i k with
  | nil => cases hb
  | cons b' bases ih =>
    rw [List.map_cons, List.nodup_cons] at hnodup
    rw [List.zipIdx_cons, List.map_cons, List.lookup_cons]
    cases k with
    | zero =>
      obtain rfl := Option.some.inj hb
      rw [beq_self_eq_true]
      rfl
    | succ k =>
      have hmem : b.name ∈ bases.map (·.name) :=
        List.mem_map.mpr ⟨b, List.mem_of_getElem? hb, rfl⟩
      have hne : (member b.name == member b'.name) = false := by
        rw [beq_eq_false_iff_ne]
        intro e
        exact hnodup.1 (member_injective e ▸ hmem)
      have hsum : i + 1 + k = i + (k + 1) := by omega
      rw [hne, ← hsum]
      exact ih hnodup.2 (i + 1) hb

/-- The mark of a run, whatever the rows are read for. -/
theorem item?_offset {ρ : Type} (row : List Char → Option ρ) (k : Nat) :
    item? offset? row ("\t# " ++ toString k) = some (.mark k) := by
  have hread := number?_toString k noDigit_nil
  rw [List.append_nil] at hread
  refine item?_comment (toString k).toList String.toList_append ?_
  rw [offset?, hread]
  rfl

section
variable {members : List (String × Nat)}

/-- The row of a descriptor whose base is a member with this name. -/
theorem signatureItem?_row {name : String} {d : Descriptor} {i : Nat}
    (hname : Text.isIdentifier (member name) = true)
    (hlookup : members.lookup (member name) = some i) (hbase : d.base = i) :
    signatureItem? members (descriptorText name d) = some (.row d) := by
  have htext : (descriptorText name d).toList = "\tSignatureType(TypeID.".toList
      ++ ((member name).toList ++ (", ".toList ++ ((toString d.width).toList
      ++ (", AddressSpace.".toList ++ (d.space.memberName.toList ++ (", ".toList
      ++ ((truth d.pointer).toList ++ "),".toList))))))) := by
    unfold descriptorText
    simp only [String.toList_append, List.append_assoc]
  have hmember : ∀ rest, member? members ((member name).toList ++ (", ".toList ++ rest))
      = some (i, ", ".toList ++ rest) := by
    intro rest
    have hcut : upTo ',' ((member name).toList ++ (", ".toList ++ rest))
        = ((member name).toList, ", ".toList ++ rest) :=
      upTo_append (Text.identifier_notMem hname (by decide)) _
    rw [member?, hcut, String.ofList_toList, hlookup]
    rfl
  have hwidth : ∀ rest, integer? ((toString d.width).toList ++ (", AddressSpace.".toList ++ rest))
      = some (d.width, ", AddressSpace.".toList ++ rest) := fun rest =>
    integer?_toString d.width (noDigit_cons rfl _)
  have hspace : ∀ rest, space? (d.space.memberName.toList ++ (", ".toList ++ rest))
      = some (d.space, ", ".toList ++ rest) := fun rest => space?_append d.space _
  have htruth : truth? ((truth d.pointer).toList ++ "),".toList) = some (d.pointer, "),".toList) :=
    truth?_append d.pointer _
  rw [signatureItem?, item?, htext]
  show (signatureRow? members _).map _ = _
  simp only [signatureRow?, skip_append, hmember, hwidth, hspace, htruth, Option.bind_eq_bind,
    Option.bind_some, ↓reduceIte, Option.map_some, ← hbase]

end

def declOf (r : Row) : Decl := ⟨r.length, r.start, r.extension, r.version⟩

theorem declItem?_comment (name : String) :
    declItem? ("\t# " ++ name) = some (.mark name) := by
  refine item?_comment name.toList String.toList_append ?_
  rw [String.ofList_toList]

theorem declItem?_row (r : Row) : declItem? (rowLine r) = some (.row (declOf r)) := by
  have htext : (rowLine r).toList = "\tBuiltinDecl(".toList ++ ((toString r.length).toList
      ++ (", ".toList ++ ((toString r.start).toList ++ (", ".toList
      ++ (Text.quoteChars r.extension.toList ++ (", ".toList ++ ((toString r.version).toList
      ++ "),".toList))))))) := by
    unfold rowLine
    simp only [String.toList_append, List.append_assoc, Text.quote, String.toList_ofList]
  have hnumber : ∀ (n : Nat) rest, number? ((toString n).toList ++ (", ".toList ++ rest))
      = some (n, ", ".toList ++ rest) := fun n rest => number?_toString n (noDigit_cons rfl _)
  have hliteral : ∀ rest, readLiteral (Text.quoteChars r.extension.toList ++ (", ".toList ++ rest))
      = some (r.extension.toList, ", ".toList ++ rest) := by
    intro rest
    refine readLiteral_quoteChars _ _ fun h => ?_
    rcases isQuote_quoteMark r.extension.toList with hq | hq <;> rw [hq] at h <;> cases h
  have hversion : integer? ((toString r.version).toList ++ "),".toList)
      = some (r.version, "),".toList) := integer?_toString r.version (noDigit_cons rfl _)
  rw [declItem?, item?, htext]
  show (declRow? _).map _ = _
  simp only [declRow?, skip_append, hnumber, hliteral, hversion, Option.bind_eq_bind,
    Option.bind_some, ↓reduceIte, Option.map_some, String.ofList_toList]
  rfl

/-! ## bodies -/

/-- What the module of tables is to say. -/
def moduleOf (t : Tables) : Module where
  members := t.bases.zipIdx.map fun p => (member p.1.name, p.2)
  signatures := t.runs.map fun r => (r.start, t.run r)
  overloads := t.index.blocks.map fun b => (b.name, (t.rowsAt b.extent).map declOf)

def memberBody (bases : List BaseType) : List String :=
  if bases.isEmpty then ["\tpass"] else memberLines 0 bases

theorem members?_memberBody {bases : List BaseType}
    (h : ∀ b ∈ bases, Text.isIdentifier b.name = true) (below : List String)
    (hbelow : below.filter (fun l => !isBlank l) = []) :
    members? (memberBody bases ++ below)
      = some (bases.zipIdx.map fun p => (member p.1.name, p.2)) := by
  cases bases with
  | nil =>
    have hshown : (memberBody [] ++ below).filter (fun l => !isBlank l) = ["\tpass"] := by
      rw [List.filter_append, hbelow]
      rfl
    rw [members?, hshown]
    exact if_pos rfl
  | cons b bases =>
    have hlines : (memberLines 0 (b :: bases)).mapM memberLine?
        = some ((b :: bases).zipIdx.map fun p => (member p.1.name, p.2)) := by
      rw [memberLines_eq]
      refine mapM_map_some fun p hp => memberLine?_eq (isIdentifier_member (h p.1 ?_)) p.2
      exact List.fst_mem_of_mem_zipIdx hp
    have hshown : (memberBody (b :: bases) ++ below).filter (fun l => !isBlank l)
        = memberLines 0 (b :: bases) := by
      rw [List.filter_append, hbelow, List.append_nil]
      refine List.filter_eq_self.mpr fun l hl => ?_
      have hl : l ∈ memberLines 0 (b :: bases) := hl
      rw [memberLines_eq] at hl
      obtain ⟨p, -, rfl⟩ := List.mem_map.mp hl
      unfold member
      simp only [isBlank, String.toList_append, List.append_assoc]
      rfl
    -- the body of an enumeration without members is no line of a member
    have hpass : memberLines 0 (b :: bases) ≠ ["\tpass"] := by
      intro e
      rw [e] at hlines
      cases hlines
    rw [members?, hshown]
    exact (if_neg hpass).trans hlines

theorem table?_runRows {t : Tables} (h : ∀ b ∈ t.bases, Text.isIdentifier b.name = true)
    (hnodup : (t.bases.map (·.name)).Nodup) (hd : ∀ d ∈ t.signatureTable, HasBase t.bases d) :
    table? (signatureItem? (moduleOf t).members) (t.runs.flatMap (runRows t))
      = some (moduleOf t).signatures := by
  have hrows : ∀ r ∈ t.runs, ∀ d ∈ t.run r,
      signatureItem? (moduleOf t).members (descriptorRow t.bases d) = some (.row d) := by
    intro r _ d hmem
    obtain ⟨i, b, hi, hb⟩ := hd d (mem_of_mem_run hmem)
    have hlookup := lookup_members hnodup 0 hb
    rw [Nat.zero_add] at hlookup
    rw [descriptorRow, baseName?_of_getElem? hi hb]
    exact signatureItem?_row (isIdentifier_member (h b (List.mem_of_getElem? hb))) hlookup hi
  have hmarks : ∀ r ∈ t.runs, signatureItem? (moduleOf t).members ("\t# " ++ toString r.start)
      = some (.mark r.start) := fun r _ => item?_offset _ r.start
  have hread := table?_flatMap hmarks hrows
  simp only [List.map_id'] at hread
  exact hread

theorem table?_blockLines (t : Tables) :
    table? declItem? (t.index.blocks.flatMap (blockLines t)) = some (moduleOf t).overloads :=
  table?_flatMap (fun b _ => declItem?_comment b.name) fun _ _ r _ => declItem?_row r

end OverloadTables.Source
