import OverloadTables.Proofs.BlockIndex

/-!
# An index of blocks against the list of its blocks

* `BlockIndex.listed`      the extent of a name, looked for in the list;
* `BlockIndex.Refusal above b e`   after the blocks `above`, the block `b` is refused for the reason
                           `e`;
* `BlockIndex.Agrees blocks`   the blocks are refused as their list says, and otherwise the index
                           answers for every name as their list does;
* `BlockIndex.LaysOut sizes`   counts under names make an index of blocks one after the other;
* `BlockIndex.index_agrees`   both hold, for any blocks and any counts.
-/

namespace OverloadTables.BlockIndex

/-- The extent of the first block with a name. -/
def listed (blocks : List Block) (name : String) : Extent :=
  match blocks.find? (·.name = name) with
  | some b => b.extent
  | none => ⟨0, 0⟩

/-- Blocks with bounds from one on and with names of their own. -/
structure Proper (blocks : List Block) : Prop where
  bounds : ∀ b ∈ blocks, 1 ≤ b.extent.start ∧ 1 ≤ b.extent.count
  nodup : (blocks.map (·.name)).Nodup

/-- Why a block is refused after others.  The name counts only if the bounds are good. -/
inductive Refusal (above : List Block) (b : Block) : Invalid → Prop where
  | extent (h : b.extent.start < 1 ∨ b.extent.count < 1) : Refusal above b (.extent b)
  | repeated (hstart : 1 ≤ b.extent.start) (hcount : 1 ≤ b.extent.count)
      (hname : ∃ a ∈ above, a.name = b.name) : Refusal above b (.repeated b.name)

/-! ## refusals -/

theorem addName_eq_error {names : Trie Char Extent} {b : Block} {e : Invalid} :
    addName names b = .error e ↔
      ((b.extent.start < 1 ∨ b.extent.count < 1) ∧ e = .extent b) ∨
      (1 ≤ b.extent.start ∧ 1 ≤ b.extent.count ∧ names.find? b.name.toList ≠ none ∧
        e = .repeated b.name) := by
  rw [addName]
  by_cases hb : b.extent.start < 1 ∨ b.extent.count < 1
  · rw [if_pos hb, Except.error.injEq]
    constructor
    · intro h
      exact .inl ⟨hb, h.symm⟩
    · rintro (⟨-, rfl⟩ | ⟨hstart, hcount, -⟩)
      · rfl
      · omega
  · rw [if_neg hb]
    cases hn : names.find? b.name.toList with
    | none => simp [hb]
    | some extent =>
      rw [Option.isSome_some, if_pos rfl, Except.error.injEq]
      constructor
      · intro h
        exact .inr ⟨by omega, by omega, Option.some_ne_none extent, h.symm⟩
      · rintro (⟨hbad, -⟩ | ⟨-, -, -, rfl⟩)
        · exact absurd hbad hb
        · rfl

section
variable {names : Trie Char Extent} {above blocks : List Block} {b : Block} {e : Invalid}

/-- The names that answer are those of the blocks taken in. -/
theorem Added.find?_ne_none (A : Added .empty above names) {name : String} :
    names.find? name.toList ≠ none ↔ ∃ a ∈ above, a.name = name := by
  constructor
  · intro h
    by_contra hnone
    apply h
    rw [A.find_rest name fun hm => hnone (List.mem_map.mp hm), Trie.find?_empty]
  · rintro ⟨a, ha, rfl⟩ h
    rw [A.find_mem a ha] at h
    exact nomatch h

theorem Added.proper (A : Added .empty above names) : Proper above := ⟨A.bounds, A.nodup⟩

/-- What is refused after blocks that were taken in. -/
theorem Added.addName_eq_error_iff (A : Added .empty above names) :
    addName names b = .error e ↔ Refusal above b e := by
  rw [addName_eq_error]
  constructor
  · rintro (⟨hbad, rfl⟩ | ⟨hstart, hcount, hname, rfl⟩)
    · exact .extent hbad
    · exact .repeated hstart hcount (A.find?_ne_none.mp hname)
  · rintro (hbad | ⟨hstart, hcount, hname⟩)
    · exact .inl ⟨hbad, rfl⟩
    · exact .inr ⟨hstart, hcount, A.find?_ne_none.mpr hname, rfl⟩

theorem Proper.added (h : Proper blocks) : ∃ names, blocks.foldlM addName .empty = .ok names ∧
    Added .empty blocks names := by
  obtain ⟨names, hn⟩ := foldlM_addName_ok h.bounds h.nodup fun b _ => Trie.find?_empty b.name.toList
  exact ⟨names, hn, added_of_foldlM hn⟩

theorem ofBlocks_ok_iff : (∃ ix, ofBlocks blocks = .ok ix) ↔ Proper blocks := by
  constructor
  · rintro ⟨ix, h⟩
    exact (ofBlocks_added h).2.proper
  · intro h
    exact ofBlocks_ok h.bounds h.nodup

/-- **The error is about the first block that is refused after those above it.** -/
theorem ofBlocks_eq_error : ofBlocks blocks = .error e ↔
    ∃ above b below, blocks = above ++ b :: below ∧ Proper above ∧ Refusal above b e := by
  constructor
  · intro h
    rcases bind_eq_error.mp h with hfold | ⟨names, -, hpure⟩
    · obtain ⟨above, b, below, names, rfl, habove, hb⟩ := foldlM_eq_error hfold
      have A := added_of_foldlM habove
      exact ⟨above, b, below, rfl, A.proper, A.addName_eq_error_iff.mp hb⟩
    · exact nomatch hpure
  · rintro ⟨above, b, below, rfl, habove, hb⟩
    obtain ⟨names, hn, A⟩ := habove.added
    have hrefused := A.addName_eq_error_iff.mpr hb
    rw [ofBlocks, List.foldlM_append, hn]
    show (List.foldlM addName names (b :: below) >>= fun names => _) = _
    rw [List.foldlM_cons, hrefused]
    rfl

end

/-! ## answers -/

section
variable {blocks : List Block} {ix : BlockIndex} (h : ofBlocks blocks = .ok ix)
include h

theorem lookup_eq_listed (name : String) : ix.lookup name = listed blocks name := by
  unfold listed
  cases hf : blocks.find? (·.name = name) with
  | some b =>
    have hname := List.find?_some hf
    rw [decide_eq_true_eq] at hname
    rw [← hname, lookup_of_mem h (List.mem_of_find?_eq_some hf)]
  | none =>
    refine lookup_of_notMem h fun hm => ?_
    obtain ⟨b, hb, hname⟩ := List.mem_map.mp hm
    exact absurd (decide_eq_true hname) (List.find?_eq_none.mp hf b hb)

/-- No block has the answer for a name that is absent. -/
theorem contains_iff (name : String) : ix.contains name = true ↔ ∃ b ∈ blocks, b.name = name := by
  rw [contains, bne_iff_ne, ne_eq]
  constructor
  · intro hpresent
    by_contra hnone
    exact hpresent (lookup_of_notMem h fun hm => hnone (List.mem_map.mp hm))
  · rintro ⟨b, hb, rfl⟩ habsent
    have hstart := ((ofBlocks_added h).2.bounds b hb).1
    rw [lookup_of_mem h hb] at habsent
    rw [habsent] at hstart
    exact absurd hstart (by decide)

end

/-! ## blocks from counts -/

theorem layOut_getElem? (start : Int) (sizes : List (String × Int)) (k : Nat) :
    (layOut start sizes)[k]?
      = sizes[k]?.map fun p => ⟨p.1, ⟨start + ((sizes.take k).map (·.2)).sum, p.2⟩⟩ := by
  induction sizes generalizing start k with
  | nil => rfl
  | cons p sizes ih =>
    cases k with
    | zero => simp [layOut]
    | succ k =>
      rw [layOut, List.getElem?_cons_succ, ih, List.getElem?_cons_succ, List.take_succ_cons,
        List.map_cons, List.sum_cons, Int.add_assoc]

/-- Positive counts lay out proper blocks, from any place on that is one or more. -/
theorem layOut_bounds {start : Int} {sizes : List (String × Int)} (hstart : 1 ≤ start)
    (hcounts : ∀ p ∈ sizes, 1 ≤ p.2) :
    ∀ b ∈ layOut start sizes, 1 ≤ b.extent.start ∧ 1 ≤ b.extent.count := by
  induction sizes generalizing start with
  | nil => exact fun b hb => absurd hb List.not_mem_nil
  | cons p sizes ih =>
    obtain ⟨hp, hrest⟩ := List.forall_mem_cons.mp hcounts
    exact List.forall_mem_cons.mpr ⟨⟨hstart, hp⟩, ih (by omega) hrest⟩

/-! ## the whole -/

/-- What an index of blocks does, told by the list of the blocks alone. -/
structure Agrees (blocks : List Block) : Prop where
  refused : (∃ e, ofBlocks blocks = .error e) ↔
    (∃ b ∈ blocks, b.extent.start < 1 ∨ b.extent.count < 1) ∨ ¬ (blocks.map (·.name)).Nodup
  /-- The error is about the first block with a bad bound or the name of one above it. -/
  first : ∀ e, ofBlocks blocks = .error e ↔
    ∃ above b below, blocks = above ++ b :: below ∧ Proper above ∧ Refusal above b e
  answers : ∀ ix, ofBlocks blocks = .ok ix → ix.blocks = blocks ∧ ∀ name,
    ix.lookup name = listed blocks name ∧ (ix.contains name = true ↔ ∃ b ∈ blocks, b.name = name)

/-- Positive counts under different names have an index, in which each block starts after the rows
of those before it. -/
def LaysOut (sizes : List (String × Int)) : Prop :=
  (sizes.map (·.1)).Nodup → (∀ p ∈ sizes, 1 ≤ p.2) →
    ∃ ix, ofSizes sizes = .ok ix ∧ ix.blocks.length = sizes.length ∧
      ∀ (k : Nat) (name : String) (count : Int), sizes[k]? = some (name, count) →
        ix.blocks[k]? = some ⟨name, ⟨1 + ((sizes.take k).map (·.2)).sum, count⟩⟩

theorem ofBlocks_refused_iff (blocks : List Block) : (∃ e, ofBlocks blocks = .error e) ↔
    (∃ b ∈ blocks, b.extent.start < 1 ∨ b.extent.count < 1) ∨ ¬ (blocks.map (·.name)).Nodup := by
  constructor
  · rintro ⟨e, h⟩
    have himproper : ¬ Proper blocks := by
      intro hproper
      obtain ⟨ix, hok⟩ := ofBlocks_ok_iff.mpr hproper
      exact nomatch h.symm.trans hok
    by_contra hfine
    rw [not_or, not_not] at hfine
    refine himproper ⟨fun b hb => ?_, hfine.2⟩
    have hb' : ¬ (b.extent.start < 1 ∨ b.extent.count < 1) := fun hbad => hfine.1 ⟨b, hb, hbad⟩
    omega
  · intro hbad
    cases h : ofBlocks blocks with
    | error e => exact ⟨e, rfl⟩
    | ok ix =>
      obtain ⟨hbounds, hnodup⟩ := ofBlocks_ok_iff.mp ⟨ix, h⟩
      rcases hbad with ⟨b, hb, hbound⟩ | hrepeated
      · have := hbounds b hb
        omega
      · exact absurd hnodup hrepeated

theorem laysOut (sizes : List (String × Int)) : LaysOut sizes := by
  intro hnodup hcounts
  have hnames : ((layOut 1 sizes).map (·.name)).Nodup := by rwa [layOut_names]
  obtain ⟨ix, h⟩ := ofBlocks_ok (layOut_bounds (by decide) hcounts) hnames
  have hblocks := (ofBlocks_added h).1
  have hlength := congrArg List.length (layOut_names 1 sizes)
  rw [List.length_map, List.length_map] at hlength
  refine ⟨ix, h, by rw [hblocks, hlength], fun k name count hk => ?_⟩
  rw [hblocks, layOut_getElem?, hk, Option.map_some]

/-- **An index agrees with the list of its blocks**, in what it refuses and in every answer, and
counts lay its blocks out one after the other. -/
theorem index_agrees (blocks : List Block) (sizes : List (String × Int)) :
    Agrees blocks ∧ LaysOut sizes :=
  ⟨⟨ofBlocks_refused_iff blocks, fun _ => ofBlocks_eq_error,
    fun _ h => ⟨(ofBlocks_added h).1, fun name => ⟨lookup_eq_listed h name, contains_iff h name⟩⟩⟩,
    laysOut sizes⟩

/-- A name, a prefix of it and the empty name, each with a block. -/
example : (ofSizes [("max", 2), ("", 1), ("ma", 3)]).map
      (fun ix => ["max", "", "ma", "m", "maxi"].map ix.lookup)
    = .ok [⟨1, 2⟩, ⟨3, 1⟩, ⟨4, 3⟩, ⟨0, 0⟩, ⟨0, 0⟩] := by rfl

end OverloadTables.BlockIndex
