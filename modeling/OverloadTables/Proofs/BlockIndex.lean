import OverloadTables.BlockIndex
import OverloadTables.Proofs.Except
import OverloadTables.Proofs.Trie
import Mathlib.Algebra.Ring.Int.Defs
import Mathlib.Data.List.Nodup

/-!
# The index of blocks answers for its blocks

* `BlockIndex.lookup_of_mem`, `BlockIndex.lookup_of_notMem`   the answer for a name;
* `BlockIndex.ofBlocks_ok`    blocks that always have an index;
* `BlockIndex.Tiles`       blocks that stand one after the other;
* `BlockIndex.tiles_layOut`   blocks laid out do.
-/

namespace OverloadTables.BlockIndex

/-! ## names -/

theorem addName_eq_ok {names names' : Trie Char Extent} {b : Block} :
    addName names b = .ok names' ↔
      1 ≤ b.extent.start ∧ 1 ≤ b.extent.count ∧ names.find? b.name.toList = none ∧
        names' = names.insert b.name.toList b.extent := by
  rw [addName]
  by_cases hb : b.extent.start < 1 ∨ b.extent.count < 1
  · rw [if_pos hb]
    constructor
    · intro h
      exact nomatch h
    · intro h
      omega
  · rw [if_neg hb]
    cases hn : names.find? b.name.toList with
    | some e => simp
    | none =>
      rw [if_neg (by simp), Except.ok.injEq]
      constructor
      · intro h
        exact ⟨by omega, by omega, rfl, h.symm⟩
      · intro h
        exact h.2.2.2.symm

/-- What the names answer after blocks were added: the new blocks have bounds from one on and names
of their own, and each answers with its extent. -/
structure Added (names : Trie Char Extent) (blocks : List Block) (names' : Trie Char Extent) :
    Prop where
  bounds : ∀ b ∈ blocks, 1 ≤ b.extent.start ∧ 1 ≤ b.extent.count
  nodup : (blocks.map (·.name)).Nodup
  fresh : ∀ b ∈ blocks, names.find? b.name.toList = none
  find_mem : ∀ b ∈ blocks, names'.find? b.name.toList = some b.extent
  find_rest : ∀ name : String, name ∉ blocks.map (·.name) →
    names'.find? name.toList = names.find? name.toList

section
variable {names mid names' : Trie Char Extent} {b : Block} {blocks : List Block}

theorem Added.name_ne (A : Added (names.insert b.name.toList b.extent) blocks names') :
    ∀ b' ∈ blocks, b'.name ≠ b.name := by
  intro b' hb' e
  have hfresh := A.fresh b' hb'
  rw [e, Trie.find?_insert, if_pos rfl] at hfresh
  cases hfresh

/-- One block more in front. -/
theorem Added.cons (hb : addName names b = .ok mid) (A : Added mid blocks names') :
    Added names (b :: blocks) names' := by
  obtain ⟨hs, hc, hf, rfl⟩ := addName_eq_ok.mp hb
  have hne := A.name_ne
  have hnot : b.name ∉ blocks.map (·.name) := by
    intro hm
    obtain ⟨b', hb', e⟩ := List.mem_map.mp hm
    exact hne b' hb' e
  have hold : ∀ name : String, name ≠ b.name →
      (names.insert b.name.toList b.extent).find? name.toList = names.find? name.toList := by
    intro name e
    rw [Trie.find?_insert, if_neg fun h => e (String.toList_inj.mp h)]
  refine ⟨?_, ?_, ?_, ?_, ?_⟩
  · exact List.forall_mem_cons.mpr ⟨⟨hs, hc⟩, A.bounds⟩
  · rw [List.map_cons]
    exact List.nodup_cons.mpr ⟨hnot, A.nodup⟩
  · refine List.forall_mem_cons.mpr ⟨hf, fun b' hb' => ?_⟩
    rw [← hold _ (hne b' hb')]
    exact A.fresh b' hb'
  · refine List.forall_mem_cons.mpr ⟨?_, A.find_mem⟩
    rw [A.find_rest _ hnot, Trie.find?_insert, if_pos rfl]
  · intro name hname
    rw [List.map_cons, List.mem_cons, not_or] at hname
    rw [A.find_rest name hname.2, hold name hname.1]

theorem added_of_foldlM (h : blocks.foldlM addName names = .ok names') :
    Added names blocks names' := by
  induction blocks generalizing names with
  | nil =>
    obtain rfl : names = names' := pure_eq_ok.mp h
    exact ⟨by simp, by simp, by simp, by simp, fun _ _ => rfl⟩
  | cons b blocks ih =>
    rw [List.foldlM_cons, bind_eq_ok] at h
    obtain ⟨mid, hb, hrest⟩ := h
    exact (ih hrest).cons hb

end

/-- Blocks with bounds from one on and with names of their own are never refused. -/
theorem foldlM_addName_ok {names : Trie Char Extent} {blocks : List Block}
    (hbounds : ∀ b ∈ blocks, 1 ≤ b.extent.start ∧ 1 ≤ b.extent.count)
    (hnodup : (blocks.map (·.name)).Nodup)
    (hfresh : ∀ b ∈ blocks, names.find? b.name.toList = none) :
    ∃ names', blocks.foldlM addName names = .ok names' := by
  induction blocks generalizing names with
  | nil => exact ⟨names, rfl⟩
  | cons b blocks ih =>
    obtain ⟨⟨hstart, hcount⟩, hbounds⟩ := List.forall_mem_cons.mp hbounds
    obtain ⟨hb, hfresh⟩ := List.forall_mem_cons.mp hfresh
    rw [List.map_cons, List.nodup_cons] at hnodup
    have hadd := addName_eq_ok.mpr ⟨hstart, hcount, hb, rfl⟩
    obtain ⟨names', h⟩ : ∃ names', blocks.foldlM addName
        (names.insert b.name.toList b.extent) = .ok names' := by
      refine ih hbounds hnodup.2 fun b' hb' => ?_
      have hne : b'.name.toList ≠ b.name.toList := by
        intro e
        exact hnodup.1 (List.mem_map.mpr ⟨b', hb', String.toList_inj.mp e⟩)
      rw [Trie.find?_insert, if_neg hne]
      exact hfresh b' hb'
    exact ⟨names', by rw [List.foldlM_cons, hadd]; exact h⟩

theorem ofBlocks_ok {blocks : List Block}
    (hbounds : ∀ b ∈ blocks, 1 ≤ b.extent.start ∧ 1 ≤ b.extent.count)
    (hnodup : (blocks.map (·.name)).Nodup) : ∃ ix, ofBlocks blocks = .ok ix := by
  obtain ⟨names, h⟩ := foldlM_addName_ok hbounds hnodup fun b _ => Trie.find?_empty b.name.toList
  exact ⟨⟨blocks, names⟩, by rw [ofBlocks, h]; rfl⟩

section
variable {blocks : List Block} {ix : BlockIndex} (h : ofBlocks blocks = .ok ix)
include h

theorem ofBlocks_added : ix.blocks = blocks ∧ Added .empty blocks ix.names := by
  obtain ⟨names, hn, hix⟩ := bind_eq_ok.mp h
  obtain rfl := pure_eq_ok.mp hix
  exact ⟨rfl, added_of_foldlM hn⟩

/-- The name of a block has its extent. -/
theorem lookup_of_mem {b : Block} (hb : b ∈ blocks) : ix.lookup b.name = b.extent := by
  rw [lookup, (ofBlocks_added h).2.find_mem b hb]
  rfl

/-- A name without a block is absent. -/
theorem lookup_of_notMem {name : String} (hn : name ∉ blocks.map (·.name)) :
    ix.lookup name = absent := by
  rw [lookup, (ofBlocks_added h).2.find_rest name hn, Trie.find?_empty]
  rfl

end

/-! ## blocks one after the other -/

/-- The blocks are not empty and cover the numbers from `start` up to `stop`, each once. -/
def Tiles : Int → List Block → Int → Prop
  | start, [], stop => start = stop
  | start, b :: bs, stop =>
    b.extent.start = start ∧ 1 ≤ b.extent.count ∧ Tiles (start + b.extent.count) bs stop

theorem layOut_names (start : Int) (sizes : List (String × Int)) :
    (layOut start sizes).map (·.name) = sizes.map (·.1) := by
  induction sizes generalizing start with
  | nil => rfl
  | cons p sizes ih => rw [layOut, List.map_cons, List.map_cons, ih]

theorem tiles_layOut (start : Int) (sizes : List (String × Int))
    (h : ∀ b ∈ layOut start sizes, 1 ≤ b.extent.count) :
    Tiles start (layOut start sizes) (start + (sizes.map (·.2)).sum) := by
  induction sizes generalizing start with
  | nil => simp [layOut, Tiles]
  | cons p sizes ih =>
    refine ⟨rfl, h _ List.mem_cons_self, ?_⟩
    have := ih (start + p.2) fun b hb => h b (List.mem_cons_of_mem _ hb)
    rwa [Int.add_assoc] at this

/-- A block starts after all that stands before it. -/
theorem Tiles.start_eq {start stop : Int} {above below : List Block} {b : Block}
    (h : Tiles start (above ++ b :: below) stop) :
    b.extent.start = start + (above.map (·.extent.count)).sum := by
  induction above generalizing start with
  | nil => rw [h.1, List.map_nil, List.sum_nil, Int.add_zero]
  | cons a above ih =>
    rw [ih h.2.2, List.map_cons, List.sum_cons, Int.add_assoc]

end OverloadTables.BlockIndex
