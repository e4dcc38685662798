import OverloadTables.Proofs.BlockIndex
import OverloadTables.Proofs.Grouping
import OverloadTables.Proofs.Tables.Rows
import Mathlib.Data.List.Forall2

/-!
# Every name has its overloads in its block

* `Content.named`, `Content.seenBefore`   the overloads of a name, and how many stand before them;
* `Tables.Records`         a row that says what an overload says;
* `Tables.build_blocks`    the blocks of built tables hold the overloads of their names in order,
                           and tile the overload table.
-/

namespace OverloadTables

namespace Content

/-- The names of overloads in the order of first sight. -/
def names (c : Content) : List LooseText := (c.overloads.map (·.name)).eraseDups

/-- The overloads of a name in order. -/
def named (c : Content) (name : LooseText) : List Overload := c.overloads.filter (·.name = name)

/-- The number of overloads whose name was first seen before `name` was. -/
def seenBefore (c : Content) (name : LooseText) : Nat :=
  let names := c.overloads.map (·.name)
  c.overloads.countP fun o => names.idxOf o.name < names.idxOf name

end Content

namespace Tables

/-- The row says of the overload what the declarations say: its name and extension, the descriptors
of its type keys, and the number of the version it refers to. -/
structure Records (t : Tables) (scope : TypeScope) (versions : List Version) (o : Overload)
    (r : Row) : Prop where
  name : o.name = r.name
  signature : o.signature.map scope.descriptor? = (t.signatureOf r).map some
  extension : o.extension = r.extension
  versionDeclared : ∃ v ∈ versions, o.version = some v.key
  version : ∀ v ∈ versions, o.version = some v.key → r.version = v.number

/-! ## blocks laid out over rows -/

def sizes (f : String → List Row) (names : List String) : List (String × Int) :=
  names.map fun n => (n, ((f n).length : Int))

theorem sum_sizes (f : String → List Row) (names : List String) :
    ((sizes f names).map (·.2)).sum = (names.flatMap f).length := by
  induction names with
  | nil => rfl
  | cons n names ih =>
    show (f n).length + ((sizes f names).map (·.2)).sum = _
    rw [ih, List.flatMap_cons, List.length_append, Int.natCast_add]

theorem sum_counts {t : Tables} {blocks : List Block}
    (h : ∀ b ∈ blocks, ((t.rowsAt b.extent).length : Int) = b.extent.count) :
    (blocks.map (·.extent.count)).sum = (blocks.flatMap fun b => t.rowsAt b.extent).length := by
  induction blocks with
  | nil => rfl
  | cons b blocks ih =>
    obtain ⟨hb, hblocks⟩ := List.forall_mem_cons.mp h
    rw [List.map_cons, List.sum_cons, ih hblocks, ← hb, List.flatMap_cons, List.length_append,
      Int.natCast_add]

theorem mem_layOut_sizes {f : String → List Row} {names : List String} {start : Int} {b : Block} :
    b ∈ BlockIndex.layOut start (sizes f names) ↔ ∃ before after,
      names = before ++ b.name :: after ∧
        b.extent = ⟨start + (before.flatMap f).length, (f b.name).length⟩ := by
  induction names generalizing start with
  | nil => simp [sizes, BlockIndex.layOut]
  | cons n names ih =>
    show b ∈ _ :: BlockIndex.layOut (start + (f n).length) (sizes f names) ↔ _
    rw [List.mem_cons, ih]
    constructor
    · rintro (rfl | ⟨before, after, rfl, he⟩)
      · exact ⟨[], names, rfl, by simp⟩
      · refine ⟨n :: before, after, rfl, ?_⟩
        rw [he, List.flatMap_cons, List.length_append, Int.natCast_add, Int.add_assoc]
    · rintro ⟨before, after, h, he⟩
      cases before with
      | nil =>
        rw [List.nil_append, List.cons.injEq] at h
        obtain ⟨rfl, rfl⟩ := h
        left
        obtain ⟨name, extent⟩ := b
        simpa using he
      | cons m before =>
        rw [List.cons_append, List.cons.injEq] at h
        obtain ⟨rfl, rfl⟩ := h
        refine .inr ⟨before, after, rfl, ?_⟩
        rw [he, List.flatMap_cons, List.length_append, Int.natCast_add, Int.add_assoc]

/-- A block laid out over the rows it counts holds the rows of its name. -/
theorem rowsAt_block {t : Tables} {f : String → List Row} {names : List String} {b : Block}
    (hrows : t.rows = names.flatMap f) (hb : b ∈ BlockIndex.layOut 1 (sizes f names)) :
    t.rowsAt b.extent = f b.name := by
  obtain ⟨before, after, rfl, he⟩ := mem_layOut_sizes.mp hb
  have hstart : ((1 : Int) + (before.flatMap f).length - 1).toNat = (before.flatMap f).length := by
    omega
  simp only [he, rowsAt]
  rw [hrows, hstart, Int.toNat_natCast, List.flatMap_append, List.flatMap_cons, List.drop_left,
    List.take_left]

end Tables

/-! ## the blocks of built tables -/

theorem map_eq_map_of_forall₂ {α β γ : Type} {R : α → β → Prop} {f : α → γ} {g : β → γ}
    {l : List α} {m : List β} (hR : ∀ a b, R a b → f a = g b) (h : List.Forall₂ R l m) :
    l.map f = m.map g := by
  have := List.rel_map (P := (· = ·)) (fun a b => hR a b) h
  rwa [List.forall₂_eq_eq_eq] at this

/-- Rows grouped by name always have an index. -/
theorem groupSizes_index (rows : List Row) :
    ∃ ix, BlockIndex.ofSizes (groupSizes rows) = .ok ix := by
  have hsizes : groupSizes rows = Tables.sizes (fun n => rows.filter (·.name = n))
      (rows.map (·.name)).eraseDups := by
    rw [groupSizes, rowGroups, group_eq, List.map_map]
    rfl
  rw [BlockIndex.ofSizes, hsizes]
  refine BlockIndex.ofBlocks_ok (fun b hb => ?_) ?_
  · obtain ⟨before, after, hsplit, he⟩ := Tables.mem_layOut_sizes.mp hb
    have hname : b.name ∈ (rows.map (·.name)).eraseDups := by
      rw [hsplit]
      exact List.mem_append_right _ List.mem_cons_self
    obtain ⟨r, hr, hrn⟩ := List.mem_map.mp (List.mem_eraseDups.mp hname)
    have hpos : 0 < (rows.filter (·.name = b.name)).length :=
      List.length_pos_of_mem (List.mem_filter.mpr ⟨hr, by simpa using hrn⟩)
    simp only [he]
    omega
  · rw [BlockIndex.layOut_names, Tables.sizes, List.map_map]
    show (List.map id _).Nodup
    rw [List.map_id]
    exact nodup_eraseDups _

namespace Stages

variable {c : Catalog} {t : Tables} (g : Stages c t)

/-- The rows of a name before they were grouped. -/
def rowsNamed (name : String) : List Row := g.rows.filter (·.name = name)

/-- The names of the rows in the order of first sight. -/
def names : List String := (g.rows.map (·.name)).eraseDups

theorem rows_names :
    g.rows.map (fun r => (r.name : LooseText)) = c.content.overloads.map (·.name) :=
  (map_eq_map_of_forall₂ (fun _ _ h => h.name) g.rowsOf).symm

/-- The names of the rows are all the names there are. -/
theorem names_eq : g.names.map LooseText.text = c.content.names := by
  rw [names, ← eraseDups_map LooseText.text_injective, List.map_map]
  exact congrArg List.eraseDups g.rows_names

include g in
theorem names_printable : ∀ o ∈ c.content.overloads, o.name.allPrintable = true := by
  have h := g.rowsOf.imp fun o r h => And.intro h.namePrintable h
  exact ((List.forall₂_and_left _ _).mp h).1

theorem rowGroups_eq : rowGroups g.rows = g.names.map fun n => (n, g.rowsNamed n) := by
  rw [rowGroups, group_eq]
  rfl

theorem rows_table : t.rows = g.names.flatMap g.rowsNamed := by
  rw [g.grouped_eq, rowGroups_eq, List.flatMap_map]

theorem index_blocks : BlockIndex.ofBlocks
    (BlockIndex.layOut 1 (Tables.sizes g.rowsNamed g.names)) = .ok t.index := by
  have h := g.index_eq
  rw [groupSizes, rowGroups_eq, List.map_map] at h
  exact h

theorem blocks_eq :
    t.index.blocks = BlockIndex.layOut 1 (Tables.sizes g.rowsNamed g.names) :=
  (BlockIndex.ofBlocks_added g.index_blocks).1

theorem blocks_map_name : t.index.blocks.map (·.name) = g.names := by
  rw [g.blocks_eq, BlockIndex.layOut_names, Tables.sizes, List.map_map]
  exact List.map_id _

include g in
theorem blocks_names : t.index.blocks.map (fun b => (b.name : LooseText)) = c.content.names := by
  rw [← g.names_eq, ← g.blocks_map_name, List.map_map]
  rfl

include g in
theorem lookup_block {b : Block} (hb : b ∈ t.index.blocks) : t.index.lookup b.name = b.extent :=
  BlockIndex.lookup_of_mem g.index_blocks (g.blocks_eq ▸ hb)

theorem rowsAt_block {b : Block} (hb : b ∈ t.index.blocks) :
    t.rowsAt b.extent = g.rowsNamed b.name :=
  Tables.rowsAt_block g.rows_table (g.blocks_eq ▸ hb)

include g in
/-- A name without overloads is absent. -/
theorem lookup_unnamed {name : String} (h : c.content.named name = []) :
    t.index.lookup name = BlockIndex.absent := by
  refine BlockIndex.lookup_of_notMem g.index_blocks fun hm => ?_
  rw [← g.blocks_eq, g.blocks_map_name] at hm
  have hname : (name : LooseText) ∈ c.content.names := g.names_eq ▸ List.mem_map_of_mem hm
  obtain ⟨o, ho, e⟩ := List.mem_map.mp (List.mem_eraseDups.mp hname)
  have hnamed : o ∈ c.content.named name := List.mem_filter.mpr ⟨ho, decide_eq_true e⟩
  rw [h] at hnamed
  exact nomatch hnamed

include g in
theorem tiles : BlockIndex.Tiles 1 t.index.blocks (1 + t.rows.length) := by
  have hbounds := (BlockIndex.ofBlocks_added g.index_blocks).2.bounds
  have htiles := BlockIndex.tiles_layOut _ _ fun b hb => (hbounds b hb).2
  rwa [Tables.sum_sizes, ← g.rows_table, ← g.blocks_eq] at htiles

include g in
theorem rowsAt_blocks : t.index.blocks.flatMap (fun b => t.rowsAt b.extent) = t.rows := by
  rw [List.flatMap_congr fun b hb => g.rowsAt_block hb, ← List.flatMap_map, g.blocks_map_name,
    g.rows_table]

include g in
theorem rowsAt_name {b : Block} (hb : b ∈ t.index.blocks) :
    ∀ r ∈ t.rowsAt b.extent, r.name = b.name := by
  intro r hr
  rw [g.rowsAt_block hb, rowsNamed, List.mem_filter] at hr
  exact of_decide_eq_true hr.2

include g in
theorem length_rowsAt {b : Block} (hb : b ∈ t.index.blocks) :
    ((t.rowsAt b.extent).length : Int) = b.extent.count := by
  obtain ⟨before, after, -, he⟩ := Tables.mem_layOut_sizes.mp (g.blocks_eq ▸ hb)
  rw [g.rowsAt_block hb, he]

include g in
/-- The rows of a block stand after those of the blocks above it, counted from one. -/
theorem extent_eq {above below : List Block} {b : Block}
    (h : t.index.blocks = above ++ b :: below) : b.extent
      = ⟨1 + (above.flatMap fun a => t.rowsAt a.extent).length, (t.rowsAt b.extent).length⟩ := by
  have hmem : ∀ a ∈ above ++ b :: below, a ∈ t.index.blocks := fun a ha => h ▸ ha
  have htiles := g.tiles
  rw [h] at htiles
  have habove : ∀ a ∈ above, ((t.rowsAt a.extent).length : Int) = a.extent.count := fun a ha =>
    g.length_rowsAt (hmem a (List.mem_append_left _ ha))
  have hb := g.length_rowsAt (hmem b (List.mem_append_right _ List.mem_cons_self))
  rw [← Tables.sum_counts habove, ← htiles.start_eq, hb]

theorem rowsNamed_records (name : String) : List.Forall₂ (t.Records g.scope c.content.versions)
    (c.content.named name) (g.rowsNamed name) := by
  refine (List.rel_filter ?_ g.rowsOf_extension).imp fun o r ⟨h, hextension⟩ => ?_
  · rintro o r ⟨h, -⟩
    simp only [h.name, LooseText.text.injEq]
  · have hv := versionsOf_versions g.versions_eq
    obtain ⟨v, hk, hf, hn⟩ := h.version
    refine ⟨h.name, ?_, hextension, ?_, ?_⟩
    · rw [h.declared, Tables.signatureOf, Tables.run, g.table_eq, g.stores.table, h.length,
        h.starts.take_drop]
    · exact ⟨v, hv.declared v (findVersion?_eq_some hf).1, hk⟩
    · intro w hw hkw
      obtain ⟨x, hx, hxn⟩ := hv.found w hw
      have e : v.key = w.key := Option.some.inj (hk.symm.trans hkw)
      rw [← e, hf, Option.some.injEq] at hx
      rw [hn, hx, hxn]

theorem length_rowsNamed (name : String) :
    (g.rowsNamed name).length = (c.content.named name).length :=
  (g.rowsNamed_records name).length_eq.symm

/-- The rows before the block of a name are those of the names seen before it. -/
theorem length_before {before after : List String} {name : String}
    (h : g.names = before ++ name :: after) :
    (before.flatMap g.rowsNamed).length = c.content.seenBefore name := by
  have hall : c.content.names = before.map .text ++ .text name :: after.map .text := by
    rw [← g.names_eq, h, List.map_append, List.map_cons]
  have hnames : g.names.Nodup := nodup_eraseDups _
  have hnd : before.Nodup := by
    rw [h] at hnames
    exact (List.nodup_append.mp hnames).1
  have hsum : (before.flatMap g.rowsNamed).length
      = g.rows.countP fun r => r.name ∈ before := by
    rw [List.length_flatMap, countP_mem_eq_sum _ _ hnd]
    rfl
  have hmap : ∀ l : List Row, (l.countP fun r => r.name ∈ before)
      = (l.map fun r => (r.name : LooseText)).countP (· ∈ before.map .text) := fun l => by
    rw [List.countP_map]
    refine List.countP_congr fun r _ => ?_
    simp only [Function.comp_apply, decide_eq_true_eq]
    exact (List.mem_map_of_injective LooseText.text_injective).symm
  rw [hsum, hmap, g.rows_names, List.countP_map, Content.seenBefore]
  congr 1
  funext o
  simp only [Function.comp_apply, decide_eq_decide]
  exact (idxOf_lt_iff_mem hall o.name).symm

include g in
/-- A name with overloads has a block, and its place tells what was seen before. -/
theorem named_block {name : String} (h : c.content.named name ≠ []) :
    (⟨name, ⟨1 + c.content.seenBefore name, (c.content.named name).length⟩⟩ : Block)
      ∈ t.index.blocks := by
  obtain ⟨o, ho⟩ := List.exists_mem_of_ne_nil _ h
  obtain ⟨ho, e⟩ := List.mem_filter.mp ho
  have hname : (name : LooseText) ∈ g.names.map .text :=
    g.names_eq ▸ List.mem_eraseDups.mpr (List.mem_map.mpr ⟨o, ho, of_decide_eq_true e⟩)
  obtain ⟨before, after, hsplit⟩ :=
    List.append_of_mem ((List.mem_map_of_injective LooseText.text_injective).mp hname)
  rw [g.blocks_eq]
  refine Tables.mem_layOut_sizes.mpr ⟨before, after, hsplit, ?_⟩
  rw [g.length_before hsplit, g.length_rowsNamed]

/-- The rows of a name are those that were made under it, in the order of declaration. -/
theorem rowsOf_name (name : String) : t.rowsOf name = g.rowsNamed name := by
  by_cases h : c.content.named name = []
  · have hnone : g.rowsNamed name = [] := by
      rw [← List.length_eq_zero_iff, g.length_rowsNamed, h, List.length_nil]
    rw [Tables.rowsOf, g.lookup_unnamed h, hnone]
    exact List.take_zero
  · have hb := g.named_block h
    rw [Tables.rowsOf, g.lookup_block hb, g.rowsAt_block hb]

end Stages

namespace Tables

/-- **Every name has its overloads in its block.**  A name without overloads is absent and has no
rows.  Any other starts one after the overloads of the names first seen before it, and has a row
for each of its overloads, in order.  The blocks, one a name, cover the rows exactly. -/
theorem build_blocks {c : Catalog} {t : Tables} (h : Tables.build c = .ok t) :
    ∃ scope, TypeScope.ofDeclared c.types = .ok scope ∧
      (∀ name : String, c.content.named name = [] →
        t.index.lookup name = ⟨0, 0⟩ ∧ t.rowsOf name = []) ∧
      (∀ name : String, c.content.named name ≠ [] →
        t.index.lookup name
            = ⟨1 + c.content.seenBefore name, (c.content.named name).length⟩ ∧
          List.Forall₂ (t.Records scope c.content.versions) (c.content.named name)
            (t.rowsOf name)) ∧
      t.index.blocks.map (fun b => (b.name : LooseText)) = c.content.names ∧
      (∀ b ∈ t.index.blocks, t.index.lookup b.name = b.extent) ∧
      BlockIndex.Tiles 1 t.index.blocks (1 + t.rows.length) ∧
      t.index.blocks.flatMap (fun b => t.rowsAt b.extent) = t.rows := by
  obtain ⟨g⟩ := build_eq_ok.mp h
  refine ⟨g.scope, g.scope_eq, ?_, ?_, g.blocks_names, fun b hb => g.lookup_block hb, g.tiles,
    g.rowsAt_blocks⟩
  · intro name hnone
    have habsent := g.lookup_unnamed hnone
    refine ⟨habsent, ?_⟩
    rw [rowsOf, habsent]
    exact List.take_zero
  · intro name hsome
    have hb := g.named_block hsome
    have hlookup := g.lookup_block hb
    refine ⟨hlookup, ?_⟩
    rw [rowsOf, hlookup, g.rowsAt_block hb]
    exact g.rowsNamed_records name

/-- Overloads of `max` on both sides of one of `min`, the two of `max` with one signature. -/
def interleaved : Catalog where
  types := [⟨⟨"f", "float", 0, .default, false, some "Float"⟩, .root none⟩,
    ⟨⟨"f4", "float", 4, .default, false, some "Float"⟩, .root none⟩]
  overloads := [⟨⟨"max", ["f", "f", "f"], some "CL10", ""⟩, .root none⟩,
    ⟨⟨"min", ["f4", "f4"], some "CL20", "ext"⟩, .root none⟩,
    ⟨⟨"max", ["f", "f", "f"], some "CL20", ""⟩, .root none⟩]
  versions := [⟨⟨"CL10", 100⟩, .root none⟩, ⟨⟨"CL20", 200⟩, .root none⟩]
  label := none
  file := none

set_option maxRecDepth 4000 in
theorem interleaved_builds : ∃ t, Tables.build interleaved = .ok t := ⟨_, rfl⟩

theorem build_blocks_interleaved :
    ∃ t scope, Tables.build interleaved = .ok t ∧
      TypeScope.ofDeclared interleaved.types = .ok scope ∧
      t.index.lookup "max" = ⟨1, 2⟩ ∧ t.index.lookup "min" = ⟨3, 1⟩ ∧
      t.index.lookup "ma" = ⟨0, 0⟩ ∧ t.rowsOf "ma" = [] ∧
      List.Forall₂ (t.Records scope interleaved.content.versions)
        (interleaved.content.named "max") (t.rowsOf "max") ∧
      BlockIndex.Tiles 1 t.index.blocks (1 + t.rows.length) := by
  obtain ⟨t, h⟩ := interleaved_builds
  obtain ⟨scope, hscope, hnone, hsome, -, -, htiles, -⟩ := build_blocks h
  have hmax := hsome "max" (by decide)
  have hmin := hsome "min" (by decide)
  have hma := hnone "ma" (by decide)
  exact ⟨t, scope, h, hscope, hmax.1, hmin.1, hma.1, hma.2, hmax.2, htiles⟩

end Tables
end OverloadTables
