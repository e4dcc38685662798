import OverloadTables.Proofs.Document.Json
import OverloadTables.Proofs.Document.Label
import OverloadTables.Proofs.Document.Projector
import OverloadTables.Proofs.Document.Rows

/-!
# The module and the document carry the tables

* `Source.linesBelow`      the lines of a module, part by part;
* `Source.readModule_render`   the text of the module says what it is to say;
* `Source.Carries t m`     the module `m` has the tables `t`;
* `Source.Agrees m d`      the document `d` has the rows of the module `m` at the same places;
* `Source.render_tables`   both hold of what is written for the tables of a catalog.
-/

namespace OverloadTables.Source

open Script

/-! ## the outline -/

theorem inner_memberBody (bases : List BaseType) : Inner (memberBody bases) := by
  rw [memberBody]
  split
  · intro l hl
    obtain rfl := List.mem_singleton.mp hl
    rfl
  · intro l hl
    rw [memberLines_eq] at hl
    obtain ⟨p, -, rfl⟩ := List.mem_map.mp hl
    simp only [String.append_assoc]
    exact isOuter_append _ _ _

theorem inner_runRows (t : Tables) : Inner (t.runs.flatMap (runRows t)) := by
  intro l hl
  obtain ⟨r, -, hl⟩ := List.mem_flatMap.mp hl
  rcases List.mem_cons.mp hl with rfl | hl
  · exact isOuter_append _ _ _
  · obtain ⟨d, -, rfl⟩ := List.mem_map.mp hl
    rw [descriptorRow]
    unfold descriptorText
    simp only [String.append_assoc]
    exact isOuter_append _ _ _

theorem inner_blockLines (t : Tables) : Inner (t.index.blocks.flatMap (blockLines t)) := by
  intro l hl
  obtain ⟨b, -, hl⟩ := List.mem_flatMap.mp hl
  rcases List.mem_cons.mp hl with rfl | hl
  · exact isOuter_append _ _ _
  · obtain ⟨r, -, rfl⟩ := List.mem_map.mp hl
    unfold rowLine
    simp only [String.append_assoc]
    exact isOuter_append _ _ _

theorem inner_clauseLines (opens : Bool) (pairs : List (String × String)) :
    Inner (clauseLines opens pairs) := by
  induction pairs generalizing opens with
  | nil => exact fun l hl => absurd hl List.not_mem_nil
  | cons p pairs ih =>
    obtain ⟨name, concrete⟩ := p
    have hclause : isOuter ("\t" ++ (if opens then "if" else "elif") ++ " ty.type_id == TypeID."
        ++ name ++ ":") = false := by
      simp only [String.append_assoc]
      exact isOuter_append _ _ _
    have hbuiltin : isOuter ("\t\trt = ctx.ensure_builtin(" ++ Text.quote concrete ++ ")")
        = false := by
      simp only [String.append_assoc]
      exact isOuter_append _ _ _
    exact List.forall_mem_cons.mpr ⟨hclause, List.forall_mem_cons.mpr ⟨hbuiltin, ih false⟩⟩

theorem inner_dispatchBody {ix : BlockIndex} {body : List String} (h : dispatchBody ix = .ok body) :
    Inner body := by
  rw [dispatchBody] at h
  split at h
  · obtain rfl := Except.ok.inj h
    exact fun l hl => absurd hl List.not_mem_nil
  · obtain ⟨ls, hls, h⟩ := bind_eq_ok.mp h
    obtain rfl := pure_eq_ok.mp h
    rw [mapError_eq_ok, Dispatch.render] at hls
    refine List.forall_mem_append.mpr ⟨by decide, ?_⟩
    cases hlines : Dispatch.lines (dispatchCases ix) with
    | error e =>
      rw [hlines] at hls
      cases hls
    | ok lines =>
      rw [hlines] at hls
      obtain rfl := Except.ok.inj hls
      intro l hl
      obtain ⟨line, -, rfl⟩ := List.mem_map.mp hl
      simp only [Dispatch.Line.render, dispatchNames, String.append_assoc]
      exact isOuter_append _ _ _

theorem filter_imports : imports.filter isOuter = outline.take 4 :=
  filter_cons_blank <| filter_cons_outer rfl <| filter_cons_blank <| filter_cons_outer rfl <|
    filter_cons_outer rfl <| filter_cons_blank <| filter_cons_outer rfl <| filter_cons_blank rfl

theorem filter_recordTypes : recordTypes.filter isOuter
    = ["class SignatureType(NamedTuple):", "class BuiltinDecl(NamedTuple):"] :=
  filter_cons_blank <| filter_cons_blank <|
    filter_cons_outer rfl <| filter_cons_inner rfl <| filter_cons_blank <|
    filter_cons_inner rfl <| filter_cons_inner rfl <| filter_cons_inner rfl <|
    filter_cons_inner rfl <| filter_cons_inner rfl <| filter_cons_inner rfl <|
    filter_cons_inner rfl <| filter_cons_inner rfl <| filter_cons_blank <| filter_cons_blank <|
    filter_cons_outer rfl <| filter_cons_inner rfl <| filter_cons_blank <|
    filter_cons_inner rfl <| filter_cons_inner rfl <| filter_cons_inner rfl <|
    filter_cons_inner rfl <| filter_cons_inner rfl <| filter_cons_inner rfl <|
    filter_cons_inner rfl <| filter_cons_inner rfl <| filter_cons_blank rfl

theorem filter_enumeration (bases : List BaseType) :
    (enumeration bases).filter isOuter = [enumerationHead] := by
  have hlines : enumeration bases = ["", enumerationHead] ++ memberBody bases := rfl
  rw [hlines, List.filter_append, (inner_memberBody bases).filter, List.append_nil]
  exact filter_cons_blank (filter_cons_outer rfl rfl)

/-- The lines of a table: its head, its rows and the end. -/
theorem filter_table {c : Char} {cs : List Char} {rows : List String}
    (hc : (c ≠ '\t' && c ≠ '#') = true) (h : Inner rows) :
    (["", String.ofList (c :: cs)] ++ rows ++ [")", ""]).filter isOuter
      = [String.ofList (c :: cs), ")"] := by
  have hend : [")", ""].filter isOuter = [")"] := filter_cons_outer rfl (filter_cons_blank rfl)
  rw [List.filter_append, List.filter_append, h.filter, List.append_nil,
    filter_cons_blank (filter_cons_outer hc rfl), hend]
  rfl

theorem filter_dispatcher {ix : BlockIndex} {ls : List String} (h : dispatcher ix = .ok ls) :
    ls.filter isOuter = ["def is_builtin(name: str) -> Tuple[int, int]:"] := by
  obtain ⟨body, hbody, h⟩ := bind_eq_ok.mp h
  obtain rfl := pure_eq_ok.mp h
  have hopening : opening.filter isOuter = ["def is_builtin(name: str) -> Tuple[int, int]:"] :=
    filter_cons_blank <| filter_cons_outer rfl <| filter_cons_inner rfl <|
      filter_cons_inner rfl <| filter_cons_inner rfl <| filter_cons_inner rfl rfl
  have hfinish : finish.filter isOuter = [] := filter_cons_inner rfl (filter_cons_blank rfl)
  rw [List.filter_append, List.filter_append, (inner_dispatchBody hbody).filter]
  show opening.filter isOuter ++ [] ++ finish.filter isOuter = _
  rw [hopening, hfinish]
  rfl

theorem filter_projector (bases : List BaseType) : (projector bases).filter isOuter
    = ["def project_type(ctx: Any, ty: SignatureType) -> Any:"] := by
  rw [projector, concreteChain_eq, List.filter_append, List.filter_append,
    (inner_clauseLines true (concretePairs bases)).filter, List.append_nil]
  rw [filter_cons_blank (filter_cons_outer rfl (filter_cons_inner rfl (filter_cons_inner rfl rfl)))]
  refine congrArg (_ :: ·) ?_
  exact filter_cons_blank <| filter_cons_inner rfl <| filter_cons_inner rfl <|
    filter_cons_blank <| filter_cons_inner rfl <| filter_cons_inner rfl <|
    filter_cons_inner rfl <| filter_cons_blank <| filter_cons_inner rfl rfl

/-! ## the module -/

/-- The lines of a module with `top` above its imports. -/
def linesBelow (top : List String) (t : Tables) (dispatch : List String) : List String :=
  top ++ (imports ++ ((enumeration t.bases ++ recordTypes)
    ++ ((["", signatureHead] ++ t.runs.flatMap (runRows t) ++ [")", ""])
    ++ (overloadTable t ++ (dispatch ++ (projector t.bases ++ [""]))))))

section
variable {top : List String} {t : Tables} {dispatch : List String}

theorem filter_linesBelow (htop : Inner top) (hdispatch : dispatcher t.index = .ok dispatch) :
    (linesBelow top t dispatch).filter isOuter = outline := by
  have hsignatures : (["", signatureHead] ++ t.runs.flatMap (runRows t) ++ [")", ""]).filter isOuter
      = [signatureHead, ")"] := filter_table rfl (inner_runRows t)
  have hoverloads : (overloadTable t).filter isOuter = [overloadHead, ")"] :=
    filter_table rfl (inner_blockLines t)
  have hend : [""].filter isOuter = [] := filter_cons_blank rfl
  rw [linesBelow, List.filter_append, htop.filter, List.filter_append, filter_imports,
    List.filter_append, List.filter_append, filter_enumeration, filter_recordTypes,
    List.filter_append, hsignatures, List.filter_append, hoverloads, List.filter_append,
    filter_dispatcher hdispatch, List.filter_append, filter_projector, hend]
  rfl

theorem hasPart_memberBody (bases : List BaseType) : HasPart enumerationHead
    (memberBody bases ++ ["", ""]) (enumeration bases ++ recordTypes) :=
  ⟨[""], "class SignatureType(NamedTuple):", recordTypes.drop 3, by
    rw [List.append_assoc]
    rfl, rfl⟩

theorem hasPart_enumeration :
    HasPart enumerationHead (memberBody t.bases ++ ["", ""]) (linesBelow top t dispatch) := by
  have := (hasPart_memberBody t.bases).append (top ++ imports) ((["", signatureHead]
    ++ t.runs.flatMap (runRows t) ++ [")", ""])
    ++ (overloadTable t ++ (dispatch ++ (projector t.bases ++ [""]))))
  rwa [List.append_assoc] at this

theorem hasPart_runRows (t : Tables) : HasPart signatureHead (t.runs.flatMap (runRows t))
    (["", signatureHead] ++ t.runs.flatMap (runRows t) ++ [")", ""]) :=
  ⟨[""], ")", [""], List.append_assoc .., rfl⟩

theorem hasPart_signatures :
    HasPart signatureHead (t.runs.flatMap (runRows t)) (linesBelow top t dispatch) := by
  have := (hasPart_runRows t).append (top ++ (imports ++ (enumeration t.bases ++ recordTypes)))
    (overloadTable t ++ (dispatch ++ (projector t.bases ++ [""])))
  rw [List.append_assoc, List.append_assoc] at this
  exact this

theorem hasPart_overloads :
    HasPart overloadHead (t.index.blocks.flatMap (blockLines t)) (linesBelow top t dispatch) := by
  have hpart : HasPart overloadHead (t.index.blocks.flatMap (blockLines t)) (overloadTable t) :=
    ⟨[""], ")", [""], List.append_assoc .., rfl⟩
  have := hpart.append (top ++ (imports ++ ((enumeration t.bases ++ recordTypes)
    ++ (["", signatureHead] ++ t.runs.flatMap (runRows t) ++ [")", ""]))))
    (dispatch ++ (projector t.bases ++ [""]))
  rw [List.append_assoc, List.append_assoc, List.append_assoc] at this
  exact this

theorem readModule_linesBelow (htop : Inner top) (hdispatch : dispatcher t.index = .ok dispatch)
    (h : ∀ b ∈ t.bases, Text.isIdentifier b.name = true) (hnodup : (t.bases.map (·.name)).Nodup)
    (hd : ∀ d ∈ t.signatureTable, HasBase t.bases d) {text : String}
    (hlines : moduleLines text = linesBelow top t dispatch) :
    readModule text = some (moduleOf t) := by
  have hfilter := filter_linesBelow htop hdispatch
  have honce : ∀ head, outline.count head = 1 →
      ((linesBelow top t dispatch).filter isOuter).count head = 1 := fun head hc => by
    rwa [hfilter]
  have hblank : Inner (memberBody t.bases ++ ["", ""]) :=
    List.forall_mem_append.mpr ⟨inner_memberBody t.bases, by decide⟩
  have hmembers := hasPart_enumeration.bodyOf? hblank (by decide) (honce enumerationHead (by decide))
  have hsignatures :=
    hasPart_signatures.bodyOf? (inner_runRows t) (by decide) (honce signatureHead (by decide))
  have hoverloads :=
    hasPart_overloads.bodyOf? (inner_blockLines t) (by decide) (honce overloadHead (by decide))
  have hread : members? (memberBody t.bases ++ ["", ""]) = some (moduleOf t).members :=
    members?_memberBody h ["", ""] rfl
  rw [readModule, hlines]
  simp only [hfilter, hmembers, hsignatures, hoverloads, hread, table?_runRows h hnodup hd,
    table?_blockLines, Option.bind_eq_bind, Option.bind_some, ↓reduceIte]

end

theorem inner_labelLine (label : Option String) : Inner (labelLine label) := by
  cases label with
  | none => exact fun l hl => absurd hl List.not_mem_nil
  | some label =>
    rw [labelLine]
    split
    · exact fun l hl => absurd hl List.not_mem_nil
    · intro l hl
      obtain rfl := List.mem_singleton.mp hl
      exact isOuter_append _ _ _

theorem lined_labelLine {label : Option String}
    (h : ∀ s ∈ label, Text.OneLine s.toList) : Lined (labelLine label) := by
  cases label with
  | none => exact lined_nil
  | some label =>
    rw [labelLine]
    split
    · exact lined_nil
    · exact lined_cons.mpr
        ⟨Text.oneLine_str.mpr ⟨Text.oneLine_ofList (by decide), h label rfl⟩, lined_nil⟩

/-- What stands above the imports of a module. -/
def heading (t : Tables) : List String :=
  title :: (labelLine t.label ++ [fingerprintLine t.fingerprint])

theorem inner_heading (t : Tables) : Inner (heading t) := by
  have hfingerprint : isOuter (fingerprintLine t.fingerprint) = false := isOuter_append _ _ _
  exact List.forall_mem_cons.mpr ⟨rfl, List.forall_mem_append.mpr
    ⟨inner_labelLine t.label, List.forall_mem_singleton.mpr hfingerprint⟩⟩

/-- The lines of the module, with an empty one after them. -/
theorem lines_linesBelow {c : Catalog} {t : Tables} (g : Stages c t) {rest dispatch : List String}
    (hbelow : below t = .ok rest) (hdispatch : dispatcher t.index = .ok dispatch) :
    title :: (labelLine t.label ++ fingerprintLine t.fingerprint :: rest) ++ [""]
      = linesBelow (heading t) t dispatch := by
  have hrest : rest = imports ++ enumeration t.bases ++ recordTypes
      ++ (["", signatureHead] ++ t.runs.flatMap (runRows t) ++ [")", ""])
      ++ overloadTable t ++ dispatch ++ projector t.bases := by
    rw [below, signatureTable_eq (signatureTable_bases g), hdispatch] at hbelow
    exact (Except.ok.inj hbelow).symm
  rw [hrest, linesBelow, heading]
  simp only [List.append_assoc, List.cons_append, List.nil_append]

/-- The lines of the text, of which the empty one stands after its last line end. -/
theorem moduleLines_render {c : Catalog} {t : Tables} (g : Stages c t)
    (hlabel : ∀ label ∈ t.label, Text.OneLine label.toList) :
    ∃ text dispatch, render t = .ok text ∧ dispatcher t.index = .ok dispatch ∧
      moduleLines text = linesBelow (heading t) t dispatch := by
  obtain ⟨dispatch, hdispatch, -⟩ := dispatcher_lined g.index_blocks
  obtain ⟨rest, hbelow, hlined⟩ := below_ok g
  have hone : Lined (title :: (labelLine t.label ++ fingerprintLine t.fingerprint :: rest)) := by
    have hmark : Text.OneLine "# catalog sha256: ".toList := Text.oneLine_ofList (by decide)
    refine lined_cons.mpr ⟨oneLine_title, lined_append.mpr ⟨lined_labelLine hlabel, ?_⟩⟩
    exact lined_cons.mpr ⟨Text.oneLine_str.mpr ⟨hmark, oneLine_fingerprint g⟩, hlined⟩
  refine ⟨_, dispatch, render_eq_ok hbelow, hdispatch, ?_⟩
  rw [textOf, moduleLines_ended (Text.joinLines_toList _ _) hone,
    lines_linesBelow g hbelow hdispatch]

/-- **The text of the module says what it is to say**, if the label has no line end. -/
theorem readModule_render {c : Catalog} {t : Tables} (g : Stages c t)
    (hlabel : ∀ label ∈ t.label, Text.OneLine label.toList) :
    ∃ text, render t = .ok text ∧ readModule text = some (moduleOf t) := by
  obtain ⟨text, dispatch, hrender, hdispatch, hlines⟩ := moduleLines_render g hlabel
  exact ⟨text, hrender, readModule_linesBelow (inner_heading t) hdispatch (bases_identifiers g)
    (bases_nodup g) (signatureTable_bases g) hlines⟩

/-! ## what the module and the document say -/

/-- The module has the tables: the base types as members numbered from zero, and the rows of both
tables field by field and in order. -/
structure Carries (t : Tables) (m : Module) : Prop where
  members : m.members = t.bases.zipIdx.map fun p => (member p.1.name, p.2)
  signatureTable : m.signatureTable = t.signatureTable
  rows : m.decls = t.rows.map declOf
  /-- A mark says how many rows stand above it. -/
  marks : ∀ above k rows below, m.signatures = above ++ (k, rows) :: below →
    k = (above.flatMap (·.2)).length
  names : m.overloads.map (·.1) = t.index.blocks.map (·.name)
  /-- A name stands before exactly the rows that it is looked up for. -/
  extents : ∀ above name rows below, m.overloads = above ++ (name, rows) :: below →
    t.index.lookup name = ⟨1 + (above.flatMap (·.2)).length, rows.length⟩ ∧
      rows = (t.rowsOf name).map declOf

/-- The document has the base types, the rows and the blocks of the module, each at its place. -/
structure Agrees (m : Module) (d : Document) : Prop where
  bases : d.bases.map (fun p => (p.1, member p.2)) = m.members.map fun p => ((p.2 : Int), p.1)
  signatureTable : d.signatureTable = m.signatureTable
  rows : d.rows = m.rows
  names : d.blocks.map (·.name) = m.overloads.map (·.1)
  extents : ∀ above name rows below, m.overloads = above ++ (name, rows) :: below →
    d.blocks[above.length]? = some ⟨name, 1 + (above.flatMap (·.2)).length, rows.length⟩

section
variable {c : Catalog} {t : Tables} (g : Stages c t)
include g

theorem moduleOf_overloads {above below : List (String × List Decl)} {name : String}
    {rows : List Decl} (h : (moduleOf t).overloads = above ++ (name, rows) :: below) :
    ∃ b ∈ t.index.blocks, b.name = name ∧ t.index.blocks[above.length]? = some b ∧
      rows = (t.rowsAt b.extent).map declOf ∧
      b.extent = ⟨1 + (above.flatMap (·.2)).length, rows.length⟩ := by
  obtain ⟨before, rest, hblocks, rfl, hrest⟩ := List.map_eq_append_iff.mp h
  obtain ⟨b, after, rfl, hb, rfl⟩ := List.map_eq_cons_iff.mp hrest
  rw [Prod.mk.injEq] at hb
  obtain ⟨rfl, rfl⟩ := hb
  have hlength : ((before.map fun b => (b.name, (t.rowsAt b.extent).map declOf)).flatMap
      (·.2)).length = (before.flatMap fun a => t.rowsAt a.extent).length := by
    rw [List.flatMap_map, ← List.map_flatMap, List.length_map]
  refine ⟨b, ?_, rfl, ?_, rfl, ?_⟩
  · rw [hblocks]
    exact List.mem_append_right _ List.mem_cons_self
  · rw [hblocks, List.length_map, List.getElem?_append_right (Nat.le_refl _), Nat.sub_self]
    rfl
  · rw [hlength, List.length_map]
    exact g.extent_eq hblocks

theorem carries_moduleOf : Carries t (moduleOf t) where
  members := rfl
  signatureTable := by
    show (t.runs.map fun r => (r.start, t.run r)).flatMap (·.2) = _
    rw [List.flatMap_map]
    exact g.runs_flatMap
  rows := by
    show (t.index.blocks.map fun b => (b.name, (t.rowsAt b.extent).map declOf)).flatMap (·.2) = _
    rw [List.flatMap_map, ← List.map_flatMap, g.rowsAt_blocks]
  marks := by
    intro above k rows below h
    obtain ⟨before, rest, hruns, rfl, hrest⟩ := List.map_eq_append_iff.mp h
    obtain ⟨r, after, rfl, hr, -⟩ := List.map_eq_cons_iff.mp hrest
    rw [Prod.mk.injEq] at hr
    rw [← hr.1, g.run_start hruns, List.flatMap_map]
  names := by
    show (t.index.blocks.map fun b => (b.name, _)).map (·.1) = _
    rw [List.map_map]
    rfl
  extents := by
    intro above name rows below h
    obtain ⟨b, hb, rfl, -, hrows, hextent⟩ := moduleOf_overloads g h
    have hlookup := g.lookup_block hb
    rw [Tables.rowsOf, hlookup]
    exact ⟨hextent, hrows⟩

theorem moduleOf_rows : (moduleOf t).rows = t.rows := by
  show (t.index.blocks.map fun b => (b.name, (t.rowsAt b.extent).map declOf)).flatMap _ = _
  rw [List.flatMap_map, ← g.rowsAt_blocks]
  refine List.flatMap_congr fun b hb => ?_
  show ((t.rowsAt b.extent).map declOf).map _ = _
  rw [List.map_map]
  refine (List.map_congr_left fun r hr => ?_).trans (List.map_id _)
  show (⟨b.name, r.start, r.length, r.extension, r.version⟩ : Row) = r
  rw [← g.rowsAt_name hb r hr]

theorem agrees_moduleOf : Agrees (moduleOf t)
    ⟨t.bases.zipIdx.map fun p => ((p.2 : Int), p.1.name), t.signatureTable, t.rows,
      t.index.blocks⟩ where
  bases := by
    show _ = (t.bases.zipIdx.map fun p => (member p.1.name, p.2)).map _
    rw [List.map_map, List.map_map]
    rfl
  signatureTable := (carries_moduleOf g).signatureTable.symm
  rows := (moduleOf_rows g).symm
  names := (carries_moduleOf g).names.symm
  extents := by
    intro above name rows below h
    obtain ⟨b, -, rfl, hget, -, hextent⟩ := moduleOf_overloads g h
    rw [hget, ← hextent]

end

/-- **Writing the tables of a catalog loses nothing.**  If the label has no line end, the text of
the module can be read, as can the document; what the module says are the tables, and the document
says the same at the same places. -/
theorem render_tables {c : Catalog} {t : Tables} (h : Tables.build c = .ok t)
    (hlabel : ∀ label : LooseText, c.label = some label → label.OneLine) :
    ∃ text m d, render t = .ok text ∧ readModule text = some m ∧
      Document.ofJson? t.toJson = some d ∧ Carries t m ∧ Agrees m d := by
  obtain ⟨g⟩ := Tables.build_eq_ok.mp h
  have hwritten : ∀ label ∈ t.label, Text.OneLine label.toList := fun label hmem =>
    LooseText.oneLine_text.mp (hlabel label (by rw [g.label, Option.mem_def.mp hmem]; rfl))
  obtain ⟨text, hrender, hread⟩ := readModule_render g hwritten
  exact ⟨text, moduleOf t, _, hrender, hread, t.ofJson?_toJson, carries_moduleOf g,
    agrees_moduleOf g⟩

/-- Two names with their overloads mixed, under a label. -/
def labelled : Catalog := { Tables.interleaved with label := some "core" }

set_option maxRecDepth 4000 in
theorem render_tables_labelled : ∃ t text m d, Tables.build labelled = .ok t ∧
    render t = .ok text ∧ readModule text = some m ∧ Document.ofJson? t.toJson = some d ∧
      Carries t m ∧ Agrees m d ∧ m.members = [("T_float", 0)] ∧
      m.decls = [⟨3, 0, "", 100⟩, ⟨3, 0, "", 200⟩, ⟨2, 3, "ext", 200⟩] := by
  obtain ⟨t, h, hbases, hrows⟩ : ∃ t, Tables.build labelled = .ok t ∧
      t.bases = [⟨"float", some "Float"⟩] ∧
      t.rows.map declOf = [⟨3, 0, "", 100⟩, ⟨3, 0, "", 200⟩, ⟨2, 3, "ext", 200⟩] :=
    ⟨_, rfl, rfl, rfl⟩
  have hlabel : ∀ label, labelled.label = some label → label.OneLine := by
    rintro label hcore
    obtain rfl := Option.some.inj hcore
    decide
  obtain ⟨text, m, d, hrender, hread, hdocument, hcarries, hagrees⟩ := render_tables h hlabel
  refine ⟨t, text, m, d, h, hrender, hread, hdocument, hcarries, hagrees, ?_, ?_⟩
  · rw [hcarries.members, hbases]
    rfl
  · rw [hcarries.rows, hrows]

end OverloadTables.Source
