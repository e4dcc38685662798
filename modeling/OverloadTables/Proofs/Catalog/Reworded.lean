import OverloadTables.Catalog.Encode
import OverloadTables.Proofs.Catalog.Wording
import OverloadTables.Tables.Build
import Mathlib.Logic.Relation

/-!
# Other wordings of a document

A document is reworded by changes of the whole object and of the entries of its sections.

* `RewordsDocument v w`    one change of the wording of a document;
* `readItems_reworded`     a section with an entry in another wording;
* `RewordsDocument.reads`  one change does not matter to a document that is read;
* `ofJson_reworded`        neither do any number of changes, there and back.
-/

namespace OverloadTables.Catalog

/-- The sections, and what is read of their entries. -/
def sectionSchemas : List (String × Schema) :=
  [("versions", versionSchema), ("types", typeSchema), ("builtins", overloadSchema)]

/-- One change of the wording of a document: of the whole object or of an entry of a section. -/
inductive RewordsDocument : Json → Json → Prop where
  | whole {ms ns : Members} (h : Rewords catalogSchema ms ns) : RewordsDocument (.obj ms) (.obj ns)
  | entry {kind : String} {k : Schema} (hkind : (kind, k) ∈ sectionSchemas) {ms ns : Members}
      (h : Rewords k ms ns) (a b : Members) (before after : List Json) :
      RewordsDocument (.obj (a ++ (LooseText.text kind, .arr (before ++ .obj ms :: after)) :: b))
        (.obj (a ++ (LooseText.text kind, .arr (before ++ .obj ns :: after)) :: b))

/-! ## sections -/

section
variable {α : Type} (read : Members → Place → Decoded α) (kind : String) (place : Place)

/-- The records of the items of a section, of which the first is item `i`. -/
def readItems (i : Nat) (vs : List Json) : Decoded (List (Located α)) :=
  entriesFrom kind place i vs >>= fun es => es.mapM (readEntry read)

theorem readItems_cons {i : Nat} {ms : Members} {vs : List Json} {l : List (Located α)} :
    readItems read kind place i (.obj ms :: vs) = .ok l ↔
      ∃ a, read ms (place.item i) = .ok a ∧ ∃ rest, readItems read kind place (i + 1) vs = .ok rest ∧
        ⟨a, place.item i⟩ :: rest = l := by
  unfold readItems
  rw [entriesFrom, bind_assoc, bind_eq_ok]
  constructor
  · rintro ⟨es, hes, h⟩
    have hmap : ((⟨ms, place.item i⟩ :: es).mapM (readEntry read)) = .ok l := h
    rw [List.mapM_cons] at hmap
    obtain ⟨⟨a, p⟩, hentry, hmap⟩ := bind_eq_ok.mp hmap
    obtain ⟨rest, hrest, hmap⟩ := bind_eq_ok.mp hmap
    obtain ⟨hread, rfl⟩ := readEntry_eq_ok.mp hentry
    exact ⟨a, hread, rest, bind_eq_ok.mpr ⟨es, hes, hrest⟩, pure_eq_ok.mp hmap⟩
  · rintro ⟨a, hread, rest, hitems, rfl⟩
    obtain ⟨es, hes, hrest⟩ := bind_eq_ok.mp hitems
    refine ⟨es, hes, ?_⟩
    show (_ :: es).mapM (readEntry read) = _
    rw [List.mapM_cons]
    exact bind_eq_ok.mpr ⟨⟨a, _⟩, readEntry_eq_ok.mpr ⟨hread, rfl⟩,
      bind_eq_ok.mpr ⟨rest, hrest, rfl⟩⟩

variable {read} {ms ns : Members} (h : ∀ place, SameAnswers (read ms place) (read ns place))
include h

/-- An entry in another wording gives the same record. -/
theorem readItems_reworded (before after : List Json) (i : Nat) :
    SameAnswers (readItems read kind place i (before ++ .obj ms :: after))
      (readItems read kind place i (before ++ .obj ns :: after)) := by
  induction before generalizing i with
  | nil =>
    intro l
    rw [List.nil_append, List.nil_append, readItems_cons, readItems_cons]
    exact exists_congr fun a => and_congr_left fun _ => h _ a
  | cons x before ih =>
    cases x with
    | obj entry =>
      intro l
      rw [List.cons_append, List.cons_append, readItems_cons, readItems_cons]
      exact exists_congr fun a => and_congr_right fun _ =>
        exists_congr fun rest => and_congr_left fun _ => ih (i + 1) rest
    | _ => exact .of_eq rfl

end

theorem records_eq {α : Type} (read : Members → Place → Decoded α) {ms : Members} {kind : String}
    {root : Place} {vs : List Json} (h : ms.get? kind = some (.arr vs)) :
    records read ms kind root = readItems read kind (root.member kind) 0 vs := by
  unfold records entries
  rw [h]
  rfl

theorem records_congr {α : Type} (read : Members → Place → Decoded α) {ms ns : Members}
    {kind : String} (root : Place) (h : ms.get? kind = ns.get? kind) :
    records read ms kind root = records read ns kind root := by
  unfold records entries
  rw [h]

/-- A section that is left out reads as an empty one. -/
theorem records_alike {α : Type} (read : Members → Place → Decoded α) {ms ns : Members}
    {kind : String} (root : Place) (hkind : kind ≠ spaceKey)
    (hdefaults : ∀ v, (LooseText.text kind, v) ∈ catalogSchema.defaults → v = .arr [])
    (h : Alike catalogSchema kind (ms.get? kind) (ns.get? kind)) :
    records read ms kind root = records read ns kind root := by
  refine h.read_eq hkind (records read · kind root) (records_congr read root) fun v hv => ?_
  obtain rfl := hdefaults v hv
  rw [records_eq read (Members.get?_singleton kind _)]
  rfl

section
variable {α : Type} {read : Members → Place → Decoded α} {kind kind' : String} {ms ns : Members}

/-- The sections of a document with an entry in another wording. -/
theorem records_reworded
    (h : kind' = kind → ∀ place, SameAnswers (read ms place) (read ns place)) (root : Place)
    (a b : Members) (before after : List Json) :
    SameAnswers
      (records read (a ++ (LooseText.text kind, .arr (before ++ .obj ms :: after)) :: b) kind' root)
      (records read (a ++ (LooseText.text kind, .arr (before ++ .obj ns :: after)) :: b) kind'
        root) := by
  by_cases hkind : kind' = kind
  · subst hkind
    cases ha : a.get? kind' with
    | none =>
      have hfound (vs : List Json) :
          Members.get? kind' (a ++ (LooseText.text kind', .arr vs) :: b) = some (.arr vs) := by
        rw [Members.get?_append, ha, Option.none_or, Members.get?_cons, if_pos rfl]
      rw [records_eq read (hfound _), records_eq read (hfound _)]
      exact readItems_reworded _ _ (h rfl) before after 0
    | some x =>
      refine .of_eq (records_congr read root ?_)
      rw [Members.get?_append, Members.get?_append, ha, Option.some_or, Option.some_or]
  · refine .of_eq (records_congr read root ?_)
    have hne : LooseText.text kind ≠ kind' := fun e => hkind (LooseText.text.inj e).symm
    rw [Members.get?_middle_of_ne hne, Members.get?_middle_of_ne hne]

end

/-! ## documents -/

section
variable {ms ns : Members} {file : Option String}

theorem supported_congr (hformat : ms.get? "format" = ns.get? "format")
    (hversion : ms.get? "version" = ns.get? "version") : supported ms = supported ns := by
  unfold supported
  rw [hformat, hversion]

theorem labelOfJson_congr (root : Place) (h : ms.get? "name" = ns.get? "name") :
    labelOfJson ms root = labelOfJson ns root := by
  unfold labelOfJson
  rw [h]

theorem labelOfJson_alike (root : Place)
    (h : Alike catalogSchema "name" (ms.get? "name") (ns.get? "name")) :
    labelOfJson ms root = labelOfJson ns root := by
  refine h.read_eq (by decide) (labelOfJson · root) (labelOfJson_congr root) fun v hv => ?_
  obtain rfl : v = .null := by simpa [catalogSchema] using hv
  rfl

/-- Documents with one header and label, and sections of which the same is read. -/
theorem ofJson_congr (hheader : supported ms = supported ns)
    (hlabel : labelOfJson ms (.root file) = labelOfJson ns (.root file))
    (hversions : SameAnswers (records versionOfJson ms "versions" (.root file))
      (records versionOfJson ns "versions" (.root file)))
    (htypes : SameAnswers (records typeOfJson ms "types" (.root file))
      (records typeOfJson ns "types" (.root file)))
    (hoverloads : SameAnswers (records overloadOfJson ms "builtins" (.root file))
      (records overloadOfJson ns "builtins" (.root file))) :
    SameAnswers (ofJson file (.obj ms)) (ofJson file (.obj ns)) := by
  rw [ofJson_obj, ofJson_obj, hheader, hlabel]
  split
  · refine SameAnswers.bind (.of_eq rfl) fun label => ?_
    refine hversions.bind fun versions => htypes.bind fun types => ?_
    exact hoverloads.bind fun overloads => .of_eq rfl
  · exact .of_eq rfl

end

section
variable {kind : String} {ms ns : Members}
  (hkind : kind ∉ ["format", "version", "name"])
  (hversions : "versions" = kind → ∀ place,
    SameAnswers (versionOfJson ms place) (versionOfJson ns place))
  (htypes : "types" = kind → ∀ place, SameAnswers (typeOfJson ms place) (typeOfJson ns place))
  (hoverloads : "builtins" = kind → ∀ place,
    SameAnswers (overloadOfJson ms place) (overloadOfJson ns place))
include hkind hversions htypes hoverloads

/-- A document with an entry of a section in another wording. -/
theorem entry_reads (file : Option String) (a b : Members) (before after : List Json) :
    SameAnswers (ofJson file (.obj (a ++ (LooseText.text kind, .arr (before ++ .obj ms :: after)) :: b)))
      (ofJson file (.obj (a ++ (LooseText.text kind, .arr (before ++ .obj ns :: after)) :: b))) := by
  have hother {key : String} (hkey : key ∈ ["format", "version", "name"]) (x y : Json) :
      Members.get? key (a ++ (LooseText.text kind, x) :: b)
        = Members.get? key (a ++ (LooseText.text kind, y) :: b) := by
    have hne : LooseText.text kind ≠ key := fun e => hkind (LooseText.text.inj e ▸ hkey)
    rw [Members.get?_middle_of_ne hne, Members.get?_middle_of_ne hne]
  exact ofJson_congr (supported_congr (hother (by decide) _ _) (hother (by decide) _ _))
    (labelOfJson_congr _ (hother (by decide) _ _)) (records_reworded hversions _ a b before after)
    (records_reworded htypes _ a b before after) (records_reworded hoverloads _ a b before after)

end

/-- **One change of the wording does not matter to what is read.** -/
theorem RewordsDocument.reads {v w : Json} (h : RewordsDocument v w) (file : Option String) :
    SameAnswers (ofJson file v) (ofJson file w) := by
  cases h with
  | whole h =>
    have halike := h.alike
    refine ofJson_congr (supported_congr ?_ ?_) ?_ (.of_eq ?_) (.of_eq ?_) (.of_eq ?_)
    · exact (halike "format" (by decide)).eq (by decide) (by simp [catalogSchema])
    · exact (halike "version" (by decide)).eq (by decide) (by simp [catalogSchema])
    · exact labelOfJson_alike _ (halike "name" (by decide))
    · exact records_alike _ _ (by decide) (by simp [catalogSchema]) (halike "versions" (by decide))
    · exact records_alike _ _ (by decide) (by simp [catalogSchema]) (halike "types" (by decide))
    · exact records_alike _ _ (by decide) (by simp [catalogSchema]) (halike "builtins" (by decide))
  | @entry kind k hkind ms ns h a b before after =>
    have hcases : (kind = "versions" ∧ k = versionSchema) ∨ (kind = "types" ∧ k = typeSchema) ∨
        (kind = "builtins" ∧ k = overloadSchema) := by
      simpa [sectionSchemas] using hkind
    rcases hcases with ⟨rfl, rfl⟩ | ⟨rfl, rfl⟩ | ⟨rfl, rfl⟩
    · exact entry_reads (by decide) (fun _ place => h.alike.version place)
        (fun e => absurd e (by decide)) (fun e => absurd e (by decide)) file a b before after
    · exact entry_reads (by decide) (fun e => absurd e (by decide))
        (fun _ place => h.alike.type place) (fun e => absurd e (by decide)) file a b before after
    · exact entry_reads (by decide) (fun e => absurd e (by decide)) (fun e => absurd e (by decide))
        (fun _ place => h.alike.overload place) file a b before after

/-- Any number of changes of the wording, there and back.  So what stands under a key that is not
read may give way to anything. -/
abbrev Reworded : Json → Json → Prop := Relation.EqvGen RewordsDocument

theorem Reworded.reads {v w : Json} (h : Reworded v w) (file : Option String) :
    SameAnswers (ofJson file v) (ofJson file w) := by
  induction h with
  | rel v w h => exact h.reads file
  | refl v => exact .of_eq rfl
  | symm v w _ ih => exact ih.symm
  | trans v w u _ _ ih ih' => exact ih.trans ih'

/-- **A document that is read says the same catalog in every other wording**, so that it has the
same fingerprint, and the same tables or the same reason for none. -/
theorem ofJson_reworded {file : Option String} {v w : Json} {c : Catalog} (h : Reworded v w)
    (hv : ofJson file v = .ok c) : ∃ d, ofJson file w = .ok d ∧ d = c ∧
      d.content.fingerprint = c.content.fingerprint ∧ Tables.build d = Tables.build c :=
  ⟨c, (h.reads file c).mp hv, rfl, rfl, rfl⟩

/-- A document with one type, of which `entry` are the members. -/
def oneType (entry : Members) : Members :=
  [("format", .str "builtin-catalog"), ("version", .int 0), ("types", .arr [.obj entry])]

def localEntry (space : String) : Members :=
  [("def", .str "P"), ("name", .str "float"), ("addr_space", .str space)]

/-- The concrete type that is none, and the label that is none. -/
def nullConcrete : LooseText × Json := ("qual_type", .str "null")

def noLabel : LooseText × Json := ("name", .null)

/-- The concrete type that is none is written out, and the order is another. -/
def wordyEntry : Members :=
  (localEntry "opencl_local" ++ [nullConcrete]).reverse

/-- So is the label, next to a member that is not read. -/
def wordy : Members :=
  (oneType wordyEntry ++ [noLabel, (.text "comment", .null)]).reverse

theorem reworded_wordy :
    Reworded (.obj (oneType (localEntry "clang::LangAS::opencl_local"))) (.obj wordy) := by
  have hentry {ms ns : Members} (h : Rewords typeSchema ms ns) :
      Reworded (.obj (oneType ms)) (.obj (oneType ns)) :=
    .rel _ _ (.entry (by simp [sectionSchemas]) h
      [("format", .str "builtin-catalog"), ("version", .int 0)] [] [] [])
  have hwhole {ms ns : Members} (h : Rewords catalogSchema ms ns) :
      Reworded (.obj ms) (.obj ns) := .rel _ _ (.whole h)
  have hlast : LooseText.IsLast "opencl_local" "clang::LangAS::opencl_local" := by decide
  have hlast' : LooseText.IsLast "opencl_local" "opencl_local" := by decide
  have hconcrete : nullConcrete ∈ typeSchema.defaults := by simp [nullConcrete, typeSchema]
  have hlabel : noLabel ∈ catalogSchema.defaults := by simp [noLabel, catalogSchema]
  have hcomment : .text "comment" ∉ catalogSchema.read := by decide
  -- the entry, and then the whole around it
  have hentries : Reworded (.obj (oneType (localEntry "clang::LangAS::opencl_local")))
      (.obj (oneType wordyEntry)) :=
    .trans _ _ _ (hentry (.space [("def", .str "P"), ("name", .str "float")] [] (by decide) hlast hlast'))
    (.trans _ _ _ (hentry (.value (localEntry "opencl_local") [] hconcrete (by decide)))
    (hentry (.order (by decide) (List.reverse_perm (localEntry _ ++ _)))))
  exact .trans _ _ _ hentries
    (.trans _ _ _ (hwhole (.value (oneType wordyEntry) [] hlabel (by decide)))
    (.trans _ _ _ (hwhole (.other (oneType wordyEntry ++ [noLabel]) [] hcomment .null))
    (hwhole (.order (by decide) (List.reverse_perm _)))))

/-- The catalog of both. -/
def oneLocal : Catalog where
  types := [⟨⟨"P", "float", 0, .openclLocal, false, none⟩, ⟨none, some "types[0]"⟩⟩]
  overloads := []
  versions := []
  label := none
  file := none

theorem ofJson_reworded_wordy :
    Reworded (.obj (oneType (localEntry "clang::LangAS::opencl_local"))) (.obj wordy) ∧
      ofJson none (.obj (oneType (localEntry "clang::LangAS::opencl_local"))) = .ok oneLocal ∧
      ∃ d, ofJson none (.obj wordy) = .ok d ∧ d = oneLocal ∧
        d.content.fingerprint = oneLocal.content.fingerprint ∧
        Tables.build d = Tables.build oneLocal :=
  have hread : ofJson none (.obj (oneType (localEntry "clang::LangAS::opencl_local")))
      = .ok oneLocal := by rfl
  ⟨reworded_wordy, hread, ofJson_reworded reworded_wordy hread⟩

end OverloadTables.Catalog
