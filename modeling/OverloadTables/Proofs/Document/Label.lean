import OverloadTables.Proofs.Document.Source

/-!
# What a label can do to a module

The label of a catalog is written as it is behind a comment mark.  A label with a line end leaves
its comment: what stands behind the line end is read as code.

* `Source.LabelContained`     a labelled module has one line more than the module without the label,
                              the line of the label;
* `Source.sourceLines_escaped`  a label can put any line into a module;
* `Source.unlabelled c`       the catalog without its label;
* `Source.labelled_module`    it has if and only if the label has no line end but perhaps a carriage
                              return at its end, which the line end after it takes in.
-/

namespace OverloadTables.Source

open Text

/-- The lines of a module as they are read. -/
def sourceLines (text : String) : List (List Char) := cutLines text.toList

/-- Lines that agree, or that both tell a fingerprint. -/
def SameLine (a b : List Char) : Prop :=
  a = b ∨ "# catalog sha256: ".toList <+: a ∧ "# catalog sha256: ".toList <+: b

/-- The label is one line of a module, and the others are those of the module without a label. -/
def LabelContained (named unnamed : String) : Prop :=
  ∃ before line after, sourceLines named = before ++ line :: after ∧
    "# catalog: ".toList <+: line ∧ List.Forall₂ SameLine (before ++ after) (sourceLines unnamed)

/-- The text that lines make. -/
def textOf (ls : List String) : String := joinLines ls ++ "\n"

theorem oneLine_title : OneLine title.toList := oneLine_ofList (by decide)

theorem prefix_fingerprintLine (fingerprint : String) :
    "# catalog sha256: ".toList <+: (fingerprintLine fingerprint).toList := by
  show _ <+: ("# catalog sha256: " ++ fingerprint).toList
  rw [String.toList_append]
  exact List.prefix_append _ _

theorem sameLine_fingerprint (fingerprint fingerprint₀ : String) :
    SameLine (fingerprintLine fingerprint).toList (fingerprintLine fingerprint₀).toList :=
  .inr ⟨prefix_fingerprintLine _, prefix_fingerprintLine _⟩

theorem sameLine_refl (ls : List (List Char)) : List.Forall₂ SameLine ls ls :=
  List.forall₂_same.mpr fun _ _ => .inl rfl

section
variable {fingerprint fingerprint₀ : String} {rest : List String}
  (hrest : Lined rest) (hf : OneLine fingerprint.toList) (hf₀ : OneLine fingerprint₀.toList)
include hrest

include hf in
theorem sourceLines_below : cutLines (ended (fingerprintLine fingerprint :: rest))
    = (fingerprintLine fingerprint).toList :: (rest.map String.toList ++ [[]]) :=
  cutLines_ended (lined_cons.mpr ⟨oneLine_str.mpr ⟨oneLine_ofList (by decide), hf⟩, hrest⟩)

include hf₀ in
theorem sourceLines_unnamed : sourceLines (textOf (title :: fingerprintLine fingerprint₀ :: rest))
    = title.toList :: (fingerprintLine fingerprint₀).toList
      :: (rest.map String.toList ++ [[]]) := by
  rw [sourceLines, textOf, joinLines_toList]
  show cutLines ((title.toList ++ ['\n']) ++ ended (fingerprintLine fingerprint₀ :: rest)) = _
  rw [List.append_assoc, List.singleton_append, cutLines_oneLine oneLine_title,
    sourceLines_below hrest hf₀]

include hf in
/-- The lines of a labelled module: those that the label makes stand below the first. -/
theorem sourceLines_named (label : String) : ∃ l ls,
    sourceLines (textOf (title :: ("# catalog: " ++ label) :: fingerprintLine fingerprint :: rest))
      = title.toList :: ("# catalog: ".toList ++ l) :: (ls
        ++ (fingerprintLine fingerprint).toList :: (rest.map String.toList ++ [[]])) ∧
    (ls = [] ↔ Contained label.toList) := by
  obtain ⟨l, ls, hcut, hone⟩ := cutLines_append label.toList
  refine ⟨l, ls, ?_, hone⟩
  have hmark : OneLine "# catalog: ".toList := oneLine_ofList (by decide)
  rw [sourceLines, textOf, joinLines_toList]
  show cutLines ((title.toList ++ ['\n']) ++ ((("# catalog: " ++ label).toList ++ ['\n'])
    ++ ended (fingerprintLine fingerprint :: rest))) = _
  rw [List.append_assoc, List.singleton_append, cutLines_oneLine oneLine_title,
    String.toList_append, List.append_assoc, List.append_assoc, List.singleton_append,
    cutLines_prefix hmark (hcut _), sourceLines_below hrest hf]

include hf in
/-- What stands behind an LF in a label is a line of the module. -/
theorem sourceLines_escaped {shown hidden : String} (hshown : OneLine shown.toList)
    (hhidden : OneLine hidden.toList) :
    sourceLines (textOf (title :: ("# catalog: " ++ (shown ++ "\n" ++ hidden))
        :: fingerprintLine fingerprint :: rest))
      = title.toList :: ("# catalog: " ++ shown).toList :: hidden.toList
        :: (fingerprintLine fingerprint).toList :: (rest.map String.toList ++ [[]]) := by
  have hline : OneLine ("# catalog: " ++ shown).toList :=
    oneLine_str.mpr ⟨oneLine_ofList (by decide), hshown⟩
  have hsplit : ("# catalog: " ++ (shown ++ "\n" ++ hidden)).toList
      = ("# catalog: " ++ shown).toList ++ '\n' :: hidden.toList := by
    simp [String.toList_append]
  rw [sourceLines, textOf, joinLines_toList]
  show cutLines ((title.toList ++ ['\n']) ++ ((("# catalog: " ++ (shown ++ "\n" ++ hidden)).toList
    ++ ['\n']) ++ ended (fingerprintLine fingerprint :: rest))) = _
  rw [List.append_assoc, List.singleton_append, cutLines_oneLine oneLine_title, hsplit,
    List.append_assoc, List.append_assoc, List.cons_append, cutLines_oneLine hline,
    List.singleton_append, cutLines_oneLine hhidden, sourceLines_below hrest hf]

include hf hf₀ in
theorem labelContained_iff (label : String) : LabelContained
    (textOf (title :: ("# catalog: " ++ label) :: fingerprintLine fingerprint :: rest))
    (textOf (title :: fingerprintLine fingerprint₀ :: rest)) ↔ Contained label.toList := by
  obtain ⟨l, ls, hnamed, hone⟩ := sourceLines_named hrest hf label
  have hunnamed := sourceLines_unnamed hrest hf₀
  rw [LabelContained, hnamed, hunnamed, ← hone]
  constructor
  · rintro ⟨before, line, after, hlines, -, hsame⟩
    have hcount := congrArg List.length hlines
    have hsame := hsame.length_eq
    simp only [List.length_cons, List.length_append] at hcount hsame
    exact List.length_eq_zero_iff.mp (by omega)
  · rintro rfl
    refine ⟨[title.toList], _, _, rfl, List.prefix_append _ l, ?_⟩
    exact .cons (.inl rfl) (.cons (sameLine_fingerprint _ _) (sameLine_refl _))

end

/-! ## catalogs -/

theorem oneLine_sha256Hex (bytes : List UInt8) : OneLine (Digest.sha256Hex bytes).toList := by
  rw [Digest.sha256Hex]
  refine oneLine_ofList fun d hd => ?_
  obtain ⟨w, -, hd⟩ := List.mem_flatMap.mp hd
  exact oneLine_of_printableChars (printable_hexDigits 8 _) d hd

theorem oneLine_fingerprint {c : Catalog} {t : Tables} (g : Stages c t) :
    OneLine t.fingerprint.toList := by
  have hf := g.fingerprint_eq
  rw [Content.fingerprint] at hf
  cases hbytes : c.content.canonicalBytes with
  | error e =>
    rw [hbytes] at hf
    cases hf
  | ok bytes =>
    rw [hbytes] at hf
    exact Except.ok.inj hf ▸ oneLine_sha256Hex bytes.toList

def unlabelled (c : Catalog) : Catalog := { c with label := none }

/-- Without its label, a catalog has a fingerprint if it has one with it. -/
theorem exists_fingerprint_unlabelled {c : Catalog} {t : Tables} (g : Stages c t) :
    ∃ f, (unlabelled c).content.fingerprint = .ok f := by
  obtain ⟨hlimits, hplain⟩ := g.written
  have htexts : c.content.texts = (unlabelled c).content.texts ++ c.label.toList := by
    show _ = (_ ++ []) ++ _
    rw [List.append_nil]
    rfl
  refine Content.exists_fingerprint.mpr ⟨hlimits, fun s hs => hplain s ?_⟩
  rw [htexts]
  exact List.mem_append_left _ hs

theorem render_eq_ok {t : Tables} {rest : List String} (h : below t = .ok rest) :
    render t = .ok (textOf (title :: (labelLine t.label ++ fingerprintLine t.fingerprint :: rest)))
      := by
  rw [render, lines_eq, h]
  rfl

/-- The modules of a catalog with and without its label differ above the fingerprint. -/
theorem render_unlabelled {c : Catalog} {t : Tables} (g : Stages c t) : ∃ rest, Lined rest ∧
    render t = .ok (textOf (title :: (labelLine t.label
      ++ fingerprintLine t.fingerprint :: rest))) ∧
    ∃ t₀, Nonempty (Stages (unlabelled c) t₀) ∧ render t₀ = .ok (textOf (title
      :: fingerprintLine t₀.fingerprint :: rest)) := by
  obtain ⟨rest, hbelow, hlined⟩ := below_ok g
  refine ⟨rest, hlined, render_eq_ok hbelow, ?_⟩
  obtain ⟨f, hf⟩ := exists_fingerprint_unlabelled g
  let t₀ : Tables := { t with label := none, fingerprint := f }
  have hbelow₀ : below t₀ = .ok rest := hbelow
  exact ⟨t₀, ⟨{ g with label_eq := rfl, fingerprint_eq := hf }⟩, render_eq_ok hbelow₀⟩

/-- **A label stays on its line exactly if no line end in it stands before another character,
and an empty label leaves the module as it is.** -/
theorem labelled_module {c : Catalog} {t : Tables} (h : Tables.build c = .ok t) :
    ∃ text t₀ text₀, render t = .ok text ∧ Tables.build (unlabelled c) = .ok t₀ ∧
      render t₀ = .ok text₀ ∧
      (∀ label : String, c.label = some (.text label) → label ≠ "" →
        (LabelContained text text₀ ↔ '\n' ∉ label.toList ∧ '\r' ∉ label.toList.dropLast)) ∧
      (c.label = none ∨ c.label = some "" →
        List.Forall₂ SameLine (sourceLines text) (sourceLines text₀)) := by
  obtain ⟨g⟩ := Tables.build_eq_ok.mp h
  obtain ⟨rest, hrest, htext, t₀, ⟨g₀⟩, htext₀⟩ := render_unlabelled g
  have hf := oneLine_fingerprint g
  have hf₀ := oneLine_fingerprint g₀
  have hbuild := Tables.build_eq_ok.mpr ⟨g₀⟩
  refine ⟨_, t₀, _, htext, hbuild, htext₀, fun label hlabel hne => ?_, fun hlabel => ?_⟩
  · rw [g.label_eq, hlabel, Option.map_some, LooseText.plain, labelLine, if_neg hne]
    exact labelContained_iff hrest hf hf₀ label
  · have hnone : labelLine t.label = [] := by
      rw [g.label_eq]
      rcases hlabel with e | e <;> rw [e] <;> rfl
    rw [hnone, List.nil_append, sourceLines_unnamed hrest hf, sourceLines_unnamed hrest hf₀]
    exact .cons (.inl rfl) (.cons (sameLine_fingerprint _ _) (sameLine_refl _))

/-- No declarations, under a label. -/
def bare (label : String) : Catalog where
  types := []
  overloads := []
  versions := []
  label := some label
  file := none

theorem labelled_module_bare : ∃ t text t₀ text₀, Tables.build (bare "core\r") = .ok t ∧
    render t = .ok text ∧ Tables.build (unlabelled (bare "core\r")) = .ok t₀ ∧
    render t₀ = .ok text₀ ∧ LabelContained text text₀ := by
  obtain ⟨t, h⟩ : ∃ t, Tables.build (bare "core\r") = .ok t := ⟨_, rfl⟩
  obtain ⟨text, t₀, text₀, htext, hbuild, htext₀, hlabel, -⟩ := labelled_module h
  refine ⟨t, text, t₀, text₀, h, htext, hbuild, htext₀, ?_⟩
  exact (hlabel "core\r" rfl (by decide)).mpr (by decide)

/-- A label with a line end adds a line of its own to the module. -/
theorem label_escapes : ∃ t text t₀ text₀, Tables.build (bare "core\nimport os") = .ok t ∧
    render t = .ok text ∧ Tables.build (unlabelled (bare "core\nimport os")) = .ok t₀ ∧
    render t₀ = .ok text₀ ∧ ¬ LabelContained text text₀ ∧
    "import os".toList ∈ sourceLines text := by
  obtain ⟨t, h⟩ : ∃ t, Tables.build (bare "core\nimport os") = .ok t := ⟨_, rfl⟩
  obtain ⟨g⟩ := Tables.build_eq_ok.mp h
  obtain ⟨rest, hrest, htext, t₀, ⟨g₀⟩, htext₀⟩ := render_unlabelled g
  have hf := oneLine_fingerprint g
  have hf₀ := oneLine_fingerprint g₀
  have hlabel : t.label = some "core\nimport os" := g.label_eq
  rw [hlabel] at htext
  refine ⟨t, _, t₀, _, h, htext, Tables.build_eq_ok.mpr ⟨g₀⟩, htext₀, ?_, ?_⟩
  · intro hcontained
    have hlabel := (labelContained_iff hrest hf hf₀ "core\nimport os").mp hcontained
    exact absurd hlabel (by decide)
  · have hshown : OneLine "core".toList := oneLine_ofList (by decide)
    have hhidden : OneLine "import os".toList := oneLine_ofList (by decide)
    have hlines := sourceLines_escaped hrest hf hshown hhidden
    show _ ∈ sourceLines (textOf (title :: ("# catalog: " ++ ("core" ++ "\n" ++ "import os"))
      :: fingerprintLine t.fingerprint :: rest))
    rw [hlines]
    simp

end OverloadTables.Source
