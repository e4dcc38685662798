import OverloadTables.Proofs.Catalog.Format
import OverloadTables.Proofs.Catalog.Said

/-!
# A document is read exactly if it is well-formed

* `versionOfJson_reports`, `typeOfJson_reports`, `overloadOfJson_reports`   the readers of records
                           tell the first flaw;
* `records_reports`        so does the reader of a section;
* `Recorded file v c`      the catalog has one record for each entry of the document, in order, with
                           the values that stand there or the defaults;
* `ofJson_verdict`         what is well-formed is read and recorded, and of anything else the first
                           flaw is told.
-/

namespace OverloadTables.Catalog
open Json

/-! ## members -/

section
variable (ms : Members) (key : String) (place : Place)

theorem requiredText_reports : Reports Rejection.Tells (requiredText ms key place)
    (misfit (ms.requires key isName) (place.member key)) := by
  unfold requiredText Members.requires
  cases ms.get? key with
  | none => exact ⟨_, [], rfl, rfl⟩
  | some x =>
    cases x with
    | str s =>
      by_cases hempty : s = ""
      · rw [hempty]
        exact ⟨_, [], rfl, rfl⟩
      · show Reports _ (if s = "" then _ else _) _
        rw [if_neg hempty]
        exact misfit_eq_nil.mpr (decide_eq_true hempty)
    | _ => exact ⟨_, [], rfl, rfl⟩

theorem optionalText_reports (absent : LooseText) :
    Reports Rejection.Tells (optionalText ms key place absent)
      (misfit (ms.allows key isText) (place.member key)) := by
  unfold optionalText Members.allows
  cases ms.get? key with
  | none => rfl
  | some x =>
    cases x with
    | str s => rfl
    | _ => exact ⟨_, [], rfl, rfl⟩

theorem optionalInteger_reports (absent : Int) :
    Reports Rejection.Tells (optionalInteger ms key place absent)
      (misfit (ms.allows key isInteger) (place.member key)) := by
  unfold optionalInteger Members.allows
  cases ms.get? key with
  | none => rfl
  | some x =>
    cases x with
    | int n => rfl
    | _ => exact ⟨_, [], rfl, rfl⟩

theorem optionalBoolean_reports (absent : Bool) :
    Reports Rejection.Tells (optionalBoolean ms key place absent)
      (misfit (ms.allows key isBoolean) (place.member key)) := by
  unfold optionalBoolean Members.allows
  cases ms.get? key with
  | none => rfl
  | some x =>
    cases x with
    | bool b => rfl
    | _ => exact ⟨_, [], rfl, rfl⟩

end

/-! ## records -/

section
variable (ms : Members) (place : Place)

theorem numberOfJson_reports : Reports Rejection.Tells (numberOfJson ms place)
    (misfit (ms.requires "version" isInteger) (place.member "version")) := by
  unfold numberOfJson optionalInteger Members.requires
  cases ms.get? "version" with
  | none => exact ⟨_, [], rfl, rfl⟩
  | some x =>
    cases x with
    | int n => rfl
    | _ => exact ⟨_, [], rfl, rfl⟩

theorem versionOfJson_reports :
    Reports Rejection.Tells (versionOfJson ms place) (versionFlaws ms place) := by
  rw [versionOfJson_eq, versionFlaws]
  refine reports_bind (requiredText_reports ms "def" place) fun key _ => ?_
  exact reports_then (numberOfJson_reports ms place) fun number _ => ⟨⟨key, number⟩, rfl⟩

theorem isSpelling_iff {s : LooseText} :
    isSpelling (.str s) = true ↔ ∃ m, spaceOf? s = some m := by
  simp only [isSpelling, List.any_eq_true, decide_eq_true_eq, spaceOf?_eq_some]
  constructor
  · rintro ⟨m, -, hm⟩
    exact ⟨m, hm⟩
  · rintro ⟨m, hm⟩
    exact ⟨m, by cases m <;> decide, hm⟩

theorem spaceOfName_reports (name : LooseText) : Reports Rejection.Tells (spaceOfName place name)
    (breach (isSpelling (.str name)) "E-TYPE-ADDRSPACE" (place.member "addr_space")) := by
  unfold spaceOfName
  cases hname : spaceOf? name with
  | none =>
    have hunknown : isSpelling (.str name) = false := by
      refine eq_false_of_ne_true fun h => ?_
      obtain ⟨m, hm⟩ := isSpelling_iff.mp h
      rw [hname] at hm
      exact nomatch hm
    rw [hunknown]
    exact ⟨_, [], rfl, rfl⟩
  | some m => exact breach_eq_nil.mpr (isSpelling_iff.mpr ⟨m, hname⟩)

/-- The name that was read is the member that is looked at, or the one that stands for none. -/
theorem allows_of_spaceName {name : LooseText}
    (h : optionalText ms "addr_space" place "Default" = .ok name) :
    ms.allows "addr_space" (fun x => !x.isText || x.isSpelling) = isSpelling (.str name) := by
  have hname := optionalText_eq_ok.mp h
  unfold Members.allows
  cases hx : ms.get? "addr_space" with
  | none =>
    rw [hx] at hname
    obtain rfl := Json.str.inj hname
    rfl
  | some x =>
    rw [hx] at hname
    obtain rfl : x = .str name := hname
    rfl

theorem concreteOfJson_reports : Reports Rejection.Tells (concreteOfJson ms place)
    (misfit (ms.allows "qual_type" fun x => x.isNull || x.isName) (place.member "qual_type")) := by
  unfold concreteOfJson Members.allows
  cases ms.get? "qual_type" with
  | none => rfl
  | some x =>
    cases x with
    | null => rfl
    | str s =>
      show Reports _ (if s = "null" then _ else if s = "" then _ else _) _
      by_cases hnull : s = "null"
      · rw [if_pos hnull, hnull]
        rfl
      · rw [if_neg hnull]
        by_cases hempty : s = ""
        · rw [if_pos hempty, hempty]
          exact ⟨_, [], rfl, rfl⟩
        · rw [if_neg hempty]
          exact misfit_eq_nil.mpr (decide_eq_true hempty)
    | _ => exact ⟨_, [], rfl, rfl⟩

theorem typeOfJson_reports :
    Reports Rejection.Tells (typeOfJson ms place) (typeFlaws ms place) := by
  rw [typeOfJson_eq, typeFlaws]
  refine reports_bind (requiredText_reports ms "def" place) fun key _ => ?_
  refine reports_bind (requiredText_reports ms "name" place) fun name _ => ?_
  refine reports_bind (optionalInteger_reports ms "vec_width" place 0) fun width _ => ?_
  refine reports_bind (optionalText_reports ms "addr_space" place "Default") fun spaceName h => ?_
  rw [allows_of_spaceName ms place h]
  refine reports_bind (spaceOfName_reports place spaceName) fun space _ => ?_
  refine reports_bind (optionalBoolean_reports ms "is_pointer" place false) fun pointer _ => ?_
  exact reports_then (concreteOfJson_reports ms place) fun concrete _ => ⟨_, rfl⟩

theorem printableOfJson_reports : Reports Rejection.Tells (printableOfJson ms place)
    (misfit (ms.requires "name" isPrintableName) (place.member "name")) := by
  unfold printableOfJson requiredText Members.requires
  cases ms.get? "name" with
  | none => exact ⟨_, [], rfl, rfl⟩
  | some x =>
    cases x with
    | str s =>
      show Reports _ ((if s = "" then .error _ else .ok s) >>= _) _
      by_cases hempty : s = ""
      · rw [if_pos hempty, hempty]
        exact ⟨_, [], rfl, rfl⟩
      · rw [if_neg hempty]
        show Reports _ (if s.allPrintable = false then _ else _)
          (misfit (decide (s ≠ "") && s.allPrintable) _)
        cases hprintable : s.allPrintable with
        | false =>
          rw [if_pos rfl, Bool.and_false]
          exact ⟨_, [], rfl, rfl⟩
        | true =>
          rw [if_neg Bool.true_eq_false.mp, Bool.and_true]
          exact misfit_eq_nil.mpr (decide_eq_true hempty)
    | _ => exact ⟨_, [], rfl, rfl⟩

theorem referencesOfJson_reports (vs : List Json) (i : Nat) :
    Reports Rejection.Tells (referencesOfJson place i vs)
      (itemFlaws (fun x => misfit x.isName) (place.member "signature") vs i) := by
  induction vs generalizing i with
  | nil => rfl
  | cons x vs ih =>
    have hcons : itemFlaws (fun x => misfit x.isName) (place.member "signature") (x :: vs) i
        = misfit x.isName ((place.member "signature").item i)
          ++ itemFlaws (fun x => misfit x.isName) (place.member "signature") vs (i + 1) := rfl
    rw [hcons]
    cases x with
    | str s =>
      rw [referencesOfJson]
      refine reports_check ?_ rfl fun _ => ?_
      · rw [isName, decide_eq_false_iff_not, not_not]
      · exact reports_then (ih (i + 1)) fun keys _ => ⟨s :: keys, rfl⟩
    | _ => exact ⟨_, _, rfl, rfl⟩

theorem signatureOfJson_reports (name : LooseText) :
    Reports Rejection.Tells (signatureOfJson ms place name)
      (misfit (ms.requires "signature" isList) (place.member "signature")
        ++ itemFlaws (fun x => misfit x.isName) (place.member "signature")
          (ms.items "signature") 0) := by
  unfold signatureOfJson Members.requires Members.items
  cases ms.get? "signature" with
  | none => exact ⟨_, _, rfl, rfl⟩
  | some x =>
    cases x with
    | arr vs => exact referencesOfJson_reports place vs 0
    | _ => exact ⟨_, _, rfl, rfl⟩

theorem referenceOfJson_reports : Reports Rejection.Tells (referenceOfJson ms place)
    (misfit (ms.allows "version" fun x => x.isNull || x.isText) (place.member "version")) := by
  unfold referenceOfJson Members.allows
  cases ms.get? "version" with
  | none => rfl
  | some x =>
    cases x with
    | null | str s => rfl
    | _ => exact ⟨_, [], rfl, rfl⟩

theorem overloadOfJson_reports :
    Reports Rejection.Tells (overloadOfJson ms place) (overloadFlaws ms place) := by
  rw [overloadOfJson_eq, overloadFlaws]
  refine reports_bind (printableOfJson_reports ms place) fun name _ => ?_
  refine reports_bind (signatureOfJson_reports ms place name) fun signature _ => ?_
  refine reports_bind (referenceOfJson_reports ms place) fun version _ => ?_
  exact reports_then (optionalText_reports ms "extension" place "") fun extension _ => ⟨_, rfl⟩

end

/-! ## sections -/

theorem entriesFrom_reports (kind : String) (place : Place) (vs : List Json) (i : Nat) :
    Reports Rejection.Tells (entriesFrom kind place i vs)
      (itemFlaws (fun x => misfit x.isObject) place vs i) := by
  induction vs generalizing i with
  | nil => rfl
  | cons x vs ih =>
    cases x with
    | obj ms => exact reports_then (ih (i + 1)) fun es _ => ⟨⟨ms, place.item i⟩ :: es, rfl⟩
    | _ => exact ⟨_, _, rfl, rfl⟩

/-- Entries have the flaws of the items they were. -/
theorem flaws_entriesFrom (flaws : Members → Place → List Violation) {kind : String}
    {place : Place} {vs : List Json} {i : Nat} {es : List (Located Members)}
    (h : entriesFrom kind place i vs = .ok es) :
    es.flatMap (fun e => flaws e.value e.place) = itemFlaws (recordFlaws flaws) place vs i := by
  induction vs generalizing i es with
  | nil =>
    obtain rfl := Except.ok.inj h
    rfl
  | cons x vs ih =>
    cases x with
    | obj ms =>
      rw [entriesFrom] at h
      obtain ⟨rest, hrest, h⟩ := bind_eq_ok.mp h
      obtain rfl := pure_eq_ok.mp h
      exact congrArg (flaws ms (place.item i) ++ ·) (ih hrest)
    | _ => cases h

theorem records_reports {α : Type} {read : Members → Place → Decoded α}
    {flaws : Members → Place → List Violation}
    (hread : ∀ ms place, Reports Rejection.Tells (read ms place) (flaws ms place))
    (ms : Members) (kind : String) (root : Place) :
    Reports Rejection.Tells (records read ms kind root) (sectionFlaws flaws ms kind root) := by
  -- one record after the other, once all entries are there
  have hmap (es : List (Located Members)) :
      Reports Rejection.Tells (es.mapM (readEntry read))
        (es.flatMap fun e => flaws e.value e.place) :=
    reports_mapM fun e _ => reports_then (hread e.value e.place) fun a _ => ⟨⟨a, e.place⟩, rfl⟩
  show Reports _ (entries ms kind root >>= fun es => es.mapM (readEntry read)) _
  unfold entries sectionFlaws Members.allows Members.items
  cases ms.get? kind with
  | none => rfl
  | some x =>
    cases x with
    | arr vs =>
      show Reports _ (entriesFrom kind (root.member kind) 0 vs >>= fun es => es.mapM (readEntry read))
        (itemFlaws (fun x => misfit x.isObject) (root.member kind) vs 0
          ++ itemFlaws (recordFlaws flaws) (root.member kind) vs 0)
      refine reports_bind (entriesFrom_reports kind (root.member kind) vs 0) fun es hes => ?_
      rw [← flaws_entriesFrom flaws hes]
      exact hmap es
    | _ => exact ⟨_, _, rfl, rfl⟩

/-! ## documents -/

theorem labelOfJson_reports (ms : Members) (root : Place) :
    Reports Rejection.Tells (labelOfJson ms root)
      (misfit (ms.allows "name" fun x => x.isNull || x.isText) (root.member "name")) := by
  unfold labelOfJson Members.allows
  cases ms.get? "name" with
  | none => rfl
  | some x =>
    cases x with
    | null | str s => rfl
    | _ => exact ⟨_, [], rfl, rfl⟩

theorem ofJson_reports (file : Option String) (v : Json) :
    Reports Rejection.Tells (ofJson file v) (flaws file v) := by
  cases v with
  | obj ms =>
    rw [ofJson_obj, flaws, documentFlaws]
    cases supported ms with
    | false =>
      rw [if_neg Bool.false_ne_true]
      exact reports_breach rfl
    | true =>
      rw [if_pos rfl, breach_eq_nil.mpr rfl, List.nil_append]
      refine reports_bind (labelOfJson_reports ms _) fun label _ => ?_
      refine reports_bind (records_reports versionOfJson_reports ms _ _) fun versions _ => ?_
      refine reports_bind (records_reports typeOfJson_reports ms _ _) fun types _ => ?_
      exact reports_then (records_reports overloadOfJson_reports ms _ _) fun overloads _ => ⟨_, rfl⟩
  | _ => exact ⟨_, [], rfl, rfl⟩

/-! ## what is read -/

/-- A declaration of a type, with the address space that is named by the rule. -/
structure DeclaresType (ms : Members) (t : DeclaredType) : Prop extends SaysType ms t where
  spelled : ∃ s, (ms.get? "addr_space").getD (.str "Default") = .str s ∧
    LooseText.Spells s t.space

/-- There is one declaration for each entry of a section, in order, at the place of the entry. -/
structure Listed {α : Type} (Says : Members → α → Prop) (file : Option String) (ms : Members)
    (kind : String) (l : List (Located α)) : Prop where
  length : l.length = (ms.items kind).length
  entry : ∀ i a, l[i]? = some a → a.place = (Place.root file).follow (entrySteps kind i) ∧
    ∃ entry, (ms.items kind)[i]? = some (.obj entry) ∧ Says entry a.value

/-- The text that a member tells; what is no text tells none. -/
def textSaid : Option Json → Option LooseText
  | some (.str s) => some s
  | _ => none

/-- The catalog is what the members of its document say. -/
structure Recorded (source : Option String) (ms : Members) (c : Catalog) : Prop where
  file : c.file = source
  label : c.label = textSaid (ms.get? "name")
  versions : Listed SaysVersion source ms "versions" c.versions
  types : Listed DeclaresType source ms "types" c.types
  overloads : Listed SaysOverload source ms "builtins" c.overloads

theorem typeOfJson_declares {ms : Members} {place : Place} {t : DeclaredType}
    (h : typeOfJson ms place = .ok t) : DeclaresType ms t := by
  have hsaid := typeOfJson_said h
  obtain ⟨s, hs, hname⟩ := hsaid.space
  exact { hsaid with spelled := ⟨s, hs, spaceOf?_eq_some.mp hname⟩ }

theorem follow?_items (ms : Members) (kind : String) (i : Nat) :
    Json.follow? (entrySteps kind i) (.obj ms) = (ms.items kind)[i]? := by
  unfold Members.items
  cases hx : ms.get? kind with
  | none => rw [Json.follow?, hx, Option.bind_none, List.getElem?_nil]
  | some x =>
    cases x with
    | arr vs => exact follow?_entry hx i
    | _ =>
      rw [Json.follow?, hx, Option.bind_some]
      rfl

theorem length_entries {ms : Members} {kind : String} {root : Place} {es : List (Located Members)}
    (h : entries ms kind root = .ok es) : es.length = (ms.items kind).length := by
  unfold entries at h
  unfold Members.items
  cases hx : ms.get? kind with
  | none =>
    rw [hx] at h
    obtain rfl := Except.ok.inj h
    rfl
  | some x =>
    rw [hx] at h
    cases x with
    | arr vs =>
      obtain ⟨rfl, -⟩ := entriesFrom_eq_ok h
      exact (List.length_map _).symm
    | _ => exact nomatch h

theorem records_listed {α : Type} {read : Members → Place → Decoded α} (Says : Members → α → Prop)
    (hread : ∀ ms place a, read ms place = .ok a → Says ms a) {source : Option String}
    {ms : Members} {kind : String} {l : List (Located α)}
    (h : records read ms kind (.root source) = .ok l) : Listed Says source ms kind l := by
  obtain ⟨es, hes, hmap⟩ := bind_eq_ok.mp h
  have hlength : es.length = l.length := by
    have hmaps := congrArg List.length (mapM_eq_ok.mp hmap)
    rwa [List.length_map, List.length_map] at hmaps
  refine ⟨hlength.symm.trans (length_entries hes), fun i a ha => ?_⟩
  obtain ⟨hplace, entry, hentry, hsays⟩ := (records_said Says hread h).entry i a ha
  exact ⟨hplace, entry, (follow?_items ms kind i).symm.trans hentry, hsays⟩

theorem labelOfJson_said {ms : Members} {root : Place} {label : Option LooseText}
    (h : labelOfJson ms root = .ok label) : label = textSaid (ms.get? "name") := by
  unfold labelOfJson at h
  cases hx : ms.get? "name" with
  | none =>
    rw [hx] at h
    exact (Except.ok.inj h).symm
  | some x =>
    rw [hx] at h
    cases x with
    | null | str s => exact (Except.ok.inj h).symm
    | _ => exact nomatch h

theorem ofJson_recorded {source : Option String} {v : Json} {c : Catalog}
    (h : ofJson source v = .ok c) : ∃ ms, v = .obj ms ∧ Recorded source ms c := by
  cases v with
  | obj ms =>
    rw [ofJson_obj] at h
    split at h
    · obtain ⟨label, hlabel, h⟩ := bind_eq_ok.mp h
      obtain ⟨versions, hversions, h⟩ := bind_eq_ok.mp h
      obtain ⟨types, htypes, h⟩ := bind_eq_ok.mp h
      obtain ⟨overloads, hoverloads, h⟩ := bind_eq_ok.mp h
      obtain rfl := pure_eq_ok.mp h
      exact ⟨ms, rfl, rfl, labelOfJson_said hlabel,
        records_listed SaysVersion (fun _ _ _ => versionOfJson_said) hversions,
        records_listed DeclaresType (fun _ _ _ => typeOfJson_declares) htypes,
        records_listed SaysOverload (fun _ _ _ => overloadOfJson_said) hoverloads⟩
    · exact nomatch h
  | _ => exact nomatch h

/-- A document that is not read is told its first flaw. -/
theorem ofJson_eq_error {file : Option String} {v : Json} {r : Rejection}
    (h : ofJson file v = .error r) : ∃ rest, flaws file v = r.violation :: rest := by
  have hreports := ofJson_reports file v
  rw [h] at hreports
  obtain ⟨w, rest, htold, hflaws⟩ := hreports
  obtain rfl : w = _ := htold
  exact ⟨rest, hflaws⟩

/-- **A document is read exactly if it is well-formed, and then the catalog is what it says.**  Of
any other document the first flaw is told, in the order of reading. -/
theorem ofJson_verdict (file : Option String) (v : Json) :
    ((∃ c, ofJson file v = .ok c) ↔ WellFormed v) ∧
      (flaws file v = [] ↔ WellFormed v) ∧
      (∀ c, ofJson file v = .ok c → ∃ ms, v = .obj ms ∧ Recorded file ms c) ∧
      (¬ WellFormed v → ∃ r rest, ofJson file v = .error r ∧
        flaws file v = r.violation :: rest) := by
  have hnil := flaws_eq_nil file v
  have haccepts := (reports_ok_iff (ofJson_reports file v)).trans hnil
  refine ⟨haccepts, hnil, fun c hc => ofJson_recorded hc, fun hbad => ?_⟩
  cases hread : ofJson file v with
  | ok c => exact absurd (haccepts.mp ⟨c, hread⟩) hbad
  | error r =>
    obtain ⟨rest, hflaws⟩ := ofJson_eq_error hread
    exact ⟨r, rest, rfl, hflaws⟩

/-- An entry that is no object is told before what is wrong with the records in front of it. -/
example : flaws none (.obj [("format", .str "builtin-catalog"), ("version", .bool false),
      ("types", .arr [.obj [("def", .str ""), ("addr_space", .str "::Local")], .null])])
    = [⟨"E-CATALOG-FIELD", ⟨none, some "types[1]"⟩, []⟩,
      ⟨"E-CATALOG-FIELD", ⟨none, some "types[0].def"⟩, []⟩,
      ⟨"E-CATALOG-FIELD", ⟨none, some "types[0].name"⟩, []⟩,
      ⟨"E-TYPE-ADDRSPACE", ⟨none, some "types[0].addr_space"⟩, []⟩] := by rfl

end OverloadTables.Catalog
