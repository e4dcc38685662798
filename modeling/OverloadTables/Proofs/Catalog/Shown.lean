import OverloadTables.Proofs.Catalog.Culprit
import OverloadTables.Proofs.Text.OneLine

/-!
# What is shown of a catalog

Messages and notes show texts of a catalog.  Names of overloads are quoted or were checked before;
of other texts nothing is known.

* `Fault.unchecked`        the texts of a catalog that are shown as they are and may be anything;
* `Fault.Settled`          whatever else is shown is on one line;
* `Fault.oneLine_of_shown`, `Fault.unchecked_of_oneLine`   then the unchecked texts decide whether
                           the message and the notes are on one line each;
* `Fault.apart_of_shown`   surrogates stand apart in the message and the notes if they do in what is
                           shown;
* `Points.path`            the path of a culprit is on one line;
* `ofJson_settled`         the faults of a document that cannot be read are settled.
-/

namespace OverloadTables

open Text

namespace Fault

/-- The texts of a catalog that are shown as they are, and of which nothing is known. -/
def unchecked : Fault → List LooseText
  | .unknownAddressSpace name | .invalidTypeName name => [name]
  | .negativeWidth key _ | .typeConflict key _ | .versionConflict key _ _ => [key]
  | .concreteConflict _ first second owner => [showConcrete first, showConcrete second, owner]
  | .undeclaredType _ key | .undeclaredVersion _ key => [key]
  | _ => []

/-- The texts that are shown as they are, and are fixed or were checked before. -/
def checked : Fault → List LooseText
  | .sectionNotList key | .entryNotObject key | .expectedNonEmptyText key | .expectedText key
  | .expectedInteger key | .expectedBoolean key => [key]
  | .missingSignature name | .emptySignature name | .undeclaredType name _ | .missingVersion name
  | .undeclaredVersion name _ | .concreteConflict name _ _ _ => [name]
  | .typeConflict _ first => [first.text]
  | _ => []

/-- What a fault shows is on one line, but for the unchecked texts. -/
def Settled (f : Fault) : Prop := ∀ t ∈ f.checked, t.OneLine

/-! ## messages and notes -/

theorem oneLine_syntaxFault (e : Json.SyntaxFault) : OneLine e.message.toList := by
  cases e with
  | inText e => cases e <;> exact oneLine_ofList (by decide)
  | longInteger digits =>
    delta Json.SyntaxFault.message
    dsimp only
    rw [oneLine_str, oneLine_str]
    exact ⟨⟨oneLine_ofList (by decide), oneLine_nat digits⟩, oneLine_ofList (by decide)⟩
  | _ => exact oneLine_ofList (by decide)

/-- The message and the notes are on one line each if what they show is. -/
theorem oneLine_of_shown {f : Fault} (h : f.Settled) (h' : ∀ t ∈ f.unchecked, t.OneLine) :
    f.message.OneLine ∧ ∀ n ∈ f.notes, n.OneLine := by
  cases f with
  | syntaxError e =>
    refine ⟨?_, List.forall_mem_nil _⟩
    delta message
    dsimp only
    simp only [LooseText.text_append_text, LooseText.oneLine_text, oneLine_str, oneLine_syntaxFault,
      oneLine_nat, and_true]
    and_intros <;> exact oneLine_ofList (by decide)
  | _ =>
    simp only [Settled, checked, unchecked, List.mem_cons, List.not_mem_nil, or_false, forall_eq,
      forall_eq_or_imp] at h h'
    delta message notes
    dsimp only
    simp only [List.mem_cons, List.not_mem_nil, or_false, forall_eq, false_imp_iff, imp_true_iff,
      LooseText.oneLine_append, LooseText.oneLine_text, h, h', LooseText.oneLine_quote, oneLine_int,
      and_true]
    and_intros <;> exact oneLine_ofList (by decide)

/-- What is shown as it is, is on one line if the message and the notes are. -/
theorem unchecked_of_oneLine {f : Fault} (h : f.message.OneLine) (h' : ∀ n ∈ f.notes, n.OneLine) :
    ∀ t ∈ f.unchecked, t.OneLine := by
  cases f with
  | unknownAddressSpace | invalidTypeName | negativeWidth | typeConflict | versionConflict
  | concreteConflict | undeclaredType | undeclaredVersion =>
    delta message at h
    delta notes at h'
    dsimp only at h h'
    simp only [List.mem_cons, List.not_mem_nil, or_false, forall_eq, LooseText.oneLine_append,
      LooseText.oneLine_text] at h h'
    simp only [unchecked, List.mem_cons, List.not_mem_nil, or_false, forall_eq, forall_eq_or_imp,
      h, h', and_true]
  | _ => exact List.forall_mem_nil _

/-- In the message and the notes surrogates stand apart if they do in what is shown. -/
theorem apart_of_shown {f : Fault} (h : ∀ t ∈ f.checked ++ f.unchecked, t.Apart) :
    f.message.Apart ∧ ∀ n ∈ f.notes, n.Apart := by
  have hframed {t : LooseText} (ht : t.Apart) (a b : String) : (.text a ++ t ++ .text b).Apart :=
    LooseText.apart_append_text (LooseText.apart_text_append ht a) b
  have htwo {s t : LooseText} (hs : s.Apart) (ht : t.Apart) (a : String) {b : String} (hb : b ≠ "")
      (c : String) : (.text a ++ s ++ .text b ++ t ++ .text c).Apart :=
    LooseText.apart_append_text (LooseText.apart_between (LooseText.apart_text_append hs a) ht hb) c
  cases f with
  | unknownAddressSpace | invalidTypeName | missingSignature | emptySignature | missingVersion =>
    exact ⟨hframed (List.forall_mem_singleton.mp h) _ _, List.forall_mem_nil _⟩
  | negativeWidth key width =>
    have hkey := hframed (List.forall_mem_singleton.mp h) "type '" "' has negative vector width "
    exact ⟨LooseText.apart_append_text hkey (toString width), List.forall_mem_nil _⟩
  | typeConflict key first =>
    obtain ⟨-, hkey⟩ := List.forall_mem_cons.mp h
    exact ⟨hframed (List.forall_mem_singleton.mp hkey) _ _,
      List.forall_mem_singleton.mpr (LooseText.apart_text _)⟩
  | concreteConflict name first second owner =>
    obtain ⟨hname, h⟩ := List.forall_mem_cons.mp h
    obtain ⟨hfirst, h⟩ := List.forall_mem_cons.mp h
    obtain ⟨hsecond, howner⟩ := List.forall_mem_cons.mp h
    have hboth := LooseText.apart_between (LooseText.apart_text_append hname "type name '") hfirst
      (s := "' maps to both '") (by decide)
    have hall := LooseText.apart_between hboth hsecond (s := "' and '") (by decide)
    exact ⟨LooseText.apart_append_text hall "'",
      List.forall_mem_singleton.mpr (hframed (List.forall_mem_singleton.mp howner) _ _)⟩
  | versionConflict key first second =>
    have hkey := hframed (List.forall_mem_singleton.mp h) "version '" "' is declared as both "
    exact ⟨LooseText.apart_append_text (LooseText.apart_append_text
      (LooseText.apart_append_text hkey (toString first)) " and ") (toString second),
      List.forall_mem_nil _⟩
  | undeclaredType name key | undeclaredVersion name key =>
    obtain ⟨hname, hkey⟩ := List.forall_mem_cons.mp h
    exact ⟨htwo hname (List.forall_mem_singleton.mp hkey) _ (by decide) _, List.forall_mem_nil _⟩
  | unsupportedHeader =>
    exact ⟨LooseText.apart_text _, List.forall_mem_singleton.mpr (LooseText.apart_text _)⟩
  | _ => exact ⟨LooseText.apart_text _, List.forall_mem_nil _⟩

end Fault

/-! ## paths -/

theorem oneLine_memberName {name : String} (h : name ∈ memberNames) : OneLine name.toList := by
  have hall : (memberNames.all fun name => decide (OneLine name.toList)) = true := by decide
  exact of_decide_eq_true (List.all_eq_true.mp hall name h)

theorem PathStep.oneLine_text {s : PathStep} (h : s.known = true) : OneLine s.text.toList := by
  cases s with
  | member name =>
    rw [text_member, oneLine_cons]
    exact ⟨by decide, oneLine_memberName (mem_memberNames h)⟩
  | item i =>
    rw [text_item, oneLine_cons, oneLine_append]
    exact ⟨by decide, oneLine_nat i, by decide⟩

/-- The place that known steps lead to has a path, which is on one line and not empty. -/
theorem Place.follow_known (file : Option String) {name : String} {path : List PathStep}
    (h : ∀ s ∈ .member name :: path, s.known = true) :
    ∃ text, (Place.root file).follow (.member name :: path) = ⟨file, some text⟩ ∧ text ≠ "" ∧
      OneLine text.toList := by
  have hname := PathStep.plain_of_known (h _ List.mem_cons_self)
  obtain ⟨text, hfollow, hall⟩ := Place.follow_member file path hname
  have hline : OneLine ('.' :: text.toList) := by
    rw [hall]
    intro c hc
    obtain ⟨s, hs, hcs⟩ := List.mem_flatMap.mp hc
    exact PathStep.oneLine_text (h s hs) c hcs
  refine ⟨text, hfollow, ?_, (oneLine_cons.mp hline).2⟩
  rintro rfl
  rw [List.flatMap_cons, PathStep.text_member, List.cons_append, List.cons_inj_right] at hall
  exact (PathStep.plain_member.mp hname).1
    (String.toList_eq_nil_iff.mp (List.append_eq_nil_iff.mp hall.symm).1)

theorem Points.path {file : Option String} {v : Json} {r : Rejection} (h : Points file v r) :
    ∃ text, r.place = ⟨file, some text⟩ ∧ text ≠ "" ∧ OneLine text.toList := by
  obtain ⟨path, x, hplace, -, hculprit⟩ := h
  obtain ⟨⟨name, rest, rfl⟩, hknown⟩ := hculprit.known
  obtain ⟨text, hfollow, htext⟩ := Place.follow_known file hknown
  exact ⟨text, hplace.trans hfollow, htext⟩

/-! ## documents that cannot be read -/

theorem HeaderFault.shows_nothing {v : Json} {f : Fault} (h : HeaderFault v f) :
    f.checked = [] ∧ f.unchecked = [] := by
  cases h with
  | notAnObject | unsupported => exact ⟨rfl, rfl⟩

/-- The faults of a record are settled but for one, which shows the name of an overload. -/
theorem Misread.settled_or {entry : Members} {kind : String} {fault : Fault} {path : List PathStep}
    {x : Option Json} (h : Misread entry kind fault path x) : fault.Settled ∨ (kind = "builtins" ∧
      ∃ name, fault = .missingSignature name ∧ entry.get? "name" = some (.str name)) := by
  have hkey {key : String} (hkey : (kind, key) ∈ readMembers) :
      ∀ t ∈ [LooseText.text key], t.OneLine :=
    List.forall_mem_singleton.mpr (LooseText.oneLine_text.mpr
      (oneLine_memberName (mem_memberNames (known_readMember hkey).2)))
  cases h with
  | requiredText h | text h | integer h | boolean h =>
    exact .inl (hkey (by simp only [readMembers, List.mem_append, h, true_or, or_true]))
  | signature hname => exact .inr ⟨rfl, _, rfl, hname⟩
  | _ => exact .inl (List.forall_mem_nil _)

namespace Catalog

section
variable {file : Option String} {root ms : Members} {place : Place} {r : Rejection}

theorem PointsBelow.settled {kind : String} (h : PointsBelow kind ms place r)
    (hkind : kind ≠ "builtins") : r.fault.Settled := by
  obtain ⟨path, x, -, -, hmisread⟩ := h
  exact hmisread.settled_or.resolve_right fun hbuiltins => hkind hbuiltins.1

/-- The name is looked at before the signature. -/
theorem overloadOfJson_unprintable {name : LooseText} (hname : ms.get? "name" = some (.str name))
    (h : name.allPrintable = false) :
    overloadOfJson ms place = .error ⟨.unprintableName name, place.member "name"⟩ := by
  have hne : name ≠ "" := by
    rintro rfl
    exact nomatch h
  rw [overloadOfJson_eq]
  refine bind_eq_error.mpr (.inl (bind_eq_error.mpr (.inr ⟨name, ?_, if_pos h⟩)))
  exact requiredText_eq_ok.mpr ⟨hname, hne⟩

theorem overloadOfJson_settled (h : overloadOfJson ms place = .error r) : r.fault.Settled := by
  obtain ⟨path, x, -, -, hmisread⟩ := overloadOfJson_points h
  rcases hmisread.settled_or with hsettled | ⟨-, name, hfault, hname⟩
  · exact hsettled
  cases hprintable : name.allPrintable with
  | true =>
    rw [hfault]
    exact List.forall_mem_singleton.mpr (LooseText.oneLine_of_printable hprintable)
  | false =>
    rw [overloadOfJson_unprintable hname hprintable] at h
    obtain rfl := Except.error.inj h
    exact nomatch hfault

theorem entries_settled {kind : String} (hkind : kind ∈ sectionNames)
    (h : entries root kind (.root file) = .error r) : r.fault.Settled := by
  have hline : ∀ t ∈ [LooseText.text kind], t.OneLine :=
    List.forall_mem_singleton.mpr (LooseText.oneLine_text.mpr
      (oneLine_memberName (List.mem_append_left _ hkind)))
  unfold entries at h
  split at h
  · exact nomatch h
  · obtain ⟨k, x, -, -, rfl⟩ := entriesFrom_eq_error h
    exact hline
  · obtain rfl := Except.error.inj h
    exact hline

theorem records_settled {α : Type} {read : Members → Place → Decoded α} {kind : String}
    (hread : ∀ ms place r, read ms place = .error r → r.fault.Settled) (hkind : kind ∈ sectionNames)
    (h : records read root kind (.root file) = .error r) : r.fault.Settled := by
  rcases records_eq_error h with h | ⟨i, entry, -, h⟩
  · exact entries_settled hkind h
  · exact hread _ _ _ h

/-- **The faults of a document that cannot be read are settled.** -/
theorem ofJson_settled {v : Json} (h : ofJson file v = .error r) : r.fault.Settled := by
  rcases ofJson_stage h with ⟨-, hheader⟩ | ⟨root, rfl, hstage⟩
  · rw [Fault.Settled, hheader.shows_nothing.1]
    exact List.forall_mem_nil _
  rcases hstage with h | h | h | h
  · unfold labelOfJson at h
    split at h
    · exact nomatch h
    · exact nomatch h
    · exact nomatch h
    · obtain rfl := Except.error.inj h
      exact List.forall_mem_nil _
  · exact records_settled (fun _ _ _ h => (versionOfJson_points h).settled (by decide)) (by decide) h
  · exact records_settled (fun _ _ _ h => (typeOfJson_points h).settled (by decide)) (by decide) h
  · exact records_settled (fun _ _ _ => overloadOfJson_settled) (by decide) h

end

end Catalog
end OverloadTables
