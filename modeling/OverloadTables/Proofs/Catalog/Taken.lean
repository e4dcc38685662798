import OverloadTables.Proofs.Catalog.Bytes
import OverloadTables.Proofs.Catalog.Shown
import OverloadTables.Proofs.Catalog.Verdict
import OverloadTables.Proofs.Json.Same
import OverloadTables.Proofs.Json.Scanned

/-!
# What is taken from a document

If every text of a document has a property that all strings have, and every integer one that zero
has, so has what is read of it, and what its faults show.

* `All.follow?`            the value that steps lead to;
* `ofJson_taken`           the texts and the integers of the declarations;
* `Culprit.taken`          the texts that a fault shows as they are;
* `ofBytes_taken`          what is so of the catalog in a file;
* `Unread file bytes e`    why a file gives no catalog.
-/

namespace OverloadTables

open Json (All all_arr all_obj all_str all_int)

section
variable {P : LooseText → Prop} {Q : Int → Prop}

namespace Json

theorem All.get? {ms : Members} {key : LooseText} {v : Json} (h : All P Q (.obj ms))
    (hv : ms.get? key = some v) : All P Q v :=
  (all_obj.mp h).2 _ (Members.mem_of_get? hv)

theorem All.follow? {v x : Json} {path : List PathStep} (h : All P Q v)
    (hx : v.follow? path = some x) : All P Q x := by
  induction path generalizing v with
  | nil =>
    obtain rfl := Option.some.inj hx
    exact h
  | cons s path ih =>
    cases s with
    | member name =>
      cases v with
      | obj ms =>
        obtain ⟨w, hw, hx⟩ := Option.bind_eq_some_iff.mp hx
        exact ih (h.get? hw) hx
      | _ => exact nomatch hx
    | item i =>
      cases v with
      | arr vs =>
        obtain ⟨w, hw, hx⟩ := Option.bind_eq_some_iff.mp hx
        exact ih (all_arr.mp h w (List.mem_of_getElem? hw)) hx
      | _ => exact nomatch hx

theorem All.text {v : Json} {path : List PathStep} {t : LooseText} (h : All P Q v)
    (ht : v.follow? path = some (.str t)) : P t :=
  all_str.mp (h.follow? ht)

end Json

/-! ## declarations -/

theorem eq_some_of_concreteSaid {x : Option Json} {t : LooseText} (h : concreteSaid x = some t) :
    x = some (.str t) := by
  unfold concreteSaid at h
  split at h
  · split at h
    · exact nomatch h
    · exact congrArg (fun s => some (Json.str s)) (Option.some.inj h)
  · exact nomatch h

theorem Catalog.eq_some_of_textSaid {x : Option Json} {t : LooseText} (h : textSaid x = some t) :
    x = some (.str t) := by
  unfold textSaid at h
  split at h
  · exact congrArg (fun s => some (Json.str s)) (Option.some.inj h)
  · exact nomatch h

section
variable {ms : Members} (h : All P Q (.obj ms))
include h

theorem SaysVersion.taken {v : Version} (hv : SaysVersion ms v) :
    (∀ t ∈ v.texts, P t) ∧ Q v.number :=
  ⟨List.forall_mem_singleton.mpr (all_str.mp (h.get? hv.key)), all_int.mp (h.get? hv.number)⟩

theorem SaysType.taken {t : DeclaredType} (hQ : Q 0) (ht : SaysType ms t) :
    (∀ x ∈ t.texts, P x) ∧ Q t.width := by
  have hconcrete : ∀ q ∈ t.concrete, P q := by
    rw [← ht.concrete]
    exact fun q hq => all_str.mp (h.get? (eq_some_of_concreteSaid hq))
  have hwidth : Q t.width := by
    rcases Option.getD_eq_iff.mp ht.width with hx | ⟨-, hzero⟩
    · exact all_int.mp (h.get? hx)
    · exact Json.int.inj hzero ▸ hQ
  refine ⟨List.forall_mem_cons.mpr ⟨all_str.mp (h.get? ht.key),
    List.forall_mem_cons.mpr ⟨all_str.mp (h.get? ht.name), fun q hq => ?_⟩⟩, hwidth⟩
  exact hconcrete q (Option.mem_toList.mp hq)

theorem SaysOverload.taken {o : Overload} (hP : P "") (ho : SaysOverload ms o) :
    ∀ t ∈ o.texts, P t := by
  have hsignature : ∀ key ∈ o.signature, P key := fun key hkey =>
    all_str.mp (all_arr.mp (h.get? ho.signature) _ (List.mem_map_of_mem hkey))
  have hversion : ∀ key ∈ o.version, P key := by
    intro key hkey
    have hx := ho.version
    rw [hkey] at hx
    rcases Option.getD_eq_iff.mp hx with hx | ⟨-, hnull⟩
    · exact all_str.mp (h.get? hx)
    · exact nomatch hnull
  have hextension : P o.extension := by
    rcases Option.getD_eq_iff.mp ho.extension with hx | ⟨-, hempty⟩
    · exact all_str.mp (h.get? hx)
    · exact Json.str.inj hempty ▸ hP
  have hreferences : ∀ key ∈ o.signature ++ o.version.toList, P key :=
    List.forall_mem_append.mpr ⟨hsignature, fun key hkey => hversion key (Option.mem_toList.mp hkey)⟩
  exact List.forall_mem_cons.mpr ⟨all_str.mp (h.get? ho.name),
    List.forall_mem_cons.mpr ⟨hextension, hreferences⟩⟩

end

theorem Said.taken {α : Type} {file : Option String} {v : Json} {kind : String}
    {Says : Members → α → Prop} {l : List (Located α)} (hl : Said file v kind Says l)
    (hv : All P Q v) {T : α → Prop} (htaken : ∀ ms a, All P Q (.obj ms) → Says ms a → T a) :
    ∀ a ∈ l.map (·.value), T a := by
  refine List.forall_mem_map.mpr fun a ha => ?_
  obtain ⟨i, hi⟩ := List.mem_iff_getElem?.mp ha
  obtain ⟨-, ms, hms, hsaid⟩ := hl.entry i a hi
  exact htaken ms a.value (hv.follow? hms) hsaid

/-- **What is read is taken from the document**, where nothing is left out. -/
theorem Catalog.ofJson_taken {source : Option String} {v : Json} {c : Catalog}
    (hP : P "") (hQ : Q 0) (hv : All P Q v) (h : ofJson source v = .ok c) :
    (∀ t ∈ c.content.texts, P t) ∧ ∀ n ∈ c.content.integers, Q n := by
  obtain ⟨hversions, htypes, hoverloads⟩ := ofJson_said h
  have hversion := hversions.taken hv fun ms w hms hw => SaysVersion.taken hms hw
  have htype := htypes.taken hv fun ms t hms ht => SaysType.taken hms hQ ht
  have hoverload := hoverloads.taken hv fun ms o hms ho => SaysOverload.taken hms hP ho
  obtain ⟨ms, rfl, hrecorded⟩ := ofJson_recorded h
  have hlabel : ∀ t ∈ c.label.toList, P t := by
    intro t ht
    rw [hrecorded.label, Option.mem_toList] at ht
    exact all_str.mp (hv.get? (eq_some_of_textSaid ht))
  constructor
  · simp only [Content.texts, List.forall_mem_append, List.forall_mem_flatMap]
    exact ⟨⟨⟨fun w hw => (hversion w hw).1, fun t ht => (htype t ht).1⟩, hoverload⟩, hlabel⟩
  · simp only [Content.integers, List.forall_mem_append, List.forall_mem_map]
    exact ⟨fun w hw => (hversion w hw).2, fun t ht => (htype t ht).2⟩

/-! ## faults -/

theorem Misread.taken {entry : Members} {kind : String} {fault : Fault} {path : List PathStep}
    {x : Option Json} (hP : ∀ s : String, P s) (hentry : All P Q (.obj entry))
    (hx : ∀ y ∈ x, All P Q y) (h : Misread entry kind fault path x) :
    ∀ t ∈ fault.checked ++ fault.unchecked, P t := by
  cases h with
  | requiredText | text | integer | boolean => exact List.forall_mem_singleton.mpr (hP _)
  | addressSpace => exact List.forall_mem_singleton.mpr (all_str.mp (hx _ rfl))
  | signature hname => exact List.forall_mem_singleton.mpr (all_str.mp (hentry.get? hname))
  | _ => exact List.forall_mem_nil _

theorem taken_showConcrete (hP : ∀ s : String, P s) {concrete : Option LooseText}
    (h : ∀ t ∈ concrete, P t) : P (Fault.showConcrete concrete) := by
  cases concrete with
  | none => exact hP "null"
  | some t =>
    rw [Fault.showConcrete]
    split
    · exact hP "null"
    · exact h t rfl

theorem Culprit.taken {file : Option String} {v : Json} {fault : Fault} {path : List PathStep}
    {x : Option Json} (hP : ∀ s : String, P s) (hQ : Q 0) (hv : All P Q v)
    (hleads : v.Leads path x) (h : Culprit file v fault path x) :
    ∀ t ∈ fault.checked ++ fault.unchecked, P t := by
  have hx : ∀ y ∈ x, All P Q y := fun y hy => hv.follow? (hleads.eq_follow?.symm.trans hy)
  cases h with
  | label => exact List.forall_mem_nil _
  | notList | notObject => exact List.forall_mem_singleton.mpr (hP _)
  | record hentry h => exact h.taken hP (hv.follow? hentry) hx
  | typeName => exact List.forall_mem_singleton.mpr (all_str.mp (hx _ rfl))
  | width hkey => exact List.forall_mem_singleton.mpr (hv.text hkey)
  | typeAgain _ _ _ hentry hu =>
    obtain ⟨hkey, -⟩ := List.forall_mem_cons.mp (SaysType.taken (hv.follow? hentry) hQ hu).1
    exact List.forall_mem_cons.mpr ⟨hP _, List.forall_mem_singleton.mpr hkey⟩
  | concreteAgain _ hfirst ht hentry hu =>
    obtain ⟨howner, hrest⟩ := List.forall_mem_cons.mp (SaysType.taken (hv.follow? hfirst) hQ ht).1
    obtain ⟨-, hlater⟩ := List.forall_mem_cons.mp (SaysType.taken (hv.follow? hentry) hQ hu).1
    obtain ⟨-, hfirst⟩ := List.forall_mem_cons.mp hrest
    obtain ⟨hname, hsecond⟩ := List.forall_mem_cons.mp hlater
    simp only [Option.mem_toList] at hfirst hsecond
    refine List.forall_mem_cons.mpr ⟨hname, List.forall_mem_cons.mpr
      ⟨taken_showConcrete hP hfirst, List.forall_mem_cons.mpr
        ⟨taken_showConcrete hP hsecond, List.forall_mem_singleton.mpr howner⟩⟩⟩
  | versionAgain _ _ _ hentry ht =>
    exact (SaysVersion.taken (hv.follow? hentry) ht).1
  | emptySignature hname | noVersion hname =>
    exact List.forall_mem_singleton.mpr (hv.text hname)
  | undeclaredType hname | undeclaredVersion hname =>
    exact List.forall_mem_cons.mpr
      ⟨hv.text hname, List.forall_mem_singleton.mpr (all_str.mp (hx _ rfl))⟩

end

/-! ## files -/

namespace Catalog
variable {file : String} {bytes : ByteArray}

/-- The text of the file is JSON, and the catalog is read of its value. -/
theorem ofBytes_eq_ok {c : Catalog} (h : ofBytes file bytes = .ok c) : ∃ text v,
    String.fromUTF8? bytes = some text ∧
      Json.parseLimited (Text.unifyLineEnds text.toList) = .ok v ∧ ofJson (some file) v = .ok c := by
  rw [ofBytes] at h
  cases htext : String.fromUTF8? bytes with
  | none =>
    rw [htext] at h
    cases h
  | some text =>
    rw [htext] at h
    obtain ⟨v, hv, hc⟩ := bind_eq_ok.mp h
    exact ⟨text, v, rfl, mapError_eq_ok.mp hv, mapError_eq_ok.mp hc⟩

/-- **What is read of a file** has no integer beyond the limit, and no high surrogate right before a
low one. -/
theorem ofBytes_taken {c : Catalog} (h : ofBytes file bytes = .ok c) :
    (∀ t ∈ c.content.texts, t.Apart) ∧ c.content.WithinLimits := by
  obtain ⟨text, v, -, hv, hc⟩ := ofBytes_eq_ok h
  exact ofJson_taken (LooseText.apart_text "") rfl (Json.parseLimited_all hv) hc

/-- Why a file gives no catalog. -/
inductive Unread (file : String) (bytes : ByteArray) : LoadError → Prop where
  | notUtf8 (undecoded : String.fromUTF8? bytes = none) : Unread file bytes .notUtf8
  | longInteger {text : String} {digits line : Nat} (decoded : String.fromUTF8? bytes = some text)
      (long : Json.parseLimited (Text.unifyLineEnds text.toList)
        = .error ⟨.longInteger digits, line⟩) : Unread file bytes (.longInteger digits)
  | syntaxError {text : String} {e : Json.SyntaxError} (decoded : String.fromUTF8? bytes = some text)
      (error : Json.parseLimited (Text.unifyLineEnds text.toList) = .error e)
      (short : ∀ digits, e.fault ≠ .longInteger digits) :
      Unread file bytes (.rejected ⟨.syntaxError e, .root (some file)⟩)
  | refused {text : String} {v : Json} {r : Rejection} (decoded : String.fromUTF8? bytes = some text)
      (value : Json.parseLimited (Text.unifyLineEnds text.toList) = .ok v)
      (refusal : ofJson (some file) v = .error r) : Unread file bytes (.rejected r)

theorem ofSyntax_of_short {e : Json.SyntaxError} (h : ∀ digits, e.fault ≠ .longInteger digits) :
    LoadError.ofSyntax file e = .rejected ⟨.syntaxError e, .root (some file)⟩ := by
  rw [LoadError.ofSyntax]
  split
  next digits hdigits => exact absurd hdigits (h digits)
  next => rfl

theorem ofBytes_eq_error {e : LoadError} : ofBytes file bytes = .error e ↔ Unread file bytes e := by
  constructor
  · intro h
    rw [ofBytes] at h
    cases htext : String.fromUTF8? bytes with
    | none =>
      rw [htext] at h
      obtain rfl := Except.error.inj h
      exact .notUtf8 htext
    | some text =>
      rw [htext] at h
      rcases bind_eq_error.mp h with h | ⟨v, hv, h⟩
      · obtain ⟨s, hs, rfl⟩ := mapError_eq_error.mp h
        by_cases hlong : ∃ digits, s.fault = .longInteger digits
        · obtain ⟨fault, line⟩ := s
          obtain ⟨digits, rfl⟩ := hlong
          exact .longInteger htext hs
        · have hshort := not_exists.mp hlong
          rw [ofSyntax_of_short hshort]
          exact .syntaxError htext hs hshort
      · obtain ⟨r, hr, rfl⟩ := mapError_eq_error.mp h
        exact .refused htext (mapError_eq_ok.mp hv) hr
  · intro h
    cases h with
    | notUtf8 htext => rw [ofBytes, htext]
    | longInteger htext hlong =>
      rw [ofBytes, htext]
      show ofText file _ = _
      rw [ofText, hlong]
      rfl
    | syntaxError htext herror hshort =>
      rw [ofBytes, htext]
      show ofText file _ = _
      rw [ofText, herror, ← ofSyntax_of_short hshort]
      rfl
    | refused htext hvalue hrefused =>
      rw [ofBytes, htext]
      show ofText file _ = _
      rw [ofText, hvalue]
      show Except.mapError _ (ofJson _ _) = _
      rw [hrefused]
      rfl

end Catalog
end OverloadTables
