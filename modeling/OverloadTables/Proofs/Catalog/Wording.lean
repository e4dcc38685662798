import OverloadTables.Proofs.Catalog.Said
import OverloadTables.Proofs.Catalog.Space
import OverloadTables.Proofs.Json.Same

/-!
# Other wordings of an object

What is read of an object are the values of certain keys, of which some may be left out.  So the
order of the members does not matter, nor what stands under other keys, nor whether a value that
may be left out is written.  Of the name of an address space only the last component matters.

* `Schema`                 the keys that are read, and the values that may be left out;
* `Rewords k ms ms'`       one change of the wording;
* `Alike k key x y`        two values of a key that are read alike;
* `Rewords.alike`          a change of the wording leaves all keys alike that are read;
* `AlikeMembers.version`, `AlikeMembers.type`, `AlikeMembers.overload`   a record in another wording
                           is the same record.
-/

namespace OverloadTables.Catalog

/-! ## wordings -/

/-- What is read of an object: certain keys, and the values of theirs that may be left out. -/
structure Schema where
  read : List LooseText
  defaults : Members

def versionSchema : Schema := ⟨["def", "version"], []⟩

def typeSchema : Schema where
  read := ["def", "name", "vec_width", "addr_space", "is_pointer", "qual_type"]
  defaults := [("vec_width", .int 0), ("addr_space", .str "Default"), ("is_pointer", .bool false),
    ("qual_type", .null), ("qual_type", .str "null")]

def overloadSchema : Schema where
  read := ["name", "signature", "version", "extension"]
  defaults := [("version", .null), ("extension", .str "")]

def catalogSchema : Schema where
  read := ["format", "version", "name", "versions", "types", "builtins"]
  defaults := [("name", .null), ("versions", .arr []), ("types", .arr []), ("builtins", .arr [])]

/-- The key of a name of an address space. -/
abbrev spaceKey : LooseText := "addr_space"

/-- One change of the wording of an object. -/
inductive Rewords (k : Schema) : Members → Members → Prop where
  /-- The members come in another order. -/
  | order {ms ns : Members} (hkeys : (ms.map Prod.fst).Nodup) (hperm : ns.Perm ms) :
      Rewords k ms ns
  /-- A member is added that is not read. -/
  | other (a b : Members) {key : LooseText} (hkey : key ∉ k.read) (x : Json) :
      Rewords k (a ++ b) (a ++ (key, x) :: b)
  /-- A value is written that was left out. -/
  | value (a b : Members) {key : LooseText} {x : Json} (hx : (key, x) ∈ k.defaults)
      (hkey : key ∉ (a ++ b).map Prod.fst) : Rewords k (a ++ b) (a ++ (key, x) :: b)
  /-- The name of an address space gives way to one with the same last component. -/
  | space (a b : Members) {w s t : LooseText} (hread : spaceKey ∈ k.read)
      (hs : w.IsLast s) (ht : w.IsLast t) :
      Rewords k (a ++ (spaceKey, .str s) :: b) (a ++ (spaceKey, .str t) :: b)

/-! ## values that are read alike -/

/-- Two values of a key are read alike; none of them need be there. -/
inductive Alike (k : Schema) (key : LooseText) : Option Json → Option Json → Prop where
  | same (x : Option Json) : Alike k key x x
  | written {x : Json} (hx : (key, x) ∈ k.defaults) : Alike k key none (some x)
  | omitted {x : Json} (hx : (key, x) ∈ k.defaults) : Alike k key (some x) none
  | space {w s t : LooseText} (hkey : key = spaceKey) (hs : w.IsLast s) (ht : w.IsLast t) :
      Alike k key (some (.str s)) (some (.str t))

/-- All that is read of two objects is alike. -/
def AlikeMembers (k : Schema) (ms ns : Members) : Prop :=
  ∀ key ∈ k.read, Alike k key (ms.get? key) (ns.get? key)

/-- **A change of the wording leaves all alike that is read.** -/
theorem Rewords.alike {k : Schema} {ms ns : Members} (h : Rewords k ms ns) :
    AlikeMembers k ms ns := by
  intro key hread
  cases h with
  | order hkeys hperm =>
    rw [Members.get?_perm hkeys hperm]
    exact .same _
  | @other a b other hother x =>
    have hne : other ≠ key := fun e => hother (e ▸ hread)
    rw [Members.get?_middle_of_ne hne]
    exact .same _
  | @value a b written x hx hkey =>
    by_cases e : written = key
    · subst e
      rw [List.map_append, List.mem_append, not_or] at hkey
      rw [Members.get?_append, Members.get?_eq_none hkey.1, Members.get?_eq_none hkey.2,
        Members.get?_middle hkey.1]
      exact .written hx
    · rw [Members.get?_middle_of_ne e]
      exact .same _
  | @space a b w s t _ hs ht =>
    by_cases e : spaceKey = key
    · subst e
      rw [Members.get?_append, Members.get?_append, Members.get?_cons, Members.get?_cons,
        if_pos rfl, if_pos rfl]
      cases a.get? spaceKey with
      | none => exact .space rfl hs ht
      | some x => exact .same _
    · rw [Members.get?_middle_of_ne e, Members.get?_middle_of_ne e]
      exact .same _

namespace Alike
variable {k : Schema} {key : LooseText} {x y : Option Json}

/-- A reader that takes what may be left out for what is left out cannot tell alike values. -/
theorem congr {β : Type} (h : Alike k key x y) (hkey : key ≠ spaceKey) (f : Option Json → β)
    (hf : ∀ v, (key, v) ∈ k.defaults → f (some v) = f none) : f x = f y := by
  cases h with
  | same => rfl
  | written hx => exact (hf _ hx).symm
  | omitted hx => exact hf _ hx
  | space e => exact absurd e hkey

/-- A reader of one key that takes each value that may be left out for none cannot tell objects
that are alike there. -/
theorem read_eq {β : Type} {ms ns : Members} (h : Alike k key (ms.get? key) (ns.get? key))
    (hkey : key ≠ spaceKey) (f : Members → β)
    (hread : ∀ {ms ns : Members}, ms.get? key = ns.get? key → f ms = f ns)
    (hdefaults : ∀ v, (key, v) ∈ k.defaults → f [(key, v)] = f []) : f ms = f ns := by
  -- the value alone stands for the object
  have halone (ms : Members) : f ms = f ((ms.get? key).toList.map fun v => (key, v)) := by
    refine hread ?_
    cases ms.get? key with
    | none => rfl
    | some v => exact (Members.get?_singleton key v).symm
  rw [halone ms, halone ns]
  exact h.congr hkey (fun x => f (x.toList.map fun v => (key, v))) hdefaults

/-- The value of a key that must be there is the same. -/
theorem eq (h : Alike k key x y) (hkey : key ≠ spaceKey)
    (hdefaults : ∀ v, (key, v) ∉ k.defaults) : x = y :=
  h.congr hkey id fun v hv => absurd hv (hdefaults v)

/-- The value of a key with one value that may be left out is the same when that is filled in. -/
theorem getD_eq (h : Alike k key x y) (hkey : key ≠ spaceKey) {d : Json}
    (hdefaults : ∀ v, (key, v) ∈ k.defaults → v = d) : x.getD d = y.getD d :=
  h.congr hkey (·.getD d) fun v hv => by rw [hdefaults v hv]; rfl

end Alike

/-! ## records -/

section
variable {ms ns : Members} {key : String} (place : Place)

theorem requiredText_congr (h : ms.get? key = ns.get? key) :
    SameAnswers (requiredText ms key place) (requiredText ns key place) := by
  intro s
  rw [requiredText_eq_ok, requiredText_eq_ok, h]

theorem optionalText_congr {d : LooseText}
    (h : (ms.get? key).getD (.str d) = (ns.get? key).getD (.str d)) :
    SameAnswers (optionalText ms key place d) (optionalText ns key place d) := by
  intro s
  rw [optionalText_eq_ok, optionalText_eq_ok, h]

theorem optionalInteger_congr {d : Int}
    (h : (ms.get? key).getD (.int d) = (ns.get? key).getD (.int d)) :
    SameAnswers (optionalInteger ms key place d) (optionalInteger ns key place d) := by
  intro n
  rw [optionalInteger_eq_ok, optionalInteger_eq_ok, h]

theorem optionalBoolean_congr {d : Bool}
    (h : (ms.get? key).getD (.bool d) = (ns.get? key).getD (.bool d)) :
    SameAnswers (optionalBoolean ms key place d) (optionalBoolean ns key place d) := by
  intro b
  rw [optionalBoolean_eq_ok, optionalBoolean_eq_ok, h]

theorem concreteOfJson_alike
    (h : Alike typeSchema "qual_type" (ms.get? "qual_type") (ns.get? "qual_type")) :
    concreteOfJson ms place = concreteOfJson ns place := by
  refine h.read_eq (by decide) (concreteOfJson · place) (fun e => ?_) fun v hv => ?_
  · unfold concreteOfJson
    rw [e]
  · have hnull : v = .null ∨ v = .str "null" := by simpa [typeSchema] using hv
    rcases hnull with rfl | rfl
    · rfl
    · rfl

theorem referenceOfJson_alike
    (h : Alike overloadSchema "version" (ms.get? "version") (ns.get? "version")) :
    referenceOfJson ms place = referenceOfJson ns place := by
  refine h.read_eq (by decide) (referenceOfJson · place) (fun e => ?_) fun v hv => ?_
  · unfold referenceOfJson
    rw [e]
  · obtain rfl : v = .null := by simpa [overloadSchema] using hv
    rfl

/-- Names with one last component name one address space. -/
theorem space_alike
    (h : Alike typeSchema "addr_space" (ms.get? "addr_space") (ns.get? "addr_space")) :
    SameAnswers (optionalText ms "addr_space" place "Default" >>= spaceOfName place)
      (optionalText ns "addr_space" place "Default" >>= spaceOfName place) := by
  have hdefault {v : Json} (hv : (spaceKey, v) ∈ typeSchema.defaults) : v = .str "Default" := by
    simpa [typeSchema] using hv
  intro m
  simp only [bind_eq_ok, optionalText_eq_ok, spaceOfName_eq_ok]
  generalize ms.get? "addr_space" = x at h ⊢
  generalize ns.get? "addr_space" = y at h ⊢
  cases h with
  | same => rfl
  | written hx | omitted hx =>
    rw [hdefault hx]
    rfl
  | space _ hs ht =>
    simp only [Option.getD_some, Json.str.injEq, exists_eq_left', spaceOf?_congr hs ht]

end

section
variable {ms ns : Members} (place : Place)

theorem AlikeMembers.version (h : AlikeMembers versionSchema ms ns) :
    SameAnswers (versionOfJson ms place) (versionOfJson ns place) := by
  have hkey : ms.get? "def" = ns.get? "def" :=
    (h "def" (by decide)).eq (by decide) fun _ => List.not_mem_nil
  have hnumber : ms.get? "version" = ns.get? "version" :=
    (h "version" (by decide)).eq (by decide) fun _ => List.not_mem_nil
  rw [versionOfJson_eq, versionOfJson_eq]
  refine (requiredText_congr place hkey).bind fun key => SameAnswers.bind ?_ fun number => .of_eq rfl
  intro n
  rw [numberOfJson_eq_ok, numberOfJson_eq_ok, hnumber]

theorem AlikeMembers.type (h : AlikeMembers typeSchema ms ns) :
    SameAnswers (typeOfJson ms place) (typeOfJson ns place) := by
  have hkey : ms.get? "def" = ns.get? "def" :=
    (h "def" (by decide)).eq (by decide) (by simp [typeSchema])
  have hname : ms.get? "name" = ns.get? "name" :=
    (h "name" (by decide)).eq (by decide) (by simp [typeSchema])
  have hwidth : (ms.get? "vec_width").getD (.int 0) = (ns.get? "vec_width").getD (.int 0) :=
    (h "vec_width" (by decide)).getD_eq (by decide) (by simp [typeSchema])
  have hpointer : (ms.get? "is_pointer").getD (.bool false)
      = (ns.get? "is_pointer").getD (.bool false) :=
    (h "is_pointer" (by decide)).getD_eq (by decide) (by simp [typeSchema])
  rw [typeOfJson_eq, typeOfJson_eq]
  refine (requiredText_congr place hkey).bind fun key => ?_
  refine (requiredText_congr place hname).bind fun name => ?_
  refine (optionalInteger_congr place hwidth).bind fun width => ?_
  rw [← bind_assoc, ← bind_assoc]
  refine (space_alike place (h "addr_space" (by decide))).bind fun space => ?_
  refine (optionalBoolean_congr place hpointer).bind fun pointer => ?_
  rw [concreteOfJson_alike place (h "qual_type" (by decide))]
  exact .of_eq rfl

theorem AlikeMembers.overload (h : AlikeMembers overloadSchema ms ns) :
    SameAnswers (overloadOfJson ms place) (overloadOfJson ns place) := by
  have hname : ms.get? "name" = ns.get? "name" :=
    (h "name" (by decide)).eq (by decide) (by simp [overloadSchema])
  have hsignature : ms.get? "signature" = ns.get? "signature" :=
    (h "signature" (by decide)).eq (by decide) (by simp [overloadSchema])
  have hextension : (ms.get? "extension").getD (.str "") = (ns.get? "extension").getD (.str "") :=
    (h "extension" (by decide)).getD_eq (by decide) (by simp [overloadSchema])
  rw [overloadOfJson_eq, overloadOfJson_eq, referenceOfJson_alike place (h "version" (by decide))]
  refine SameAnswers.bind ?_ fun name => SameAnswers.bind ?_ fun signature => ?_
  · intro name
    rw [printableOfJson_eq_ok, printableOfJson_eq_ok, hname]
  · intro signature
    rw [signatureOfJson_eq_ok, signatureOfJson_eq_ok, hsignature]
  refine SameAnswers.bind (.of_eq rfl) fun version => ?_
  exact (optionalText_congr place hextension).bind fun extension => .of_eq rfl

end

end OverloadTables.Catalog
