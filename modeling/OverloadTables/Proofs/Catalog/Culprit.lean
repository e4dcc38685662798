import OverloadTables.Proofs.Catalog.Said

/-!
# What a fault is about

A fault is told at the value it is about, its culprit.

* `Misread kind entry fault path x`   the culprit in a record that cannot be read;
* `Culprit file v fault path x`       the culprit in a document, `path` from its root;
* `HeaderFault v fault`               the faults of a document as a whole, which has no path;
* `Points file v r`                   a rejection has the place of the culprit, and then its path
                                      spells the steps to it (`Points.spelled`);
* `ofJson_stage`                      where the reading of a document stops;
* `ofJson_points`                     whatever is told of a document that cannot be read, is told
                                      of the whole or at the culprit.
-/

namespace OverloadTables

/-! ## culprits -/

def sectionNames : List String := ["versions", "types", "builtins"]

/-- The members, by section, that must be there and be texts that are not empty. -/
def requiredTextMembers : List (String × String) :=
  [("versions", "def"), ("types", "def"), ("types", "name"), ("builtins", "name")]

def optionalTextMembers : List (String × String) :=
  [("types", "addr_space"), ("builtins", "extension")]

def integerMembers : List (String × String) := [("versions", "version"), ("types", "vec_width")]

def booleanMembers : List (String × String) := [("types", "is_pointer")]

/-- The culprit of a record that cannot be read: the steps to it from the record, of which `entry`
are the members, and the value `x` there, none if there is no such member. -/
inductive Misread (entry : Members) : String → Fault → List PathStep → Option Json → Prop
  | requiredText {kind key : String} {x : Option Json} (hkey : (kind, key) ∈ requiredTextMembers)
      (hx : ∀ s : LooseText, x = some (.str s) → s = "") :
      Misread entry kind (.expectedNonEmptyText key) [.member key] x
  | text {kind key : String} {x : Json} (hkey : (kind, key) ∈ optionalTextMembers)
      (hx : ∀ s, x ≠ .str s) : Misread entry kind (.expectedText key) [.member key] (some x)
  | integer {kind key : String} {x : Json} (hkey : (kind, key) ∈ integerMembers)
      (hx : ∀ n, x ≠ .int n) : Misread entry kind (.expectedInteger key) [.member key] (some x)
  | boolean {kind key : String} {x : Json} (hkey : (kind, key) ∈ booleanMembers)
      (hx : ∀ b, x ≠ .bool b) : Misread entry kind (.expectedBoolean key) [.member key] (some x)
  | noNumber : Misread entry "versions" .missingNumber [.member "version"] none
  | addressSpace {name : LooseText} (hname : Catalog.spaceOf? name = none) :
      Misread entry "types" (.unknownAddressSpace name) [.member "addr_space"] (some (.str name))
  | concreteType {x : Json} (hnull : x ≠ .null) (hx : ∀ s : LooseText, x = .str s → s = "") :
      Misread entry "types" .invalidConcreteType [.member "qual_type"] (some x)
  | unprintable {name : LooseText} (hname : name.allPrintable = false) :
      Misread entry "builtins" (.unprintableName name) [.member "name"] (some (.str name))
  | signature {name : LooseText} {x : Option Json} (hname : entry.get? "name" = some (.str name))
      (hx : ∀ vs, x ≠ some (.arr vs)) :
      Misread entry "builtins" (.missingSignature name) [.member "signature"] x
  | typeReference {i : Nat} {x : Json} (hx : ∀ s : LooseText, x = .str s → s = "") :
      Misread entry "builtins" .invalidTypeReference [.member "signature", .item i] (some x)
  | versionReference {x : Json} (hnull : x ≠ .null) (hx : ∀ s, x ≠ .str s) :
      Misread entry "builtins" .invalidVersionReference [.member "version"] (some x)

/-- The culprit of a document: the steps to it from the root, and the value `x` there, none if
there is no such member. -/
inductive Culprit (file : Option String) (v : Json) : Fault → List PathStep → Option Json → Prop
  | label {x : Json} (hnull : x ≠ .null) (hx : ∀ s, x ≠ .str s) :
      Culprit file v .labelNotText [.member "name"] (some x)
  | notList {kind : String} {x : Json} (hkind : kind ∈ sectionNames) (hx : ∀ vs, x ≠ .arr vs) :
      Culprit file v (.sectionNotList kind) [.member kind] (some x)
  | notObject {kind : String} {i : Nat} {x : Json} (hkind : kind ∈ sectionNames)
      (hx : ∀ ms, x ≠ .obj ms) :
      Culprit file v (.entryNotObject kind) (entrySteps kind i) (some x)
  | record {kind : String} {i : Nat} {entry : Members} {fault : Fault} {path : List PathStep}
      {x : Option Json} (hentry : v.follow? (entrySteps kind i) = some (.obj entry))
      (h : Misread entry kind fault path x) : Culprit file v fault (entrySteps kind i ++ path) x
  | typeName {i : Nat} {name : LooseText} (hname : name.isIdentifier = false) :
      Culprit file v (.invalidTypeName name) (entrySteps "types" i ++ [.member "name"])
        (some (.str name))
  | width {i : Nat} {key : LooseText} {width : Int}
      (hkey : v.follow? (entrySteps "types" i ++ [.member "def"]) = some (.str key))
      (hwidth : width < 0) :
      Culprit file v (.negativeWidth key width) (entrySteps "types" i ++ [.member "vec_width"])
        (some (.int width))
  /-- The later of two types. -/
  | typeAgain {i j : Nat} {first entry : Members} {t u : DeclaredType} (hji : j < i)
      (hfirst : v.follow? (entrySteps "types" j) = some (.obj first)) (ht : SaysType first t)
      (hentry : v.follow? (entrySteps "types" i) = some (.obj entry)) (hu : SaysType entry u)
      (hkey : t.key = u.key) (hne : t ≠ u) :
      Culprit file v (.typeConflict u.key ((Place.root file).follow (entrySteps "types" j)))
        (entrySteps "types" i) (some (.obj entry))
  /-- The concrete type of the later of two types. -/
  | concreteAgain {i j : Nat} {first entry : Members} {t u : DeclaredType} (hji : j < i)
      (hfirst : v.follow? (entrySteps "types" j) = some (.obj first)) (ht : SaysType first t)
      (hentry : v.follow? (entrySteps "types" i) = some (.obj entry)) (hu : SaysType entry u)
      (hname : t.name = u.name) (hne : t.concrete ≠ u.concrete) :
      Culprit file v (.concreteConflict u.name t.concrete u.concrete t.key)
        (entrySteps "types" i ++ [.member "qual_type"]) (entry.get? "qual_type")
  /-- The later of two versions. -/
  | versionAgain {i j : Nat} {first entry : Members} {s t : Version} (hji : j < i)
      (hfirst : v.follow? (entrySteps "versions" j) = some (.obj first)) (hs : SaysVersion first s)
      (hentry : v.follow? (entrySteps "versions" i) = some (.obj entry)) (ht : SaysVersion entry t)
      (hkey : s.key = t.key) (hne : s.number ≠ t.number) :
      Culprit file v (.versionConflict t.key s.number t.number) (entrySteps "versions" i)
        (some (.obj entry))
  | emptySignature {i : Nat} {name : LooseText}
      (hname : v.follow? (entrySteps "builtins" i ++ [.member "name"]) = some (.str name)) :
      Culprit file v (.emptySignature name) (entrySteps "builtins" i ++ [.member "signature"])
        (some (.arr []))
  | undeclaredType {i k : Nat} {name key : LooseText}
      (hname : v.follow? (entrySteps "builtins" i ++ [.member "name"]) = some (.str name))
      (hkey : ∀ j, v.follow? (entrySteps "types" j ++ [.member "def"]) ≠ some (.str key)) :
      Culprit file v (.undeclaredType name key)
        (entrySteps "builtins" i ++ [.member "signature", .item k]) (some (.str key))
  | noVersion {i : Nat} {name : LooseText} {x : Option Json}
      (hname : v.follow? (entrySteps "builtins" i ++ [.member "name"]) = some (.str name))
      (hx : x = none ∨ x = some .null) :
      Culprit file v (.missingVersion name) (entrySteps "builtins" i ++ [.member "version"]) x
  | undeclaredVersion {i : Nat} {name key : LooseText}
      (hname : v.follow? (entrySteps "builtins" i ++ [.member "name"]) = some (.str name))
      (hkey : ∀ j, v.follow? (entrySteps "versions" j ++ [.member "def"]) ≠ some (.str key)) :
      Culprit file v (.undeclaredVersion name key) (entrySteps "builtins" i ++ [.member "version"])
        (some (.str key))

/-- The faults of a document as a whole: it is no object, or its header is not the expected one. -/
inductive HeaderFault : Json → Fault → Prop
  | notAnObject {v : Json} (hv : ∀ ms, v ≠ .obj ms) : HeaderFault v .notAnObject
  | unsupported {ms : Members} (hms : Catalog.supported ms = false) :
      HeaderFault (.obj ms) .unsupportedHeader

/-- A rejection has the place of the culprit. -/
def Points (file : Option String) (v : Json) (r : Rejection) : Prop :=
  ∃ path x, r.place = (Place.root file).follow path ∧ v.Leads path x ∧
    Culprit file v r.fault path x

/-! ## paths of culprits -/

/-- The names of the members that are looked at. -/
def memberNames : List String :=
  sectionNames ++ ["def", "name", "version", "vec_width", "addr_space", "is_pointer", "qual_type",
    "signature", "extension"]

/-- The step is to an item, or to a member that is looked at. -/
def PathStep.known : PathStep → Bool
  | .member name => memberNames.contains name
  | .item _ => true

theorem mem_memberNames {name : String} (h : PathStep.known (.member name) = true) :
    name ∈ memberNames :=
  List.contains_iff_mem.mp h

theorem PathStep.plain_of_known {s : PathStep} (h : s.known = true) : s.plain = true := by
  cases s with
  | member name =>
    have hall : (memberNames.all fun name => PathStep.plain (.member name)) = true := by decide
    exact List.all_eq_true.mp hall name (mem_memberNames h)
  | item i => rfl

theorem known_section {kind : String} (h : kind ∈ sectionNames) :
    (PathStep.member kind).known = true :=
  List.contains_iff_mem.mpr (List.mem_append_left _ h)

/-- The members that are read as one kind of value. -/
def readMembers : List (String × String) :=
  requiredTextMembers ++ optionalTextMembers ++ integerMembers ++ booleanMembers

theorem known_readMember {kind key : String} (h : (kind, key) ∈ readMembers) :
    kind ∈ sectionNames ∧ (PathStep.member key).known = true := by
  have hall : (readMembers.all fun m => sectionNames.contains m.1 && (PathStep.member m.2).known)
      = true := by decide
  obtain ⟨hkind, hkey⟩ := Bool.and_eq_true_iff.mp (List.all_eq_true.mp hall _ h)
  exact ⟨List.contains_iff_mem.mp hkind, hkey⟩

theorem Misread.known {entry : Members} {kind : String} {fault : Fault} {path : List PathStep}
    {x : Option Json} (h : Misread entry kind fault path x) :
    kind ∈ sectionNames ∧ ∀ s ∈ path, s.known = true := by
  have hone {key : String} (hmember : kind ∈ sectionNames ∧ (PathStep.member key).known = true) :
      kind ∈ sectionNames ∧ ∀ s ∈ [PathStep.member key], s.known = true :=
    ⟨hmember.1, List.forall_mem_singleton.mpr hmember.2⟩
  cases h with
  | requiredText hkey | text hkey | integer hkey | boolean hkey =>
    exact hone (known_readMember (by simp only [readMembers, List.mem_append, hkey, true_or,
      or_true]))
  | noNumber | addressSpace | concreteType | unprintable | signature | versionReference =>
    exact hone ⟨by decide, by decide⟩
  | typeReference =>
    exact ⟨by decide, List.forall_mem_cons.mpr ⟨by decide, List.forall_mem_singleton.mpr rfl⟩⟩

theorem Culprit.known {file : Option String} {v : Json} {fault : Fault} {path : List PathStep}
    {x : Option Json} (h : Culprit file v fault path x) :
    (∃ name rest, path = .member name :: rest) ∧ ∀ s ∈ path, s.known = true := by
  have hentry {kind : String} (hkind : kind ∈ sectionNames) (i : Nat) {rest : List PathStep}
      (hrest : ∀ s ∈ rest, s.known = true) : (∃ name rest', entrySteps kind i ++ rest
        = .member name :: rest') ∧ ∀ s ∈ entrySteps kind i ++ rest, s.known = true := by
    refine ⟨⟨kind, .item i :: rest, rfl⟩, ?_⟩
    exact List.forall_mem_cons.mpr ⟨known_section hkind,
      List.forall_mem_cons.mpr ⟨rfl, hrest⟩⟩
  cases h with
  | label => exact ⟨⟨_, _, rfl⟩, List.forall_mem_singleton.mpr (by decide)⟩
  | notList hkind =>
    exact ⟨⟨_, _, rfl⟩, List.forall_mem_singleton.mpr (known_section hkind)⟩
  | notObject hkind => exact hentry hkind _ (List.forall_mem_nil _)
  | record _ h => exact hentry h.known.1 _ h.known.2
  | typeAgain | versionAgain => exact hentry (by decide) _ (List.forall_mem_nil _)
  | undeclaredType =>
    exact hentry (by decide) _ (List.forall_mem_cons.mpr
      ⟨by decide, List.forall_mem_singleton.mpr rfl⟩)
  | typeName | width | concreteAgain | emptySignature | noVersion | undeclaredVersion =>
    exact hentry (by decide) _ (List.forall_mem_singleton.mpr (by decide))

theorem Points.spelled {file : Option String} {v : Json} {r : Rejection} (h : Points file v r) :
    ∃ text path x, r.place = ⟨file, some text⟩ ∧ stepsOf? text = some path ∧ v.Leads path x ∧
      Culprit file v r.fault path x := by
  obtain ⟨path, x, hplace, hleads, hculprit⟩ := h
  obtain ⟨⟨name, rest, rfl⟩, hknown⟩ := hculprit.known
  obtain ⟨text, hfollow, hsteps⟩ :=
    stepsOf?_follow file fun s hs => PathStep.plain_of_known (hknown s hs)
  exact ⟨text, _, x, hplace.trans hfollow, hsteps, hleads, hculprit⟩

/-- A culprit that is a member of the entry of a declaration. -/
theorem points_member {file : Option String} {v : Json} {kind key : String} {i : Nat}
    {ms : Members} {x : Option Json} {fault : Fault}
    (hms : v.follow? (entrySteps kind i) = some (.obj ms)) (hx : ms.get? key = x)
    (h : Culprit file v fault (entrySteps kind i ++ [.member key]) x) :
    Points file v ⟨fault, ((Place.root file).follow (entrySteps kind i)).member key⟩ :=
  ⟨_, x, rfl, (hx ▸ Json.leads_member ms key).below hms, h⟩

namespace Catalog

/-! ## records -/

/-- A rejection has the place of the culprit in a record that stands at `place`. -/
def PointsBelow (kind : String) (ms : Members) (place : Place) (r : Rejection) : Prop :=
  ∃ path x, r.place = place.follow path ∧ Json.Leads (.obj ms) path x ∧
    Misread ms kind r.fault path x

section
variable {kind key : String} {ms : Members} {place : Place} {r : Rejection}

theorem pointsBelow_member {fault : Fault} {x : Option Json} (hx : ms.get? key = x)
    (h : Misread ms kind fault [.member key] x) :
    PointsBelow kind ms place ⟨fault, place.member key⟩ :=
  ⟨[.member key], x, rfl, hx ▸ Json.leads_member ms key, h⟩

theorem requiredText_points (hkey : (kind, key) ∈ requiredTextMembers)
    (h : requiredText ms key place = .error r) : PointsBelow kind ms place r := by
  unfold requiredText at h
  split at h
  next s hs =>
    by_cases hempty : s = ""
    · rw [if_pos hempty] at h
      obtain rfl := Except.error.inj h
      refine pointsBelow_member hs (.requiredText hkey fun t ht => ?_)
      obtain rfl := Json.str.inj (Option.some.inj ht)
      exact hempty
    · rw [if_neg hempty] at h
      exact nomatch h
  next hnone =>
    obtain rfl := Except.error.inj h
    exact pointsBelow_member rfl (.requiredText hkey fun s hs => absurd hs (hnone s))

theorem optionalText_points {absent : String} (hkey : (kind, key) ∈ optionalTextMembers)
    (h : optionalText ms key place absent = .error r) : PointsBelow kind ms place r := by
  unfold optionalText at h
  split at h
  · exact nomatch h
  · exact nomatch h
  next x hs hx =>
    obtain rfl := Except.error.inj h
    exact pointsBelow_member hx (.text hkey hs)

theorem optionalInteger_points {absent : Int} (hkey : (kind, key) ∈ integerMembers)
    (h : optionalInteger ms key place absent = .error r) : PointsBelow kind ms place r := by
  unfold optionalInteger at h
  split at h
  · exact nomatch h
  · exact nomatch h
  next x hn hx =>
    obtain rfl := Except.error.inj h
    exact pointsBelow_member hx (.integer hkey hn)

theorem optionalBoolean_points {absent : Bool} (hkey : (kind, key) ∈ booleanMembers)
    (h : optionalBoolean ms key place absent = .error r) : PointsBelow kind ms place r := by
  unfold optionalBoolean at h
  split at h
  · exact nomatch h
  · exact nomatch h
  next x hb hx =>
    obtain rfl := Except.error.inj h
    exact pointsBelow_member hx (.boolean hkey hb)

theorem versionOfJson_points (h : versionOfJson ms place = .error r) :
    PointsBelow "versions" ms place r := by
  rw [versionOfJson_eq] at h
  rcases bind_eq_error.mp h with h | ⟨key, -, h⟩
  · exact requiredText_points (by decide) h
  rcases bind_eq_error.mp h with h | ⟨number, -, h⟩
  · unfold numberOfJson at h
    split at h
    next hnone =>
      obtain rfl := Except.error.inj h
      exact pointsBelow_member hnone .noNumber
    next => exact optionalInteger_points (by decide) h
  · exact nomatch h

theorem concreteOfJson_points (h : concreteOfJson ms place = .error r) :
    PointsBelow "types" ms place r := by
  unfold concreteOfJson at h
  split at h
  · exact nomatch h
  · exact nomatch h
  next s hs =>
    by_cases hnull : s = "null"
    · rw [if_pos hnull] at h
      exact nomatch h
    · by_cases hempty : s = ""
      · rw [if_neg hnull, if_pos hempty] at h
        obtain rfl := Except.error.inj h
        exact pointsBelow_member hs (.concreteType nofun fun t ht => Json.str.inj ht ▸ hempty)
      · rw [if_neg hnull, if_neg hempty] at h
        exact nomatch h
  next x hnull hs hx =>
    obtain rfl := Except.error.inj h
    exact pointsBelow_member hx (.concreteType hnull fun s hstr => absurd hstr (hs s))

theorem typeOfJson_points (h : typeOfJson ms place = .error r) :
    PointsBelow "types" ms place r := by
  rw [typeOfJson_eq] at h
  rcases bind_eq_error.mp h with h | ⟨key, -, h⟩
  · exact requiredText_points (by decide) h
  rcases bind_eq_error.mp h with h | ⟨name, -, h⟩
  · exact requiredText_points (by decide) h
  rcases bind_eq_error.mp h with h | ⟨width, -, h⟩
  · exact optionalInteger_points (by decide) h
  rcases bind_eq_error.mp h with h | ⟨spaceName, hspaceName, h⟩
  · exact optionalText_points (by decide) h
  rcases bind_eq_error.mp h with h | ⟨space, -, h⟩
  · unfold spaceOfName at h
    split at h
    · exact nomatch h
    next hunknown =>
      obtain rfl := Except.error.inj h
      have hx := optionalText_eq_ok.mp hspaceName
      cases hmember : ms.get? "addr_space" with
      | none =>
        -- the address space of a type that names none is known
        rw [hmember] at hx
        obtain rfl := Json.str.inj hx
        exact nomatch hunknown
      | some x =>
        rw [hmember] at hx
        obtain rfl : x = .str spaceName := hx
        exact pointsBelow_member hmember (.addressSpace hunknown)
  rcases bind_eq_error.mp h with h | ⟨pointer, -, h⟩
  · exact optionalBoolean_points (by decide) h
  rcases bind_eq_error.mp h with h | ⟨concrete, -, h⟩
  · exact concreteOfJson_points h
  · exact nomatch h

/-- The item that is no reference, and its number. -/
theorem referencesOfJson_eq_error {i : Nat} {vs : List Json}
    (h : referencesOfJson place i vs = .error r) : ∃ k x, vs[k]? = some x ∧
      (∀ s : LooseText, x = .str s → s = "") ∧
      r = ⟨.invalidTypeReference, (place.member "signature").item ((i + k : Nat) : Int)⟩ := by
  induction vs generalizing i with
  | nil => cases h
  | cons v vs ih =>
    cases v with
    | str s =>
      rw [referencesOfJson] at h
      by_cases hempty : s = ""
      · rw [if_pos hempty] at h
        obtain rfl := Except.error.inj h
        exact ⟨0, .str s, rfl, fun t ht => Json.str.inj ht ▸ hempty, rfl⟩
      · rw [if_neg hempty] at h
        rcases bind_eq_error.mp h with h | ⟨rest, -, h⟩
        · obtain ⟨k, x, hx, hs, rfl⟩ := ih h
          exact ⟨k + 1, x, hx, hs, by rw [Nat.add_right_comm]; rfl⟩
        · cases h
    | _ =>
      obtain rfl := Except.error.inj h
      exact ⟨0, _, rfl, fun _ hx => (by cases hx), rfl⟩

theorem overloadOfJson_points (h : overloadOfJson ms place = .error r) :
    PointsBelow "builtins" ms place r := by
  rw [overloadOfJson_eq] at h
  rcases bind_eq_error.mp h with h | ⟨name, hname, h⟩
  · rcases bind_eq_error.mp h with h | ⟨name, hname, h⟩
    · exact requiredText_points (by decide) h
    split at h
    next hprintable =>
      obtain rfl := Except.error.inj h
      exact pointsBelow_member (requiredText_eq_ok.mp hname).1 (.unprintable hprintable)
    · exact nomatch h
  rcases bind_eq_error.mp h with h | ⟨signature, -, h⟩
  · unfold signatureOfJson at h
    split at h
    next vs hvs =>
      obtain ⟨k, x, hk, hx, rfl⟩ := referencesOfJson_eq_error h
      refine ⟨[.member "signature", .item k], some x, ?_, .here ?_, .typeReference hx⟩
      · rw [Nat.zero_add]
        rfl
      · rw [Json.follow?, hvs, Option.bind_some, Json.follow?, hk]
        rfl
    next hnone =>
      obtain rfl := Except.error.inj h
      exact pointsBelow_member rfl
        (.signature (printableOfJson_eq_ok.mp hname).1 fun vs hvs => hnone vs hvs)
  rcases bind_eq_error.mp h with h | ⟨version, -, h⟩
  · unfold referenceOfJson at h
    split at h
    · cases h
    · cases h
    · cases h
    next x hnull hs hx =>
      obtain rfl := Except.error.inj h
      exact pointsBelow_member hx (.versionReference hnull hs)
  rcases bind_eq_error.mp h with h | ⟨extension, -, h⟩
  · exact optionalText_points (by decide) h
  · cases h

end

/-! ## documents -/

section
variable {file : Option String} {root : Members} {r : Rejection}

theorem entriesFrom_eq_error {key : String} {place : Place} {i : Nat} {vs : List Json}
    (h : entriesFrom key place i vs = .error r) : ∃ k x, vs[k]? = some x ∧ (∀ ms, x ≠ .obj ms) ∧
      r = ⟨.entryNotObject key, place.item ((i + k : Nat) : Int)⟩ := by
  induction vs generalizing i with
  | nil => cases h
  | cons v vs ih =>
    cases v with
    | obj ms =>
      rw [entriesFrom] at h
      rcases bind_eq_error.mp h with h | ⟨rest, -, h⟩
      · obtain ⟨k, x, hx, hobj, rfl⟩ := ih h
        exact ⟨k + 1, x, hx, hobj, by rw [Nat.add_right_comm]; rfl⟩
      · cases h
    | _ =>
      obtain rfl := Except.error.inj h
      exact ⟨0, _, rfl, fun _ hx => (by cases hx), rfl⟩

theorem entries_points {kind : String} (hkind : kind ∈ sectionNames)
    (h : entries root kind (.root file) = .error r) : Points file (.obj root) r := by
  unfold entries at h
  split at h
  · exact nomatch h
  next vs hvs =>
    obtain ⟨k, x, hk, hx, rfl⟩ := entriesFrom_eq_error h
    refine ⟨entrySteps kind k, some x, ?_, .here ?_, .notObject hkind hx⟩
    · rw [Nat.zero_add]
      rfl
    · rw [follow?_entry hvs, hk]
  next x hlist hx =>
    obtain rfl := Except.error.inj h
    exact ⟨[.member kind], some x, rfl, hx ▸ Json.leads_member root kind, .notList hkind hlist⟩

/-- A culprit of a record is one of its document. -/
theorem PointsBelow.points {v : Json} {kind : String} {i : Nat} {entry : Members}
    (hentry : v.follow? (entrySteps kind i) = some (.obj entry))
    (h : PointsBelow kind entry ((Place.root file).follow (entrySteps kind i)) r) :
    Points file v r := by
  obtain ⟨path, x, hplace, hleads, hmisread⟩ := h
  refine ⟨entrySteps kind i ++ path, x, ?_, hleads.below hentry, .record hentry hmisread⟩
  rw [Place.follow_append]
  exact hplace

/-- What is told of a section is told of its entries as a whole, or of the record in one of them. -/
theorem records_eq_error {α : Type} {read : Members → Place → Decoded α} {kind : String}
    (h : records read root kind (.root file) = .error r) :
    entries root kind (.root file) = .error r ∨ ∃ i entry,
      (Json.obj root).follow? (entrySteps kind i) = some (.obj entry) ∧
      read entry ((Place.root file).follow (entrySteps kind i)) = .error r := by
  rcases bind_eq_error.mp h with h | ⟨es, hes, h⟩
  · exact .inl h
  obtain ⟨e, he, herror⟩ := mapM_eq_error h
  obtain ⟨i, hi⟩ := List.mem_iff_getElem?.mp he
  obtain ⟨hplace, hentry⟩ := (entries_eq_ok hes).1 i e hi
  rcases bind_eq_error.mp herror with herror | ⟨a, -, hpure⟩
  · exact .inr ⟨i, e.value, hentry, hplace ▸ herror⟩
  · exact nomatch hpure

theorem records_points {α : Type} {read : Members → Place → Decoded α} {kind : String}
    (hread : ∀ ms place r, read ms place = .error r → PointsBelow kind ms place r)
    (hkind : kind ∈ sectionNames) (h : records read root kind (.root file) = .error r) :
    Points file (.obj root) r := by
  rcases records_eq_error h with h | ⟨i, entry, hentry, herror⟩
  · exact entries_points hkind h
  · exact PointsBelow.points hentry (hread _ _ _ herror)

theorem labelOfJson_points (h : labelOfJson root (.root file) = .error r) :
    Points file (.obj root) r := by
  unfold labelOfJson at h
  split at h
  · exact nomatch h
  · exact nomatch h
  · exact nomatch h
  next x hnull hs hx =>
    obtain rfl := Except.error.inj h
    exact ⟨[.member "name"], some x, rfl, hx ▸ Json.leads_member root "name", .label hnull hs⟩

/-- Where the reading of a document stops. -/
theorem ofJson_stage {v : Json} (h : ofJson file v = .error r) :
    (r.place = .root file ∧ HeaderFault v r.fault) ∨ ∃ root, v = .obj root ∧
      (labelOfJson root (.root file) = .error r ∨
      records versionOfJson root "versions" (.root file) = .error r ∨
      records typeOfJson root "types" (.root file) = .error r ∨
      records overloadOfJson root "builtins" (.root file) = .error r) := by
  cases v with
  | obj ms =>
    rw [ofJson_obj] at h
    split at h
    · refine .inr ⟨ms, rfl, ?_⟩
      rcases bind_eq_error.mp h with h | ⟨label, -, h⟩
      · exact .inl h
      rcases bind_eq_error.mp h with h | ⟨versions, -, h⟩
      · exact .inr (.inl h)
      rcases bind_eq_error.mp h with h | ⟨types, -, h⟩
      · exact .inr (.inr (.inl h))
      rcases bind_eq_error.mp h with h | ⟨overloads, -, h⟩
      · exact .inr (.inr (.inr h))
      · exact nomatch h
    next hheader =>
      obtain rfl := Except.error.inj h
      exact .inl ⟨rfl, .unsupported (eq_false_of_ne_true hheader)⟩
  | _ =>
    obtain rfl := Except.error.inj h
    exact .inl ⟨rfl, .notAnObject nofun⟩

/-- **What is told of a document that cannot be read is told of the whole or at the culprit.** -/
theorem ofJson_points {v : Json} (h : ofJson file v = .error r) :
    (r.place = .root file ∧ HeaderFault v r.fault) ∨ Points file v r := by
  rcases ofJson_stage h with hheader | ⟨root, rfl, hstage⟩
  · exact .inl hheader
  refine .inr ?_
  rcases hstage with h | h | h | h
  · exact labelOfJson_points h
  · exact records_points (fun _ _ _ => versionOfJson_points) (by decide) h
  · exact records_points (fun _ _ _ => typeOfJson_points) (by decide) h
  · exact records_points (fun _ _ _ => overloadOfJson_points) (by decide) h

end

end Catalog
end OverloadTables
