import OverloadTables.SemanticType.Table
import Mathlib.Data.List.Nodup

/-!
# Types in a list

The types in the order of their numbers, without caches: the number of a type is found by looking
for the type.

* `SemanticType.definition`   a type field by field;
* `TypeStore.request`         the number of a type, in such a list;
* `TypeTable.Request.type`    the type that a request is for;
* `Request.plan`              what a request comes to, before any cache is looked at;
* `TypeStore.request_cases`   an answer is the number of that type, or of one that is qualified
                              enough already;
* `TypeStore.request_grows`   what a request stores;
* `TypeTable.Refused`         when there is no answer;
* `TypeStore.Sound t`         no type is stored twice, and none is qualified twice.
-/

namespace OverloadTables

/-! ## types field by field -/

namespace SemanticType

inductive Kind where
  | void
  | builtin
  | vector
  | qualified
  | pointer
  deriving DecidableEq, Repr

def kind : SemanticType → Kind
  | .void => .void
  | .builtin _ => .builtin
  | .vector _ _ => .vector
  | .qualified _ _ => .qualified
  | .pointer _ => .pointer

def width? : SemanticType → Option Int
  | .vector _ width => some width
  | _ => none

def space? : SemanticType → Option AddressSpace
  | .qualified _ space => some space
  | _ => none

/-- What is stored of a type. -/
structure Definition where
  kind : Kind
  name : String
  parts : List Int
  width : Option Int
  space : Option AddressSpace
  deriving DecidableEq, Repr

def definition (d : SemanticType) : Definition := ⟨d.kind, d.name, d.parts, d.width?, d.space?⟩

theorem definition_injective {d d' : SemanticType} (h : d.definition = d'.definition) : d = d' := by
  cases d <;> cases d' <;> simp_all [definition, kind, name, parts, width?, space?]

def IsQualified (d : SemanticType) : Prop := ∃ inner space, d = .qualified inner space

end SemanticType

/-! ## requests -/

namespace TypeTable

namespace Request

def type : Request → SemanticType
  | .void => .void
  | .builtin name => .builtin name
  | .vector element width => .vector element width
  | .qualify inner space => .qualified inner space
  | .pointer pointee => .pointer pointee

theorem type_injective {r r' : Request} (h : r.type = r'.type) : r = r' := by
  cases r <;> cases r' <;> simp_all [type]

/-- Where the types are known by `get?`, the request is for a type of its own: one by the default
space or of a qualified type is not. -/
def Proper (get? : Int → Option SemanticType) : Request → Prop
  | .qualify inner space => space ≠ .default ∧ ∀ d, get? inner = some d → ¬ d.IsQualified
  | _ => True

end Request

/-- The requests that have no answer, with the fault that is told instead. -/
inductive Refused (get? : Int → Option SemanticType) : Request → TypeFault → Prop where
  | width {element width : Int} (h : width ≤ 0) : Refused get? (.vector element width) .width
  | unknown {inner : Int} {space : AddressSpace} (hs : space ≠ .default)
      (h : get? inner = none) : Refused get? (.qualify inner space) (.unknown inner)
  | conflict {inner part : Int} {space other : AddressSpace} (hs : space ≠ .default)
      (h : get? inner = some (.qualified part other)) (hne : other ≠ space) :
      Refused get? (.qualify inner space) .conflictingSpace

/-- What a request comes to: it is refused, or answered by a number that it names, or else the
number of its type is wanted. -/
def Request.plan (get? : Int → Option SemanticType) : Request → Except TypeFault (Option Int)
  | .vector _ width => if width ≤ 0 then .error .width else .ok none
  | .qualify inner space =>
    if space = .default then .ok (some inner)
    else match get? inner with
      | none => .error (.unknown inner)
      | some (.qualified _ space') =>
        if space' = space then .ok (some inner) else .error .conflictingSpace
      | some _ => .ok none
  | .void | .builtin _ | .pointer _ => .ok none

section
variable {get? : Int → Option SemanticType} {r : Request} {inner : Int} {space : AddressSpace}

theorem plan_qualified {part : Int} {other : AddressSpace} (hs : space ≠ .default)
    (h : get? inner = some (.qualified part other)) : (Request.qualify inner space).plan get?
      = if other = space then .ok (some inner) else .error .conflictingSpace := by
  rw [Request.plan, if_neg hs, h]

theorem plan_unqualified {d : SemanticType} (hs : space ≠ .default) (h : get? inner = some d)
    (hd : ¬ d.IsQualified) : (Request.qualify inner space).plan get? = .ok none := by
  rw [Request.plan, if_neg hs, h]
  cases d with
  | qualified part other => exact absurd ⟨part, other, rfl⟩ hd
  | void | builtin _ | vector _ _ | pointer _ => rfl

/-- The number of a type is wanted if the request is for a type of its own, and a type that is to
be qualified is known. -/
theorem plan_eq_none (h : r.plan get? = .ok none) : r.Proper get? ∧
    ∀ inner space, r = .qualify inner space → ∃ d, get? inner = some d := by
  cases r with
  | void | builtin _ | vector _ _ | pointer _ => exact ⟨trivial, nofun⟩
  | qualify inner space =>
    by_cases hs : space = .default
    · rw [Request.plan, if_pos hs] at h
      exact nomatch h
    cases hd : get? inner with
    | none =>
      rw [Request.plan, if_neg hs, hd] at h
      exact nomatch h
    | some d =>
      refine ⟨⟨hs, fun d' hd' hq => ?_⟩, fun inner' space' e => ?_⟩
      · obtain ⟨part, other, rfl⟩ := hq
        rw [plan_qualified hs hd'] at h
        by_cases ho : other = space
        · rw [if_pos ho] at h
          exact nomatch h
        · rw [if_neg ho] at h
          exact nomatch h
      · obtain ⟨rfl, -⟩ := Request.qualify.inj e
        exact ⟨d, hd⟩

/-- A number that is named answers if its type has the space already, or the space is the default
one. -/
theorem plan_eq_some {id : Int} : r.plan get? = .ok (some id) ↔ ∃ space, r = .qualify id space ∧
    (space = .default ∨ ∃ part, get? id = some (.qualified part space)) := by
  constructor
  · intro h
    cases r with
    | void | builtin _ | pointer _ => exact nomatch h
    | vector element width =>
      rw [Request.plan] at h
      by_cases hw : width ≤ 0
      · rw [if_pos hw] at h
        exact nomatch h
      · rw [if_neg hw] at h
        exact nomatch h
    | qualify inner space =>
      by_cases hs : space = .default
      · rw [Request.plan, if_pos hs, Except.ok.injEq, Option.some.injEq] at h
        exact ⟨space, by rw [h], .inl hs⟩
      cases hd : get? inner with
      | none =>
        rw [Request.plan, if_neg hs, hd] at h
        exact nomatch h
      | some d =>
        by_cases hq : d.IsQualified
        · obtain ⟨part, other, rfl⟩ := hq
          rw [plan_qualified hs hd] at h
          by_cases ho : other = space
          · rw [if_pos ho, Except.ok.injEq, Option.some.injEq] at h
            subst h
            exact ⟨space, rfl, .inr ⟨part, ho ▸ hd⟩⟩
          · rw [if_neg ho] at h
            exact nomatch h
        · rw [plan_unqualified hs hd hq] at h
          exact nomatch h
  · rintro ⟨space, rfl, hsame⟩
    by_cases hs : space = .default
    · rw [Request.plan, if_pos hs]
    · obtain ⟨part, hpart⟩ := hsame.resolve_left hs
      rw [plan_qualified hs hpart, if_pos rfl]

theorem plan_eq_error {e : TypeFault} : r.plan get? = .error e ↔ Refused get? r e := by
  constructor
  · intro h
    cases r with
    | void | builtin _ | pointer _ => exact nomatch h
    | vector element width =>
      rw [Request.plan] at h
      by_cases hw : width ≤ 0
      · rw [if_pos hw, Except.error.injEq] at h
        exact h ▸ .width hw
      · rw [if_neg hw] at h
        exact nomatch h
    | qualify inner space =>
      by_cases hs : space = .default
      · rw [Request.plan, if_pos hs] at h
        exact nomatch h
      cases hd : get? inner with
      | none =>
        rw [Request.plan, if_neg hs, hd, Except.error.injEq] at h
        exact h ▸ .unknown hs hd
      | some d =>
        by_cases hq : d.IsQualified
        · obtain ⟨part, other, rfl⟩ := hq
          rw [plan_qualified hs hd] at h
          by_cases ho : other = space
          · rw [if_pos ho] at h
            exact nomatch h
          · rw [if_neg ho, Except.error.injEq] at h
            exact h ▸ .conflict hs hd ho
        · rw [plan_unqualified hs hd hq] at h
          exact nomatch h
  · rintro (hw | ⟨hs, hd⟩ | ⟨hs, hd, ho⟩)
    · rw [Request.plan, if_pos hw]
    · rw [Request.plan, if_neg hs, hd]
    · rw [plan_qualified hs hd, if_neg ho]

end

end TypeTable

/-! ## the list -/

/-- The types in the order of their numbers. -/
structure TypeStore where
  types : List SemanticType
  deriving DecidableEq, Repr

namespace TypeStore

open TypeTable (Request Refused plan_eq_none plan_eq_some plan_eq_error)

def empty : TypeStore := ⟨[]⟩

def get? (t : TypeStore) (id : Int) : Option SemanticType :=
  if id < 1 then none else t.types[(id - 1).toNat]?

/-- The number of a type, which is stored at its first sight. -/
def intern (t : TypeStore) (d : SemanticType) : Int × TypeStore :=
  match t.types.idxOf? d with
  | some i => (i + 1, t)
  | none => (t.types.length + 1, ⟨t.types ++ [d]⟩)

def request (t : TypeStore) (r : Request) : Except TypeFault (Int × TypeStore) :=
  match r.plan t.get? with
  | .error e => .error e
  | .ok (some id) => .ok (id, t)
  | .ok none => .ok (t.intern r.type)

/-! ## numbers -/

section
variable {t t' : TypeStore} {id : Int} {d : SemanticType}

/-- A number is the place of its type, counted from one. -/
theorem get?_eq_some : t.get? id = some d ↔ ∃ n : Nat, id = n + 1 ∧ t.types[n]? = some d := by
  unfold get?
  by_cases h : id < 1
  · rw [if_pos h]
    constructor
    · intro e
      exact nomatch e
    · rintro ⟨n, rfl, -⟩
      omega
  · rw [if_neg h]
    constructor
    · intro e
      exact ⟨(id - 1).toNat, by omega, e⟩
    · rintro ⟨n, rfl, e⟩
      have hn : ((n : Int) + 1 - 1).toNat = n := by omega
      rw [hn, e]

/-- The numbers in use are those from one up to the number of types. -/
theorem get?_ne_none_iff : t.get? id ≠ none ↔ 1 ≤ id ∧ id ≤ t.types.length := by
  unfold get?
  by_cases h : id < 1
  · rw [if_pos h]
    constructor
    · intro e
      exact absurd rfl e
    · omega
  · rw [if_neg h, ne_eq, List.getElem?_eq_none_iff]
    omega

theorem get?_of_prefix (h : t.types <+: t'.types) (hd : t.get? id = some d) :
    t'.get? id = some d := by
  obtain ⟨n, rfl, hn⟩ := get?_eq_some.mp hd
  obtain ⟨more, hmore⟩ := h
  refine get?_eq_some.mpr ⟨n, rfl, ?_⟩
  rw [← hmore, List.getElem?_append_left (List.getElem?_eq_some_iff.mp hn).1, hn]

end

/-! ## one type more -/

section
variable {t t' : TypeStore} {id : Int} {d : SemanticType}

/-- A type that is stored at the end has the next number. -/
theorem get?_concat {d' : SemanticType} : (⟨t.types ++ [d]⟩ : TypeStore).get? id = some d' ↔
    t.get? id = some d' ∨ (id = t.types.length + 1 ∧ d' = d) := by
  rw [get?_eq_some, get?_eq_some]
  constructor
  · rintro ⟨n, rfl, hn⟩
    by_cases hold : n < t.types.length
    · rw [List.getElem?_append_left hold] at hn
      exact .inl ⟨n, rfl, hn⟩
    · have hlast : n = t.types.length := by
        have hlt := (List.getElem?_eq_some_iff.mp hn).1
        rw [List.length_append, List.length_singleton] at hlt
        omega
      subst hlast
      rw [List.getElem?_concat_length, Option.some.injEq] at hn
      exact .inr ⟨rfl, hn.symm⟩
  · rintro (⟨n, rfl, hn⟩ | ⟨rfl, rfl⟩)
    · exact ⟨n, rfl, by rw [List.getElem?_append_left (List.getElem?_eq_some_iff.mp hn).1, hn]⟩
    · exact ⟨t.types.length, rfl, List.getElem?_concat_length⟩

theorem intern_cases (t : TypeStore) (d : SemanticType) :
    (∃ n : Nat, t.types[n]? = some d ∧ t.intern d = ((n : Int) + 1, t)) ∨
      (d ∉ t.types ∧ t.intern d = ((t.types.length : Int) + 1, ⟨t.types ++ [d]⟩)) := by
  unfold intern
  cases h : t.types.idxOf? d with
  | none =>
    right
    exact ⟨List.idxOf?_eq_none_iff.mp h, rfl⟩
  | some n =>
    left
    refine ⟨n, ?_, rfl⟩
    obtain ⟨hn, hd, -⟩ := List.idxOf?_eq_some_iff.mp h
    rw [List.getElem?_eq_getElem hn, hd]

theorem prefix_intern (h : t.intern d = (id, t')) : t.types <+: t'.types := by
  rcases intern_cases t d with ⟨n, -, e⟩ | ⟨-, e⟩
  · obtain ⟨-, rfl⟩ := Prod.mk.inj (e.symm.trans h)
    exact List.prefix_rfl
  · obtain ⟨-, rfl⟩ := Prod.mk.inj (e.symm.trans h)
    exact List.prefix_append _ _

theorem get?_intern (h : t.intern d = (id, t')) : t'.get? id = some d := by
  rcases intern_cases t d with ⟨n, hn, e⟩ | ⟨-, e⟩
  · obtain ⟨rfl, rfl⟩ := Prod.mk.inj (e.symm.trans h)
    exact get?_eq_some.mpr ⟨n, rfl, hn⟩
  · obtain ⟨rfl, rfl⟩ := Prod.mk.inj (e.symm.trans h)
    exact get?_eq_some.mpr ⟨t.types.length, rfl, List.getElem?_concat_length⟩

end

/-! ## answers -/

section
variable {t t' : TypeStore} {r : Request} {id : Int} {e : TypeFault}

/-- An answer is the number of the type asked for, which was stored if it was new; or it is the
number to be qualified, if the type has the space already or the space is the default one. -/
theorem request_cases (h : t.request r = .ok (id, t')) :
    (r.Proper t.get? ∧ (∀ inner space, r = .qualify inner space → ∃ d, t.get? inner = some d) ∧
      t.intern r.type = (id, t')) ∨
    (∃ space, r = .qualify id space ∧ t' = t ∧
      (space = .default ∨ ∃ part, t.get? id = some (.qualified part space))) := by
  unfold request at h
  cases hplan : r.plan t.get? with
  | error e =>
    rw [hplan] at h
    exact nomatch h
  | ok found =>
    rw [hplan] at h
    cases found with
    | some id' =>
      obtain ⟨rfl, rfl⟩ := Prod.mk.inj (Except.ok.inj h)
      obtain ⟨space, hr, hsame⟩ := plan_eq_some.mp hplan
      exact .inr ⟨space, hr, rfl, hsame⟩
    | none =>
      obtain ⟨hproper, hknown⟩ := plan_eq_none hplan
      exact .inl ⟨hproper, hknown, Except.ok.inj h⟩

/-- A request stores nothing, or the type it is for, which is new and has the next number. -/
theorem request_grows (h : t.request r = .ok (id, t')) : t' = t ∨
    (r.Proper t.get? ∧ (∀ inner space, r = .qualify inner space → ∃ d, t.get? inner = some d) ∧
      r.type ∉ t.types ∧ t' = ⟨t.types ++ [r.type]⟩ ∧ id = t.types.length + 1) := by
  rcases request_cases h with ⟨hproper, hknown, hi⟩ | ⟨_, -, rfl, -⟩
  · rcases intern_cases t r.type with ⟨_, -, e⟩ | ⟨hnew, e⟩
    · exact .inl (Prod.mk.inj (hi.symm.trans e)).2
    · obtain ⟨rfl, rfl⟩ := Prod.mk.inj (e.symm.trans hi)
      exact .inr ⟨hproper, hknown, hnew, rfl, rfl⟩
  · exact .inl rfl

theorem request_eq_error : t.request r = .error e ↔ Refused t.get? r e := by
  rw [← plan_eq_error, request]
  cases r.plan t.get? with
  | error e' => rw [Except.error.injEq, Except.error.injEq]
  | ok found =>
    cases found with
    | some id => exact iff_of_false nofun nofun
    | none => exact iff_of_false nofun nofun

theorem prefix_request (h : t.request r = .ok (id, t')) : t.types <+: t'.types := by
  rcases request_grows h with rfl | ⟨-, -, -, rfl, -⟩
  · exact List.prefix_rfl
  · exact List.prefix_append _ _

/-! ## the invariant -/

/-- No type is stored twice, and a qualified type is over a known one that is not qualified. -/
structure Sound (t : TypeStore) : Prop where
  nodup : t.types.Nodup
  unqualified : ∀ inner space, SemanticType.qualified inner space ∈ t.types →
    ∃ d, t.get? inner = some d ∧ ¬ d.IsQualified

theorem sound_empty : Sound empty :=
  ⟨List.nodup_nil, fun _ _ h => absurd h List.not_mem_nil⟩

/-- A type that is new and over a known one that is not qualified, if it is qualified itself. -/
theorem Sound.concat {d : SemanticType} (ht : Sound t) (hd : d ∉ t.types)
    (hq : ∀ inner space, d = .qualified inner space →
      ∃ d', t.get? inner = some d' ∧ ¬ d'.IsQualified) : Sound ⟨t.types ++ [d]⟩ := by
  have hprefix : t.types <+: (⟨t.types ++ [d]⟩ : TypeStore).types := List.prefix_append _ _
  constructor
  · show (t.types ++ [d]).Nodup
    rw [List.nodup_append]
    refine ⟨ht.nodup, List.nodup_singleton d, fun a ha b hb e => hd ?_⟩
    rw [← List.mem_singleton.mp hb, ← e]
    exact ha
  · intro inner space hmem
    have hknown : ∃ d', t.get? inner = some d' ∧ ¬ d'.IsQualified := by
      rcases List.mem_append.mp hmem with h | h
      · exact ht.unqualified inner space h
      · exact hq inner space (List.mem_singleton.mp h).symm
    obtain ⟨d', hd', hnot⟩ := hknown
    exact ⟨d', get?_of_prefix hprefix hd', hnot⟩

theorem Sound.request (ht : Sound t) (h : t.request r = .ok (id, t')) : Sound t' := by
  rcases request_grows h with rfl | ⟨hproper, hknown, hnew, rfl, -⟩
  · exact ht
  · refine ht.concat hnew fun inner space hr => ?_
    obtain rfl : r = .qualify inner space := Request.type_injective hr
    obtain ⟨d, hd⟩ := hknown inner space rfl
    exact ⟨d, hd, hproper.2 d hd⟩

/-- In a sound store two numbers are of different types. -/
theorem Sound.get?_injective (ht : Sound t) {id' : Int} {d : SemanticType}
    (h : t.get? id = some d) (h' : t.get? id' = some d) : id = id' := by
  obtain ⟨n, rfl, hn⟩ := get?_eq_some.mp h
  obtain ⟨n', rfl, hn'⟩ := get?_eq_some.mp h'
  obtain ⟨hlt, -⟩ := List.getElem?_eq_some_iff.mp hn
  have hplace : n = n' := (List.getElem?_inj hlt ht.nodup).mp (hn.trans hn'.symm)
  omega

end

end TypeStore
end OverloadTables
