import OverloadTables.Proofs.SemanticType.Runs

/-!
# Runs of requests to a table of types

* `TypeTable.cached d`       the number of a type by the cache that the type belongs to;
* `TypeTable.ensure d`       what a request for a type comes to, whatever its cache;
* `Represents s t`           the table `t` knows the types of the list `s` by their numbers, and its
                             caches find the same numbers;
* `Represents.step`          each request has the same answer, and what is left belongs together;
* `TypeTable.Interns rs`     what holds of every run: numbers count up, types stay under their
                             numbers and are told apart by them, the caches know just the types
                             that are stored, refusals leave no trace;
* `TypeTable.run_interns`    it does.
-/

namespace OverloadTables

namespace TypeTable

/-! ## the caches as one -/

/-- The number of a type, by the cache that it belongs to. -/
def cached (t : TypeTable) : SemanticType → Option Int
  | .void => t.void
  | .builtin name => t.builtins.lookup name
  | .vector element width => t.derived.lookup (.vector element width)
  | .qualified inner space => t.derived.lookup (.qualified inner space)
  | .pointer pointee => t.derived.lookup (.pointer pointee)

/-- A new type under the next number, in the cache that it belongs to. -/
def remember (t : TypeTable) (d : SemanticType) : TypeTable :=
  let stored := (t.add d).2
  match d with
  | .void => { stored with void := some t.next }
  | .builtin name => { stored with builtins := (name, t.next) :: t.builtins }
  | .vector element width =>
    { stored with derived := (.vector element width, t.next) :: t.derived }
  | .qualified inner space =>
    { stored with derived := (.qualified inner space, t.next) :: t.derived }
  | .pointer pointee => { stored with derived := (.pointer pointee, t.next) :: t.derived }

/-- The number of a type in its cache, or the next one. -/
def ensure (t : TypeTable) (d : SemanticType) : Int × TypeTable :=
  match t.cached d with
  | some id => (id, t)
  | none => (t.next, t.remember d)

section
variable (t : TypeTable)

theorem cached_type (key : DerivedKey) : t.cached key.type = t.derived.lookup key := by
  cases key with
  | vector _ _ | qualified _ _ | pointer _ => rfl

theorem ensureVoid_eq : t.ensureVoid = t.ensure .void := by
  have hcache : t.cached .void = t.void := rfl
  rw [ensureVoid, ensure, hcache]
  rfl

theorem ensureBuiltin_eq (name : String) : t.ensureBuiltin name = t.ensure (.builtin name) := by
  have hcache : t.cached (.builtin name) = t.builtins.lookup name := rfl
  rw [ensureBuiltin, ensure, hcache]
  rfl

theorem ensureDerived_eq (key : DerivedKey) : t.ensureDerived key = t.ensure key.type := by
  rw [ensureDerived, ensure, cached_type]
  cases key with
  | vector _ _ | qualified _ _ | pointer _ => rfl

@[simp]
theorem remember_next (d : SemanticType) : (t.remember d).next = t.next + 1 := by
  cases d with
  | void | builtin _ | vector _ _ | qualified _ _ | pointer _ => rfl

theorem remember_definitions (d : SemanticType) :
    (t.remember d).definitions = (t.next, d) :: t.definitions := by
  cases d with
  | void | builtin _ | vector _ _ | qualified _ _ | pointer _ => rfl

theorem remember_get? (d : SemanticType) (id : Int) :
    (t.remember d).get? id = if id = t.next then some d else t.get? id := by
  rw [get?, remember_definitions, List.lookup_cons, beq_eq_decide, get?]
  by_cases h : id = t.next
  · rw [if_pos h, decide_eq_true h]
  · rw [if_neg h, decide_eq_false h]

theorem lookup_cons_eq {α β : Type} [DecidableEq α] (a a' : α) (b : β) (m : List (α × β)) :
    ((a, b) :: m).lookup a' = if a' = a then some b else m.lookup a' := by
  rw [List.lookup_cons, beq_eq_decide]
  by_cases h : a' = a
  · rw [if_pos h, decide_eq_true h]
  · rw [if_neg h, decide_eq_false h]

/-- The caches know the new type and what they knew. -/
theorem remember_cached (d d' : SemanticType) :
    (t.remember d).cached d' = if d' = d then some t.next else t.cached d' := by
  cases d <;> cases d' <;>
    simp [remember, cached, add, lookup_cons_eq]

end

/-! ## requests -/

theorem request_eq (t : TypeTable) (r : Request) : t.request r = match r.plan t.get? with
    | .error e => .error e
    | .ok (some id) => .ok (id, t)
    | .ok none => .ok (t.ensure r.type) := by
  cases r with
  | void => exact congrArg Except.ok t.ensureVoid_eq
  | builtin name => exact congrArg Except.ok (t.ensureBuiltin_eq name)
  | pointer pointee => exact congrArg Except.ok (t.ensureDerived_eq (.pointer pointee))
  | vector element width =>
    rw [request, Request.plan, ensureDerived_eq]
    by_cases hw : width ≤ 0
    · rw [if_pos hw, if_pos hw]
    · rw [if_neg hw, if_neg hw]
      rfl
  | qualify inner space =>
    rw [request, Request.plan, ensureDerived_eq]
    by_cases hs : space = .default
    · rw [if_pos hs, if_pos hs]
    rw [if_neg hs, if_neg hs]
    cases t.get? inner with
    | none => rfl
    | some d =>
      cases d with
      | qualified part other =>
        by_cases ho : other = space
        · simp only [if_pos ho]
        · simp only [if_neg ho]
      | void | builtin _ | vector _ _ | pointer _ => rfl

/-! ## runs -/

/-- One request to a table that goes on after a refusal. -/
def step (t : TypeTable) (r : Request) : Except TypeFault Int × TypeTable :=
  match t.request r with
  | .ok (id, t') => (.ok id, t')
  | .error e => (.error e, t)

def run (t : TypeTable) (rs : List Request) : List (Except TypeFault Int) × TypeTable :=
  Steps.run step t rs

/-- The answers to requests of a fresh table. -/
def answers (rs : List Request) : List (Except TypeFault Int) := (empty.run rs).1

def after (rs : List Request) : TypeTable := (empty.run rs).2

theorem step_of_refused {t : TypeTable} {r : Request} {e : TypeFault}
    (h : (t.step r).1 = .error e) : (t.step r).2 = t := by
  unfold step at h ⊢
  cases hr : t.request r with
  | ok p =>
    rw [hr] at h
    exact nomatch h
  | error e' => rfl

theorem ensure_grows (t : TypeTable) (d : SemanticType) : (t.ensure d).2 = t ∨
    ((t.ensure d).2 = t.remember d ∧ (t.ensure d).1 = t.next) := by
  unfold ensure
  cases t.cached d with
  | some id => exact .inl rfl
  | none => exact .inr ⟨rfl, rfl⟩

/-- A step leaves the table as it was, or puts the type asked for under the next number. -/
theorem step_grows (t : TypeTable) (r : Request) : (t.step r).2 = t ∨
    ((t.step r).2 = t.remember r.type ∧ (t.step r).1 = .ok t.next) := by
  rw [step, request_eq]
  cases r.plan t.get? with
  | error e => exact .inl rfl
  | ok found =>
    cases found with
    | some id => exact .inl rfl
    | none =>
      rcases ensure_grows t r.type with hsame | ⟨hstored, hid⟩
      · exact .inl hsame
      · exact .inr ⟨hstored, congrArg Except.ok hid⟩

end TypeTable

/-! ## a table and a list -/

/-- The table knows the types of the list by their numbers, and its caches find these numbers. -/
structure Represents (s : TypeStore) (t : TypeTable) : Prop where
  get? : t.get? = s.get?
  next : t.next = s.types.length + 1
  cached : ∀ d id, t.cached d = some id ↔ s.get? id = some d

theorem represents_empty : Represents .empty .empty where
  get? := by
    funext id
    have hnone : TypeStore.empty.get? id = none := by
      by_contra h
      have hrange := TypeStore.get?_ne_none_iff.mp h
      have hlen : TypeStore.empty.types.length = 0 := rfl
      omega
    rw [hnone]
    rfl
  next := rfl
  cached d id := by
    have hcache : TypeTable.empty.cached d = none := by
      cases d with
      | void | builtin _ | vector _ _ | qualified _ _ | pointer _ => rfl
    rw [hcache]
    refine iff_of_false nofun fun h => ?_
    obtain ⟨n, -, hn⟩ := TypeStore.get?_eq_some.mp h
    exact nomatch hn

namespace Represents

open TypeTable (Request)

variable {s : TypeStore} {t : TypeTable} (h : Represents s t)
include h

/-- A new type at the end of the list and under the next number of the table. -/
theorem remember {d : SemanticType} (hd : d ∉ s.types) :
    Represents ⟨s.types ++ [d]⟩ (t.remember d) where
  get? := by
    funext id
    refine Option.ext fun d' => ?_
    rw [TypeStore.get?_concat, t.remember_get?, h.get?, h.next]
    by_cases hid : id = s.types.length + 1
    · have hfree : s.get? id = none := by
        by_contra hused
        have hrange := TypeStore.get?_ne_none_iff.mp hused
        omega
      rw [if_pos hid, hfree, Option.some.injEq]
      constructor
      · rintro rfl
        exact .inr ⟨hid, rfl⟩
      · rintro (hold | ⟨-, rfl⟩)
        · exact nomatch hold
        · rfl
    · rw [if_neg hid]
      constructor
      · exact .inl
      · rintro (hold | ⟨hnew, -⟩)
        · exact hold
        · exact absurd hnew hid
  next := by
    rw [t.remember_next, h.next, List.length_append, List.length_singleton]
    rfl
  cached d' id := by
    rw [TypeStore.get?_concat, t.remember_cached]
    by_cases hsame : d' = d
    · have hunused : s.get? id ≠ some d' := by
        intro hused
        obtain ⟨n, -, hn⟩ := TypeStore.get?_eq_some.mp hused
        exact hd (hsame ▸ List.mem_of_getElem? hn)
      rw [if_pos hsame, Option.some.injEq, h.next]
      constructor
      · rintro rfl
        exact .inr ⟨rfl, hsame⟩
      · rintro (hused | ⟨rfl, -⟩)
        · exact absurd hused hunused
        · rfl
    · rw [if_neg hsame, h.cached]
      constructor
      · exact .inl
      · rintro (hold | ⟨-, hnew⟩)
        · exact hold
        · exact absurd hnew hsame

theorem ensure (d : SemanticType) : (t.ensure d).1 = (s.intern d).1 ∧
    Represents (s.intern d).2 (t.ensure d).2 := by
  unfold TypeTable.ensure
  rcases TypeStore.intern_cases s d with ⟨n, hn, hold⟩ | ⟨hd, hnew⟩
  · have hcache : t.cached d = some (n + 1) :=
      (h.cached d _).mpr (TypeStore.get?_eq_some.mpr ⟨n, rfl, hn⟩)
    rw [hcache, hold]
    exact ⟨rfl, h⟩
  · have hcache : t.cached d = none := by
      refine Option.eq_none_iff_forall_not_mem.mpr fun id hid => hd ?_
      obtain ⟨n, -, hn⟩ := TypeStore.get?_eq_some.mp ((h.cached d id).mp hid)
      exact List.mem_of_getElem? hn
    rw [hcache, hnew]
    exact ⟨h.next, h.remember hd⟩

/-- Each request has the same answer, and what is left belongs together. -/
theorem step (r : Request) :
    (t.step r).1 = (s.step r).1 ∧ Represents (s.step r).2 (t.step r).2 := by
  rw [TypeTable.step, TypeStore.step, TypeTable.request_eq, TypeStore.request, h.get?]
  cases r.plan s.get? with
  | error e => exact ⟨rfl, h⟩
  | ok found =>
    cases found with
    | some id => exact ⟨rfl, h⟩
    | none => exact ⟨congrArg Except.ok (h.ensure r.type).1, (h.ensure r.type).2⟩

end Represents

namespace TypeTable

/-! ## a table and a list, run after run -/

section
variable (rs : List Request)

theorem follows : answers rs = TypeStore.answers rs ∧
    Represents (TypeStore.after rs) (after rs) :=
  Steps.run_follows (fun _ _ r h => h.step r) represents_empty rs

theorem answers_eq : answers rs = TypeStore.answers rs := (follows rs).1

theorem after_get? : (after rs).get? = (TypeStore.after rs).get? := (follows rs).2.get?

theorem after_next : (after rs).next = (TypeStore.after rs).types.length + 1 :=
  (follows rs).2.next

theorem after_cached (d : SemanticType) (id : Int) :
    (after rs).cached d = some id ↔ (after rs).get? id = some d := by
  rw [(follows rs).2.cached, after_get?]

end

section
variable {rs : List Request} {i : Nat} {r : Request}

theorem answers_getElem? (hr : rs[i]? = some r) :
    (answers rs)[i]? = some ((after (rs.take i)).step r).1 := Steps.run_answer hr

theorem after_take_succ (hr : rs[i]? = some r) :
    after (rs.take (i + 1)) = ((after (rs.take i)).step r).2 := Steps.run_take_succ hr

theorem after_grows {j : Nat} (h : i ≤ j) {id : Int} {d : SemanticType}
    (hd : (after (rs.take i)).get? id = some d) : (after (rs.take j)).get? id = some d := by
  rw [after_get?] at hd ⊢
  exact TypeStore.get?_of_prefix (TypeStore.prefix_after_take h rs) hd

end

/-! ## the whole -/

/-- What holds of a run of requests to a fresh table.  A moment of the run is the number of
requests before it. -/
structure Interns (rs : List Request) : Prop where
  /-- The numbers in use are those from one on. -/
  numbered : ∀ i id, (after (rs.take i)).get? id ≠ none ↔ 1 ≤ id ∧ id < (after (rs.take i)).next
  /-- A request changes nothing, or puts one type more under the next number, which it is answered
  by. -/
  created : ∀ (i : Nat) (r : Request), rs[i]? = some r →
    after (rs.take (i + 1)) = after (rs.take i) ∨
    (after (rs.take (i + 1))).definitions
        = ((after (rs.take i)).next, r.type) :: (after (rs.take i)).definitions ∧
      (after (rs.take (i + 1))).next = (after (rs.take i)).next + 1 ∧
      (answers rs)[i]? = some (.ok (after (rs.take i)).next)
  /-- The caches know the types that are stored, by the numbers that they are stored under. -/
  found : ∀ i id, ((after (rs.take i)).void = some id ↔
      (after (rs.take i)).get? id = some .void) ∧
    (∀ name, (after (rs.take i)).builtins.lookup name = some id ↔
      (after (rs.take i)).get? id = some (.builtin name)) ∧
    ∀ key : DerivedKey, (after (rs.take i)).derived.lookup key = some id ↔
      (after (rs.take i)).get? id = some key.type
  stable : ∀ i j id d, i ≤ j → (after (rs.take i)).get? id = some d →
    (after (rs.take j)).get? id = some d
  distinct : ∀ id id' d d', (after rs).get? id = some d → (after rs).get? id' = some d' →
    d.definition = d'.definition → id = id'
  /-- Proper requests have one answer if and only if they are the same. -/
  told : ∀ (i j : Nat) (r r' : Request) (id id' : Int), rs[i]? = some r → rs[j]? = some r' →
    (answers rs)[i]? = some (.ok id) → (answers rs)[j]? = some (.ok id') →
    r.Proper (after (rs.take i)).get? → r'.Proper (after (rs.take j)).get? →
    (id = id' ↔ r = r')
  unqualified : ∀ id inner space, (after rs).get? id = some (.qualified inner space) →
    ∃ d, (after rs).get? inner = some d ∧ ¬ d.IsQualified
  requalified : ∀ (i j : Nat) (inner : Int) (space : AddressSpace) (id : Int), i < j →
    rs[i]? = some (.qualify inner space) → (answers rs)[i]? = some (.ok id) →
    rs[j]? = some (.qualify id space) → (answers rs)[j]? = some (.ok id)
  refused : ∀ (i : Nat) (r : Request) (e : TypeFault), rs[i]? = some r →
    ((answers rs)[i]? = some (.error e) ↔ Refused (after (rs.take i)).get? r e)
  /-- A refusal changes neither the table nor another answer. -/
  traceless : ∀ (i : Nat) (r : Request) (e : TypeFault), rs[i]? = some r →
    (answers rs)[i]? = some (.error e) → after (rs.take (i + 1)) = after (rs.take i) ∧
      answers (rs.eraseIdx i) = (answers rs).eraseIdx i ∧ after (rs.eraseIdx i) = after rs

/-- **Every run of requests tells types apart by numbers that count up and stay.** -/
theorem run_interns (rs : List Request) : Interns rs where
  numbered i id := by
    rw [after_get?, after_next, TypeStore.get?_ne_none_iff]
    omega
  created i r hr := by
    rw [answers_getElem? hr, after_take_succ hr]
    rcases step_grows (after (rs.take i)) r with hsame | ⟨hstored, hanswer⟩
    · exact .inl hsame
    · rw [hstored, hanswer]
      exact .inr ⟨remember_definitions _ _, remember_next _ _, rfl⟩
  found i id := by
    refine ⟨after_cached (rs.take i) .void id, fun name => ?_, fun key => ?_⟩
    · exact after_cached (rs.take i) (.builtin name) id
    · rw [← cached_type, after_cached]
  stable i j id d hij hd := after_grows hij hd
  distinct id id' d d' hd hd' h := by
    rw [after_get?] at hd hd'
    obtain rfl := SemanticType.definition_injective h
    exact (TypeStore.sound_after rs).get?_injective hd hd'
  told i j r r' id id' hr hr' ha ha' hp hp' := by
    rw [answers_eq] at ha ha'
    rw [after_get?] at hp hp'
    have hd := TypeStore.get?_of_answer hr ha hp
    have hd' := TypeStore.get?_of_answer hr' ha' hp'
    constructor
    · rintro rfl
      rw [hd, Option.some.injEq] at hd'
      exact Request.type_injective hd'
    · rintro rfl
      exact (TypeStore.sound_after rs).get?_injective hd hd'
  unqualified id inner space h := by
    rw [after_get?] at h ⊢
    obtain ⟨n, -, hn⟩ := TypeStore.get?_eq_some.mp h
    exact (TypeStore.sound_after rs).unqualified inner space (List.mem_of_getElem? hn)
  requalified i j inner space id hij hr ha hr' := by
    rw [answers_eq] at ha ⊢
    exact TypeStore.requalify_answer hij hr ha hr'
  refused i r e hr := by
    rw [answers_eq, after_get?]
    exact TypeStore.refused_iff hr
  traceless i r e hr ha := by
    rw [answers_getElem? hr, Option.some.injEq] at ha
    have hsame := step_of_refused ha
    have hrun : empty.run (rs.eraseIdx i) = ((answers rs).eraseIdx i, after rs) :=
      Steps.run_eraseIdx hr hsame
    refine ⟨?_, by rw [answers, hrun], by rw [after, hrun]⟩
    rw [after_take_succ hr, hsame]

example : answers [.pointer 3, .qualify 2 .openclGlobal, .vector 9 0, .void,
      .qualify 2 .openclGlobal, .qualify 3 .openclLocal, .pointer 3]
    = [.ok 1, .error (.unknown 2), .error .width, .ok 2, .ok 3, .error .conflictingSpace, .ok 1] :=
  rfl

end TypeTable
end OverloadTables
