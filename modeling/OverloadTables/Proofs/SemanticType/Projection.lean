import OverloadTables.Proofs.Script.Projector
import OverloadTables.Proofs.SemanticType.Table
import OverloadTables.Proofs.SemanticType.Tower

/-!
# Projections by a table of types

* `Descriptor.tower`           the tower that a descriptor is for;
* `TypeStore.Flat t`           vectors are over bases only;
* `TypeStore.Yields t x w`     the questions `x` to a list are all answered, in the end by the
                               number of the tower `w`;
* `TypeStore.project_yields`   a projection yields the tower of its descriptor, in any list;
* `Alike x y`                  questions to a list and to a table are answered alike;
* `TypeTable.usedBy us`        the table after requests and projections in any order;
* `TypeTable.projections_told` its projections are told apart by their towers.
-/

namespace OverloadTables

/-! ## the tower of a descriptor -/

/-- The base with a number: the concrete type listed for it, or void if there is none. -/
def baseTower (concretes : List (Option String)) : Int → Tower
  | .ofNat n =>
    match concretes[n]? with
    | some (some name) => .builtin name
    | _ => .void
  | .negSucc _ => .void

namespace Descriptor

/-- The base, as a vector if the width is positive. -/
def valueTower (concretes : List (Option String)) (d : Descriptor) : Tower :=
  if 0 < d.width then .vector (baseTower concretes d.base) d.width
  else baseTower concretes d.base

/-- The space of a pointer qualifies what is pointed to; the default one leaves it as it is. -/
def tower (concretes : List (Option String)) (d : Descriptor) : Tower :=
  if d.pointer then
    .pointer (if d.space = .default then d.valueTower concretes
      else .qualified (d.valueTower concretes) d.space)
  else d.valueTower concretes

end Descriptor

theorem isBase_baseTower (concretes : List (Option String)) (base : Int) :
    (baseTower concretes base).IsBase := by
  unfold baseTower
  split
  · split
    · exact .inr ⟨_, rfl⟩
    · exact .inl rfl
  · exact .inl rfl

theorem baseTower_eq (concretes : List (Option String)) (base : Int) :
    baseTower concretes base
      = match concreteOf concretes base with
        | some name => .builtin name
        | none => .void := by
  cases base with
  | negSucc n =>
    rw [concreteOf, if_pos (Int.negSucc_lt_zero n)]
    rfl
  | ofNat n =>
    have hconcrete : concreteOf concretes (.ofNat n) = (concretes[n]?).join :=
      if_neg (Int.not_lt.mpr (Int.natCast_nonneg n))
    rw [hconcrete, baseTower]
    cases concretes[n]? with
    | none => rfl
    | some c =>
      cases c with
      | none => rfl
      | some name => rfl

theorem Descriptor.valueTower_unqualified (concretes : List (Option String)) (d : Descriptor) :
    ¬ (d.valueTower concretes).IsQualified := by
  unfold valueTower
  split
  · exact nofun
  · rcases isBase_baseTower concretes d.base with h | ⟨name, h⟩
    · rw [h]
      exact nofun
    · rw [h]
      exact nofun

namespace TypeStore

open TypeTable (Request supplierOf plan_eq_some plan_unqualified)
open Script.Projector (askConcrete askWidth askPointer project_eq)

/-! ## lists that grow -/

/-- Vectors are over bases only. -/
def Flat (t : TypeStore) : Prop :=
  ∀ element width, SemanticType.vector element width ∈ t.types →
    ∃ d, t.get? element = some d ∧ d.IsBase

/-- The request is for no vector, or for one over a base. -/
def OverBase (t : TypeStore) (r : Request) : Prop :=
  ∀ element width, r = .vector element width → ∃ d, t.get? element = some d ∧ d.IsBase

/-- `t'` is what requests make of `t`, and none of them is for a vector over anything but a
base. -/
structure Later (t t' : TypeStore) : Prop where
  reached : ∃ rs, (t.run rs).2 = t'
  flat : t.Flat → t'.Flat

theorem flat_empty : Flat empty := fun _ _ h => absurd h List.not_mem_nil

section
variable {t t' t'' : TypeStore} {id : Int} {w : Tower}

theorem Later.refl (t : TypeStore) : Later t t := ⟨⟨[], rfl⟩, fun h => h⟩

theorem Later.trans (h : Later t t') (h' : Later t' t'') : Later t t'' := by
  obtain ⟨rs, hrs⟩ := h.reached
  obtain ⟨rs', hrs'⟩ := h'.reached
  refine ⟨⟨rs ++ rs', ?_⟩, fun ht => h'.flat (h.flat ht)⟩
  rw [run_append, hrs, hrs']

theorem Flat.request {r : Request} (ht : t.Flat) (hr : OverBase t r)
    (h : t.request r = .ok (id, t')) : t'.Flat := by
  have hgrows : t.types <+: t'.types := prefix_request h
  intro element width hmem
  have hknown : ∃ d, t.get? element = some d ∧ d.IsBase := by
    rcases request_grows h with rfl | ⟨-, -, -, rfl, -⟩
    · exact ht element width hmem
    · rcases List.mem_append.mp hmem with hold | hnew
      · exact ht element width hold
      · have htype : r.type = .vector element width := (List.mem_singleton.mp hnew).symm
        exact hr element width (Request.type_injective htype)
  obtain ⟨d, hd, hbase⟩ := hknown
  exact ⟨d, get?_of_prefix hgrows hd, hbase⟩

theorem later_request {r : Request} (hr : OverBase t r) (h : t.request r = .ok (id, t')) :
    Later t t' := by
  refine ⟨⟨[r], ?_⟩, fun ht => ht.request hr h⟩
  show (t.step r).2 = t'
  rw [step, h]

/-! ## questions and the towers they end with -/

/-- Questions to a list of types. -/
abbrev Asking := StateT TypeStore (Except TypeFault)

def ask (r : Request) : Asking Int := fun t => t.request r

def supplier : TypeSupplier Asking Int := supplierOf ask

/-- All questions are answered, and the last answer is the number of the tower `w`. -/
def Yields (t : TypeStore) (x : Asking Int) (w : Tower) : Prop :=
  ∃ id t', x t = .ok (id, t') ∧ Later t t' ∧ Unfolds t'.get? id w

theorem yields_pure (h : Unfolds t.get? id w) : Yields t (pure id) w := ⟨id, t, rfl, .refl t, h⟩

theorem yields_bind {x : Asking Int} {f : Int → Asking Int} {w' : Tower} (hx : Yields t x w)
    (hf : ∀ id t', Unfolds t'.get? id w → Yields t' (f id) w') : Yields t (x >>= f) w' := by
  obtain ⟨id, t', hid, hlater, hw⟩ := hx
  obtain ⟨id', t'', hid', hlater', hw'⟩ := hf id t' hw
  refine ⟨id', t'', ?_, hlater.trans hlater', hw'⟩
  show (x t >>= fun p => f p.1 p.2) = _
  rw [hid]
  exact hid'

/-- A request that is answered by the number of its type. -/
theorem yields_ask (r : Request) (hr : OverBase t r) (h : r.plan t.get? = .ok none)
    (hw : ∀ (t' : TypeStore) id, t.types <+: t'.types → t'.get? id = some r.type →
      Unfolds t'.get? id w) : Yields t (ask r) w := by
  obtain ⟨id, t', hi⟩ : ∃ id t', t.intern r.type = (id, t') := ⟨_, _, rfl⟩
  have hanswer : t.request r = .ok (id, t') := by
    rw [request, h]
    exact congrArg Except.ok hi
  exact ⟨id, t', hanswer, later_request hr hanswer, hw t' id (prefix_intern hi) (get?_intern hi)⟩

theorem yields_void (t : TypeStore) : Yields t supplier.void .void :=
  yields_ask .void nofun rfl fun _ _ _ h => .void h

theorem yields_builtin (t : TypeStore) (name : String) :
    Yields t (supplier.builtin name) (.builtin name) :=
  yields_ask (.builtin name) nofun rfl fun _ _ _ h => .builtin h

theorem yields_vector (h : Unfolds t.get? id w) (hw : w.IsBase) {width : Int} (hwidth : 0 < width) :
    Yields t (supplier.vector id width) (.vector w width) := by
  have hpos : ¬ width ≤ 0 := by omega
  apply yields_ask (.vector id width)
  · intro element width' e
    obtain ⟨rfl, -⟩ := Request.vector.inj e
    exact h.get?_base hw
  · exact if_neg hpos
  · intro t' id' hgrows h'
    exact .vector h' (unfolds_stays hgrows h)

/-- A tower that is not qualified takes any space. -/
theorem yields_qualify (h : Unfolds t.get? id w) (hw : ¬ w.IsQualified) (space : AddressSpace) :
    Yields t (supplier.qualify id space) (if space = .default then w else .qualified w space) := by
  by_cases hs : space = .default
  · rw [if_pos hs]
    refine ⟨id, t, ?_, .refl t, h⟩
    have hplan : (Request.qualify id space).plan t.get? = .ok (some id) :=
      plan_eq_some.mpr ⟨space, rfl, .inl hs⟩
    show t.request (.qualify id space) = _
    rw [request, hplan]
  · rw [if_neg hs]
    obtain ⟨d, hd, hnot⟩ := h.get?_unqualified hw
    apply yields_ask (.qualify id space)
    · intro element width e
      cases e
    · exact plan_unqualified hs hd hnot
    · intro t' id' hgrows h'
      exact .qualified h' (unfolds_stays hgrows h)

theorem yields_pointer (h : Unfolds t.get? id w) : Yields t (supplier.pointer id) (.pointer w) :=
  yields_ask (.pointer id) nofun rfl fun _ _ hgrows h' => .pointer h' (unfolds_stays hgrows h)

end

/-! ## projections -/

/-- The base of a descriptor, after void was asked for in any case. -/
theorem yields_base (concretes : List (Option String)) (base : Int) {t : TypeStore} {id : Int}
    (h : Unfolds t.get? id .void) :
    Yields t (askConcrete supplier id (concreteOf concretes base)) (baseTower concretes base) := by
  rw [baseTower_eq]
  cases concreteOf concretes base with
  | none => exact yields_pure h
  | some name => exact yields_builtin t name

theorem yields_value (concretes : List (Option String)) (d : Descriptor) {t : TypeStore} {id : Int}
    (h : Unfolds t.get? id (baseTower concretes d.base)) :
    Yields t (askWidth supplier d id) (d.valueTower concretes) := by
  unfold askWidth Descriptor.valueTower
  by_cases hw : 0 < d.width
  · rw [if_pos hw, if_pos hw]
    exact yields_vector h (isBase_baseTower concretes d.base) hw
  · rw [if_neg hw, if_neg hw]
    exact yields_pure h

/-- **A projection is answered in any list, by the number of the tower of its descriptor.** -/
theorem project_yields (t : TypeStore) (concretes : List (Option String)) (d : Descriptor) :
    Yields t (project supplier concretes d) (d.tower concretes) := by
  rw [project_eq]
  apply yields_bind (yields_void t)
  intro void t₁ hvoid
  apply yields_bind (yields_base concretes d.base hvoid)
  intro base t₂ hbase
  apply yields_bind (yields_value concretes d hbase)
  intro value t₃ hvalue
  unfold askPointer Descriptor.tower
  cases d.pointer with
  | false => exact yields_pure hvalue
  | true =>
    apply yields_bind (yields_qualify hvalue (d.valueTower_unqualified concretes) d.space)
    intro inner t₄ hinner
    exact yields_pointer hinner

/-! ## lists in use -/

end TypeStore

/-- What is done with a table of types; each projection brings its own list of concrete types. -/
inductive Use where
  | request (r : TypeTable.Request)
  | projection (concretes : List (Option String)) (d : Descriptor)

namespace TypeStore

/-- The answer to one use, and the list after it; a failure leaves the list as it was. -/
def use (t : TypeStore) : Use → Except TypeFault Int × TypeStore
  | .request r => t.step r
  | .projection concretes d =>
    match project supplier concretes d t with
    | .ok (id, t') => (.ok id, t')
    | .error e => (.error e, t)

/-- An empty list after uses in order. -/
def usedBy (us : List Use) : TypeStore := (Steps.run use empty us).2

section
variable {us : List Use} {i : Nat}

theorem use_projection (t : TypeStore) (concretes : List (Option String)) (d : Descriptor) :
    ∃ id, (t.use (.projection concretes d)).1 = .ok id ∧
      Later t (t.use (.projection concretes d)).2 ∧
      Unfolds (t.use (.projection concretes d)).2.get? id (d.tower concretes) := by
  obtain ⟨id, t', hproject, hlater, hw⟩ := project_yields t concretes d
  refine ⟨id, ?_, ?_, ?_⟩
  all_goals rw [use, hproject]
  · exact hlater
  · exact hw

theorem use_reached (t : TypeStore) (u : Use) : ∃ rs, (t.run rs).2 = (t.use u).2 := by
  cases u with
  | request r => exact ⟨[r], rfl⟩
  | projection concretes d =>
    obtain ⟨_, -, hlater, -⟩ := use_projection t concretes d
    exact hlater.reached

theorem sound_usedBy (us : List Use) : Sound (usedBy us) := by
  refine Steps.run_keeps (fun t u ht => ?_) sound_empty us
  obtain ⟨rs, hrs⟩ := use_reached t u
  rw [← hrs]
  exact ht.run rs

theorem prefix_used (t : TypeStore) (us : List Use) :
    t.types <+: (Steps.run use t us).2.types := by
  induction us generalizing t with
  | nil => exact List.prefix_rfl
  | cons u us ih =>
    obtain ⟨rs, hrs⟩ := use_reached t u
    have hfirst : t.types <+: (t.use u).2.types := by
      rw [← hrs]
      exact prefix_run t rs
    exact hfirst.trans (ih _)

theorem prefix_usedBy (us : List Use) (i : Nat) :
    (usedBy (us.take i)).types <+: (usedBy us).types := by
  have hsplit : usedBy us = (Steps.run use (usedBy (us.take i)) (us.drop i)).2 := by
    have happend := Steps.run_append use empty (us.take i) (us.drop i)
    rw [List.take_append_drop] at happend
    rw [usedBy, happend, usedBy]
  rw [hsplit]
  exact prefix_used _ _

/-- The number that answers a projection is of its tower from then on. -/
theorem projection_answer {concretes : List (Option String)} {d : Descriptor}
    (hu : us[i]? = some (.projection concretes d)) :
    ∃ id, ((usedBy (us.take i)).use (.projection concretes d)).1 = .ok id ∧
      Unfolds (usedBy us).get? id (d.tower concretes) := by
  obtain ⟨id, hid, -, hw⟩ := use_projection (usedBy (us.take i)) concretes d
  refine ⟨id, hid, unfolds_stays ?_ hw⟩
  have hnext : usedBy (us.take (i + 1)) = ((usedBy (us.take i)).use (.projection concretes d)).2 :=
    Steps.run_take_succ hu
  rw [← hnext]
  exact prefix_usedBy us (i + 1)

theorem flat_usedBy (h : ∀ u ∈ us, ∃ concretes d, u = .projection concretes d) :
    (usedBy us).Flat := by
  -- forwards, since each projection keeps what the ones before it have left
  suffices hkept : ∀ t : TypeStore, t.Flat → (Steps.run use t us).2.Flat from
    hkept empty flat_empty
  induction us with
  | nil => exact fun _ ht => ht
  | cons u us ih =>
    intro t ht
    obtain ⟨⟨concretes, d, rfl⟩, hrest⟩ := List.forall_mem_cons.mp h
    obtain ⟨_, -, hlater, -⟩ := use_projection t concretes d
    exact ih hrest _ (hlater.flat ht)

end

end TypeStore

/-! ## tables in use -/

/-- Questions to a list and to a table that belong together have the same answer, and what is left
belongs together. -/
def Alike (x : TypeStore.Asking Int) (y : TypeTable.Asking Int) : Prop :=
  ∀ s t, Represents s t → (∃ e, x s = .error e ∧ y t = .error e) ∨
    ∃ id s' t', x s = .ok (id, s') ∧ y t = .ok (id, t') ∧ Represents s' t'

theorem alike_pure (id : Int) : Alike (pure id) (pure id) :=
  fun s t h => .inr ⟨id, s, t, rfl, rfl, h⟩

theorem alike_bind {x : TypeStore.Asking Int} {y : TypeTable.Asking Int}
    {f : Int → TypeStore.Asking Int} {g : Int → TypeTable.Asking Int} (hx : Alike x y)
    (hf : ∀ id, Alike (f id) (g id)) : Alike (x >>= f) (y >>= g) := by
  intro s t h
  show (∃ e, (x s >>= fun p => f p.1 p.2) = _ ∧ (y t >>= fun p => g p.1 p.2) = _) ∨
    ∃ id s' t', (x s >>= fun p => f p.1 p.2) = _ ∧ (y t >>= fun p => g p.1 p.2) = _ ∧ _
  rcases hx s t h with ⟨e, hs, ht⟩ | ⟨id, s', t', hs, ht, h'⟩
  · left
    rw [hs, ht]
    exact ⟨e, rfl, rfl⟩
  · rw [hs, ht]
    exact hf id s' t' h'

theorem alike_ask (r : TypeTable.Request) : Alike (TypeStore.ask r) (TypeTable.ask r) := by
  intro s t h
  show (∃ e, s.request r = _ ∧ t.request r = _) ∨
    ∃ id s' t', s.request r = _ ∧ t.request r = _ ∧ _
  rw [TypeTable.request_eq, TypeStore.request, h.get?]
  cases r.plan s.get? with
  | error e => exact .inl ⟨e, rfl, rfl⟩
  | ok found =>
    cases found with
    | some id => exact .inr ⟨id, s, t, rfl, rfl, h⟩
    | none =>
      obtain ⟨hid, h'⟩ := h.ensure r.type
      refine .inr ⟨(s.intern r.type).1, (s.intern r.type).2, (t.ensure r.type).2, rfl, ?_, h'⟩
      rw [← hid]

open Script.Projector (askConcrete askWidth askPointer project_eq) in
theorem alike_project (concretes : List (Option String)) (d : Descriptor) :
    Alike (project TypeStore.supplier concretes d) (project TypeTable.supplier concretes d) := by
  rw [project_eq, project_eq]
  refine alike_bind (alike_ask .void) fun void => alike_bind ?_ fun base => alike_bind ?_ fun value => ?_
  · cases concreteOf concretes d.base with
    | none => exact alike_pure void
    | some name => exact alike_ask (.builtin name)
  · unfold askWidth
    by_cases hw : 0 < d.width
    · rw [if_pos hw, if_pos hw]
      exact alike_ask (.vector base d.width)
    · rw [if_neg hw, if_neg hw]
      exact alike_pure base
  · unfold askPointer
    cases d.pointer with
    | false => exact alike_pure value
    | true => exact alike_bind (alike_ask (.qualify value d.space)) fun id => alike_ask (.pointer id)

namespace TypeTable

/-- The answer to one use, and the table after it; a failure leaves the table as it was. -/
def use (t : TypeTable) : Use → Except TypeFault Int × TypeTable
  | .request r => t.step r
  | .projection concretes d =>
    match project supplier concretes d t with
    | .ok (id, t') => (.ok id, t')
    | .error e => (.error e, t)

/-- A fresh table after uses in order. -/
def usedBy (us : List Use) : TypeTable := (Steps.run use empty us).2

theorem use_follows {s : TypeStore} {t : TypeTable} (u : Use) (h : Represents s t) :
    (t.use u).1 = (s.use u).1 ∧ Represents (s.use u).2 (t.use u).2 := by
  cases u with
  | request r => exact h.step r
  | projection concretes d =>
    rw [use, TypeStore.use]
    rcases alike_project concretes d s t h with ⟨e, hs, ht⟩ | ⟨id, s', t', hs, ht, h'⟩
    · rw [hs, ht]
      exact ⟨rfl, h⟩
    · rw [hs, ht]
      exact ⟨rfl, h'⟩

theorem usedBy_represents (us : List Use) : Represents (TypeStore.usedBy us) (usedBy us) :=
  (Steps.run_follows (fun _ _ u h => use_follows u h) represents_empty us).2

/-- What holds of projections by a table that was used in any way before.  A moment of a run is the
number of uses before it. -/
structure ToldByTowers (us : List Use) : Prop where
  /-- A projection is answered, and the number is of the tower of its descriptor and of no other. -/
  answered : ∀ concretes d, ∃ id t', project supplier concretes d (usedBy us) = .ok (id, t') ∧
    ∀ w, Unfolds t'.get? id w ↔ w = d.tower concretes
  /-- Two projections of the run have one answer if and only if their towers are the same. -/
  told : ∀ (i j : Nat) concretes concretes' d d', us[i]? = some (.projection concretes d) →
    us[j]? = some (.projection concretes' d') →
    ∃ id id', ((usedBy (us.take i)).use (.projection concretes d)).1 = .ok id ∧
      ((usedBy (us.take j)).use (.projection concretes' d')).1 = .ok id' ∧
      (id = id' ↔ d.tower concretes = d'.tower concretes')
  /-- Where nothing but projections was done, vectors are over bases. -/
  flat : (∀ u ∈ us, ∃ concretes d, u = .projection concretes d) →
    ∀ id element width, (usedBy us).get? id = some (.vector element width) →
      ∃ d, (usedBy us).get? element = some d ∧ d.IsBase

/-- **A table tells projections apart by the towers of their descriptors, whatever else it is used
for.** -/
theorem projections_told (us : List Use) : ToldByTowers us where
  answered concretes d := by
    have h := usedBy_represents us
    obtain ⟨id, s', hproject, -, hw⟩ := TypeStore.project_yields (TypeStore.usedBy us) concretes d
    rcases alike_project concretes d _ _ h with ⟨e, hs, -⟩ | ⟨id', s'', t', hs, ht, h'⟩
    · exact nomatch hproject.symm.trans hs
    obtain ⟨rfl, rfl⟩ := Prod.mk.inj (Except.ok.inj (hproject.symm.trans hs))
    refine ⟨id, t', ht, fun w => ?_⟩
    rw [h'.get?]
    constructor
    · intro h
      exact h.unique hw
    · rintro rfl
      exact hw
  told i j concretes concretes' d d' hi hj := by
    obtain ⟨id, hid, hw⟩ := TypeStore.projection_answer hi
    obtain ⟨id', hid', hw'⟩ := TypeStore.projection_answer hj
    refine ⟨id, id', ?_, ?_, ?_⟩
    · rw [(use_follows _ (usedBy_represents _)).1, hid]
    · rw [(use_follows _ (usedBy_represents _)).1, hid']
    constructor
    · rintro rfl
      exact hw.unique hw'
    · intro e
      rw [← e] at hw'
      exact (TypeStore.sound_usedBy us).unfolds_injective hw hw'
  flat honly id element width h := by
    rw [(usedBy_represents us).get?] at h ⊢
    obtain ⟨n, -, hn⟩ := TypeStore.get?_eq_some.mp h
    exact TypeStore.flat_usedBy honly element width (List.mem_of_getElem? hn)

end TypeTable
end OverloadTables
