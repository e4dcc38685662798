import OverloadTables.Tables.Build
import OverloadTables.Proofs.Catalog.Bytes
import OverloadTables.Proofs.Signature.Declared
import OverloadTables.Proofs.Signature.Pool

/-!
# What a row says of its overload

* `TypeScope.resolved`     the signature of an overload as descriptors;
* `RowOf`                  a row made of an overload;
* `makeRows_stores`        the rows of overloads, and what the pool holds after them;
* `Tables.build_eq_ok`     the stages of a successful build;
* `Stages.rowsOf`          the rows say what the overloads do, in strings.
-/

namespace OverloadTables

/-! ## versions -/

/-- `l` has every declared version under its key, with the declared number. -/
structure Versions (vs l : List Version) : Prop where
  declared : ∀ v ∈ l, v ∈ vs
  found : ∀ v ∈ vs, ∃ w, findVersion? v.key l = some w ∧ w.number = v.number

theorem findVersion?_eq_some {key : LooseText} {l : List Version} {v : Version}
    (h : findVersion? key l = some v) : v ∈ l ∧ v.key = key :=
  ⟨List.mem_of_find?_eq_some h, by simpa using List.find?_some h⟩

theorem Versions.findVersion?_eq_none {vs l : List Version} (hl : Versions vs l) {key : LooseText}
    (h : findVersion? key l = none) : ∀ v ∈ vs, v.key ≠ key := by
  rintro v hv rfl
  obtain ⟨w, hw, -⟩ := hl.found v hv
  rw [h] at hw
  exact nomatch hw

theorem findVersion?_append {key : LooseText} {l m : List Version} {v : Version}
    (h : findVersion? key l = some v) : findVersion? key (l ++ m) = some v := by
  rw [findVersion?] at h ⊢
  rw [List.find?_append, h]
  rfl

theorem addVersion_versions {vs l l' : List Version} {v : Located Version} (hl : Versions vs l)
    (h : addVersion l v = .ok l') : Versions (vs ++ [v.value]) l' := by
  rw [addVersion] at h
  cases hf : findVersion? v.value.key l with
  | none =>
    rw [hf] at h
    obtain rfl := Except.ok.inj h
    refine ⟨fun w hw => ?_, fun w hw => ?_⟩
    · rcases List.mem_append.mp hw with hw | hw
      · exact List.mem_append_left _ (hl.declared w hw)
      · exact List.mem_append_right _ hw
    · rcases List.mem_append.mp hw with hw | hw
      · obtain ⟨x, hx, hn⟩ := hl.found w hw
        exact ⟨x, findVersion?_append hx, hn⟩
      · obtain rfl := List.mem_singleton.mp hw
        refine ⟨v.value, ?_, rfl⟩
        rw [findVersion?] at hf ⊢
        rw [List.find?_append, hf]
        simp
  | some first =>
    rw [hf] at h
    by_cases hn : first.number = v.value.number
    · simp only [hn, ↓reduceIte, Except.ok.injEq] at h
      subst h
      refine ⟨fun w hw => List.mem_append_left _ (hl.declared w hw), fun w hw => ?_⟩
      rcases List.mem_append.mp hw with hw | hw
      · exact hl.found w hw
      · obtain rfl := List.mem_singleton.mp hw
        exact ⟨first, hf, hn⟩
    · simp only [hn, ↓reduceIte] at h
      exact nomatch h

theorem versionsOf_versions {ds : List (Located Version)} {l : List Version}
    (h : versionsOf ds = .ok l) : Versions (ds.map (·.value)) l := by
  have hnone : Versions (([] : List (Located Version)).map (·.value)) [] := ⟨by simp, by simp⟩
  refine foldlM_invariant (P := fun done l => Versions (done.map (·.value)) l) ?_ [] hnone h
  intro done l v l' hl hv
  rw [List.map_append]
  exact addVersion_versions hl hv

/-- The first declaration of a version has the number that is kept for its key. -/
theorem Versions.number_find? {ds l : List Version} (hl : Versions ds l) {key : LooseText}
    {v : Version} (h : findVersion? key l = some v) :
    (ds.find? (·.key = key)).map (·.number) = some v.number := by
  obtain ⟨hmem, rfl⟩ := findVersion?_eq_some h
  cases hf : ds.find? (·.key = v.key) with
  | none => exact absurd (decide_eq_true rfl) (List.find?_eq_none.mp hf v (hl.declared v hmem))
  | some w =>
    obtain ⟨hw, hkey⟩ := of_find?_eq_some hf
    obtain ⟨x, hx, hnumber⟩ := hl.found w hw
    rw [hkey, h, Option.some.injEq] at hx
    rw [Option.map_some, ← hnumber, hx]

theorem versionNumber_eq_ok {l : List Version} {o : Located Overload} {n : Int}
    (h : versionNumber l o = .ok n) :
    ∃ v, o.value.version = some v.key ∧ findVersion? v.key l = some v ∧ v.number = n := by
  rw [versionNumber] at h
  cases hk : o.value.version with
  | none =>
    rw [hk] at h
    exact nomatch h
  | some key =>
    rw [hk] at h
    cases hf : findVersion? key l with
    | none =>
      simp only [hf] at h
      exact nomatch h
    | some v =>
      simp only [hf, Except.ok.injEq] at h
      obtain rfl := (findVersion?_eq_some hf).2
      exact ⟨v, rfl, hf, h⟩

/-! ## signatures -/

/-- The descriptors of the type keys of an overload. -/
def TypeScope.resolved (scope : TypeScope) (o : Overload) : Signature :=
  o.signature.filterMap scope.descriptor?

theorem resolve_eq_ok {scope : TypeScope} {o : Located Overload} {i : Nat} {keys : List LooseText}
    {s : Signature} (h : resolve scope o i keys = .ok s) :
    keys.map scope.descriptor? = s.map some ∧ s = keys.filterMap scope.descriptor? := by
  induction keys generalizing i s with
  | nil =>
    obtain rfl := Except.ok.inj h
    exact ⟨rfl, rfl⟩
  | cons key keys ih =>
    rw [resolve] at h
    cases hd : scope.descriptor? key with
    | none =>
      rw [hd] at h
      exact nomatch h
    | some d =>
      rw [hd] at h
      obtain ⟨rest, hrest, hs⟩ := bind_eq_ok.mp h
      obtain rfl := pure_eq_ok.mp hs
      obtain ⟨h1, h2⟩ := ih hrest
      exact ⟨by rw [List.map_cons, hd, h1, List.map_cons], by rw [List.filterMap_cons, hd, ← h2]⟩

/-! ## rows -/

theorem checkOverload_eq (scope : TypeScope) (vs : List Version) (o : Located Overload) :
    checkOverload scope vs o =
      if o.value.name = "" ∨ o.value.name.allPrintable = false then
        .error ⟨.invalidName o.value.name, o.place.member "name"⟩
      else if o.value.signature = [] then
        .error ⟨.emptySignature o.value.name, o.place.member "signature"⟩
      else resolve scope o 0 o.value.signature >>= fun s =>
        versionNumber vs o >>= fun n => .ok (s, n) := by
  rw [checkOverload]
  by_cases h : o.value.name = "" ∨ o.value.name.allPrintable = false
  · rw [if_pos h, if_pos h]
    rfl
  · rw [if_neg h, if_neg h]
    by_cases hs : o.value.signature = []
    · rw [if_pos hs, if_pos hs]
      rfl
    · rw [if_neg hs, if_neg hs]
      rfl

theorem checkOverload_eq_ok {scope : TypeScope} {vs : List Version} {o : Located Overload}
    {s : Signature} {n : Int} (h : checkOverload scope vs o = .ok (s, n)) :
    o.value.name ≠ "" ∧ o.value.name.allPrintable = true ∧ o.value.signature ≠ [] ∧
      o.value.signature.map scope.descriptor? = (scope.resolved o.value).map some ∧
      s = scope.resolved o.value ∧
      ∃ v, o.value.version = some v.key ∧ findVersion? v.key vs = some v ∧ v.number = n := by
  rw [checkOverload_eq] at h
  by_cases hn : o.value.name = "" ∨ o.value.name.allPrintable = false
  · rw [if_pos hn] at h
    exact nomatch h
  · rw [if_neg hn] at h
    by_cases he : o.value.signature = []
    · rw [if_pos he] at h
      exact nomatch h
    · rw [if_neg he] at h
      obtain ⟨s', hs, h⟩ := bind_eq_ok.mp h
      obtain ⟨n', hv, h⟩ := bind_eq_ok.mp h
      obtain ⟨rfl, rfl⟩ := Prod.mk.inj (Except.ok.inj h)
      obtain ⟨hd, hs⟩ := resolve_eq_ok hs
      obtain rfl : s' = scope.resolved o.value := hs
      rw [not_or, Bool.not_eq_false] at hn
      exact ⟨hn.1, hn.2, he, hd, rfl, versionNumber_eq_ok hv⟩

/-- The row of an overload, where the signatures stored are `ds`. -/
structure RowOf (scope : TypeScope) (vs : List Version) (ds : List Signature) (o : Overload)
    (r : Row) : Prop where
  name : o.name = r.name
  nameNonempty : o.name ≠ ""
  namePrintable : o.name.allPrintable = true
  declared : o.signature.map scope.descriptor? = (scope.resolved o).map some
  starts : StartsAt ds (scope.resolved o) r.start
  length : r.length = (scope.resolved o).length
  extension : r.extension = o.extension.plain
  version : ∃ v, o.version = some v.key ∧ findVersion? v.key vs = some v ∧ r.version = v.number

theorem RowOf.append {scope : TypeScope} {vs : List Version} {ds : List Signature} {o : Overload}
    {r : Row} (h : RowOf scope vs ds o r) (more : List Signature) :
    RowOf scope vs (ds ++ more) o r :=
  { h with starts := h.starts.append more }

/-- One row more, and its signature in the pool. -/
theorem makeRow_stores {scope : TypeScope} {vs : List Version} {p p' : SignaturePool}
    {l : List Signature} {o : Located Overload} {r : Row} (hp : p.Stores l)
    (h : makeRow scope vs p o = .ok (r, p')) :
    p'.Stores (l ++ [scope.resolved o.value]) ∧
      RowOf scope vs (l ++ [scope.resolved o.value]).eraseDups o.value r := by
  obtain ⟨⟨s, n⟩, hc, h⟩ := bind_eq_ok.mp h
  obtain ⟨⟨start, q⟩, hi, h⟩ := bind_eq_ok.mp h
  obtain ⟨rfl, rfl⟩ := Prod.mk.inj (pure_eq_ok.mp h)
  rw [mapError_eq_ok] at hc hi
  obtain ⟨hname, hprint, -, hd, rfl, v, hk, hf, hv⟩ := checkOverload_eq_ok hc
  obtain ⟨hst, hat⟩ := hp.intern hi
  exact ⟨hst, LooseText.isPlain_of_allPrintable hprint, hname, hprint, hd, hat, rfl, rfl, v, hk, hf,
    hv.symm⟩

/-- **The rows of overloads in order, and the pool with all their signatures.** -/
theorem makeRows_stores {scope : TypeScope} {vs : List Version} {p p' : SignaturePool}
    {l : List Signature} {os : List (Located Overload)} {rows : List Row} (hp : p.Stores l)
    (h : makeRows scope vs p os = .ok (rows, p')) :
    p'.Stores (l ++ os.map fun o => scope.resolved o.value) ∧
      List.Forall₂ (RowOf scope vs (l ++ os.map fun o => scope.resolved o.value).eraseDups)
        (os.map (·.value)) rows := by
  induction os generalizing p l rows with
  | nil =>
    obtain ⟨rfl, rfl⟩ := Prod.mk.inj (Except.ok.inj h)
    exact ⟨by simpa using hp, .nil⟩
  | cons o os ih =>
    obtain ⟨⟨r, q⟩, hr, h⟩ := bind_eq_ok.mp h
    obtain ⟨⟨rest, q'⟩, hrest, h⟩ := bind_eq_ok.mp h
    obtain ⟨rfl, rfl⟩ := Prod.mk.inj (pure_eq_ok.mp h)
    obtain ⟨hq, hrow⟩ := makeRow_stores hp hr
    obtain ⟨hst, hall⟩ := ih hq hrest
    rw [List.append_assoc] at hst hall
    refine ⟨hst, .cons ?_ hall⟩
    -- signatures stored later leave the start of this one alone
    have := hrow.append ((os.map fun o => scope.resolved o.value).removeAll
      (l ++ [scope.resolved o.value])).eraseDups
    rwa [← List.eraseDups_append, List.append_assoc] at this

/-! ## the stages -/

def rowGroups (rows : List Row) : Groups Row := group (·.name) rows

def groupSizes (rows : List Row) : List (String × Int) :=
  (rowGroups rows).map fun g => (g.1, (g.2.length : Int))

/-- The stages of a build that succeeds, and what each gives to the tables. -/
structure Stages (c : Catalog) (t : Tables) where
  scope : TypeScope
  versions : List Version
  rows : List Row
  pool : SignaturePool
  scope_eq : TypeScope.ofDeclared c.types = .ok scope
  versions_eq : versionsOf c.versions = .ok versions
  rows_eq : makeRows scope versions .empty c.overloads = .ok (rows, pool)
  index_eq : BlockIndex.ofSizes (groupSizes rows) = .ok t.index
  label_eq : t.label = c.label.map (·.plain)
  fingerprint_eq : c.content.fingerprint = .ok t.fingerprint
  bases_eq : t.bases = scope.bases.map (·.map LooseText.plain)
  table_eq : t.signatureTable = pool.table
  runs_eq : t.runs = pool.runs
  grouped_eq : t.rows = (rowGroups rows).flatMap (·.2)

theorem Tables.build_eq_ok {c : Catalog} {t : Tables} :
    Tables.build c = .ok t ↔ Nonempty (Stages c t) := by
  constructor
  · intro h
    obtain ⟨scope, hs, h⟩ := bind_eq_ok.mp h
    obtain ⟨vs, hv, h⟩ := bind_eq_ok.mp h
    obtain ⟨⟨rows, pool⟩, hr, h⟩ := bind_eq_ok.mp h
    obtain ⟨index, hi, h⟩ := bind_eq_ok.mp h
    obtain ⟨f, hf, h⟩ := bind_eq_ok.mp h
    obtain rfl := pure_eq_ok.mp h
    exact ⟨scope, vs, rows, pool, mapError_eq_ok.mp hs, mapError_eq_ok.mp hv, hr,
      mapError_eq_ok.mp hi, rfl, mapError_eq_ok.mp hf, rfl, rfl, rfl, rfl⟩
  · rintro ⟨g⟩
    refine bind_eq_ok.mpr ⟨g.scope, mapError_eq_ok.mpr g.scope_eq, ?_⟩
    refine bind_eq_ok.mpr ⟨g.versions, mapError_eq_ok.mpr g.versions_eq, ?_⟩
    refine bind_eq_ok.mpr ⟨(g.rows, g.pool), g.rows_eq, ?_⟩
    refine bind_eq_ok.mpr ⟨t.index, mapError_eq_ok.mpr g.index_eq, ?_⟩
    refine bind_eq_ok.mpr ⟨t.fingerprint, mapError_eq_ok.mpr g.fingerprint_eq, ?_⟩
    rw [pure_eq_ok, ← g.label_eq, ← g.bases_eq, ← g.table_eq, ← g.runs_eq]
    obtain ⟨label, fingerprint, bases, table, runs, rows, index⟩ := t
    exact congrArg (fun rows => Tables.mk label fingerprint bases table runs rows index)
      g.grouped_eq.symm

namespace Stages

variable {c : Catalog} {t : Tables} (g : Stages c t)

theorem stores : g.pool.Stores (c.content.overloads.map g.scope.resolved) := by
  have := (makeRows_stores SignaturePool.stores_empty g.rows_eq).1
  simpa [Catalog.content, Function.comp_def] using this

theorem rowsOf : List.Forall₂
    (RowOf g.scope g.versions (c.content.overloads.map g.scope.resolved).eraseDups)
    c.content.overloads g.rows := by
  have := (makeRows_stores SignaturePool.stores_empty g.rows_eq).2
  simpa [Catalog.content, Function.comp_def] using this

include g

/-- The fingerprint was made, which no surrogate and no long integer lets through. -/
theorem written : c.content.WithinLimits ∧ c.content.NoSurrogate :=
  Content.exists_fingerprint.mp ⟨_, g.fingerprint_eq⟩

theorem label : c.label = t.label.map .text := by
  rw [g.label_eq, Option.map_map]
  cases hlabel : c.label with
  | none => rfl
  | some label => exact congrArg some (g.written.2.label label hlabel)

/-- The rows of the overloads, and their extensions unchanged. -/
theorem rowsOf_extension : List.Forall₂ (fun o r =>
    RowOf g.scope g.versions (c.content.overloads.map g.scope.resolved).eraseDups o r ∧
      o.extension = r.extension) c.content.overloads g.rows := by
  have hplain : ∀ o ∈ c.content.overloads, o.extension = o.extension.plain := fun o ho =>
    g.written.2.overload ho _ (List.mem_cons_of_mem _ List.mem_cons_self)
  refine ((List.forall₂_and_left _ _).mpr ⟨hplain, g.rowsOf⟩).imp fun o r ⟨ho, h⟩ => ?_
  exact ⟨h, h.extension ▸ ho⟩

/-- What was written of a base type is all of it. -/
theorem baseType {b : BaseType LooseText} (hb : b ∈ g.scope.bases) :
    (b.map LooseText.plain).map .text = b := by
  have hscope := TypeScope.ofDeclared_reflects g.scope_eq
  obtain ⟨owned, howned, rfl⟩ := List.mem_map.mp hb
  obtain ⟨d, hd, hname⟩ := hscope.mem_names.mp (List.mem_map.mpr ⟨owned, howned, rfl⟩)
  have hconcrete := hscope.concretes d hd owned howned hname.symm
  have hplain := g.written.2.type (c := c.content) hd
  obtain ⟨⟨name, concrete⟩, owner⟩ := owned
  obtain rfl : d.name = name := hname
  obtain rfl : concrete = d.concrete := hconcrete
  have hname : LooseText.text d.name.plain = d.name :=
    (hplain _ (List.mem_cons_of_mem _ List.mem_cons_self)).symm
  rw [BaseType.map, BaseType.map, hname]
  cases hc : d.concrete with
  | none => rfl
  | some q =>
    have hq : LooseText.text q.plain = q := by
      refine (hplain q ?_).symm
      rw [DeclaredType.texts, hc]
      exact List.mem_cons_of_mem _ (List.mem_cons_of_mem _ List.mem_cons_self)
    rw [Option.map_some, Option.map_some, hq]

theorem bases : g.scope.bases = t.bases.map (·.map .text) := by
  have hsame : g.scope.bases.map (fun b => (b.map LooseText.plain).map .text) = g.scope.bases :=
    (List.map_congr_left fun b hb => g.baseType hb).trans (List.map_id _)
  rw [g.bases_eq, List.map_map]
  exact hsame.symm

end Stages
end OverloadTables
