/-!
# Steps that succeed, and the one that fails

* `bind_eq_ok`, `bind_eq_error`   a sequence succeeds if both steps do;
* `mapError_eq_ok`, `mapError_eq_error`   another wording of errors leaves answers alone;
* `SameAnswers x y`   both succeed alike, whatever they fail with;
* `foldlM_invariant`   what holds of a list taken in, one member after the other;
* `foldlM_eq_error`    the member that is not taken in, and those before it;
* `mapM_eq_ok`, `mapM_eq_error`   an answer about a list is made of answers about its members;
* `mapM_eq_map`, `mapM_map_some`   a list on which every step succeeds.
-/

namespace OverloadTables

variable {ε ε' α β : Type}

theorem pure_eq_ok {a b : α} : (pure a : Except ε α) = .ok b ↔ a = b :=
  ⟨fun h => Except.ok.inj h, fun h => h ▸ rfl⟩

theorem bind_eq_ok {x : Except ε α} {f : α → Except ε β} {b : β} :
    (x >>= f) = .ok b ↔ ∃ a, x = .ok a ∧ f a = .ok b := by
  cases x with
  | error e => simp [bind, Except.bind]
  | ok a => simp [bind, Except.bind]

theorem bind_eq_error {x : Except ε α} {f : α → Except ε β} {e : ε} :
    (x >>= f) = .error e ↔ x = .error e ∨ ∃ a, x = .ok a ∧ f a = .error e := by
  cases x with
  | error e' => simp [bind, Except.bind]
  | ok a => simp [bind, Except.bind]

theorem mapError_eq_ok {x : Except ε α} {f : ε → ε'} {a : α} :
    x.mapError f = .ok a ↔ x = .ok a := by
  cases x with
  | error e =>
    show (.error (f e) : Except ε' α) = .ok a ↔ _
    simp
  | ok b =>
    show (.ok b : Except ε' α) = .ok a ↔ _
    rw [Except.ok.injEq, Except.ok.injEq]

theorem mapError_eq_error {x : Except ε α} {f : ε → ε'} {e' : ε'} :
    x.mapError f = .error e' ↔ ∃ e, x = .error e ∧ f e = e' := by
  cases x with
  | error e =>
    show (.error (f e) : Except ε' α) = .error e' ↔ _
    simp
  | ok a =>
    show (.ok a : Except ε' α) = .error e' ↔ _
    simp

/-- Both succeed with the same answers, or neither does. -/
def SameAnswers (x y : Except ε α) : Prop := ∀ a, x = .ok a ↔ y = .ok a

theorem SameAnswers.of_eq {x y : Except ε α} (h : x = y) : SameAnswers x y := fun _ => h ▸ Iff.rfl

theorem SameAnswers.symm {x y : Except ε α} (h : SameAnswers x y) : SameAnswers y x :=
  fun a => (h a).symm

theorem SameAnswers.trans {x y z : Except ε α} (h : SameAnswers x y) (h' : SameAnswers y z) :
    SameAnswers x z := fun a => (h a).trans (h' a)

theorem SameAnswers.bind {x y : Except ε α} {f g : α → Except ε β} (h : SameAnswers x y)
    (hf : ∀ a, SameAnswers (f a) (g a)) : SameAnswers (x >>= f) (y >>= g) := by
  intro b
  rw [bind_eq_ok, bind_eq_ok]
  exact exists_congr fun a => and_congr (h a) (hf a b)

/-- `P done b` says of the members `done`, taken in so far, what is true of the result `b`. -/
theorem foldlM_invariant {P : List α → β → Prop} {f : β → α → Except ε β}
    (step : ∀ done b a b', P done b → f b a = .ok b' → P (done ++ [a]) b') (done : List α)
    {l : List α} {b r : β} (hb : P done b) (h : l.foldlM f b = .ok r) : P (done ++ l) r := by
  induction l generalizing done b with
  | nil =>
    obtain rfl := pure_eq_ok.mp h
    rwa [List.append_nil]
  | cons a l ih =>
    rw [List.foldlM_cons] at h
    obtain ⟨b', hb', hrest⟩ := bind_eq_ok.mp h
    have := ih (done ++ [a]) (step done b a b' hb hb') hrest
    rwa [List.append_assoc] at this

/-- Where a list is not taken in, the members before a certain one are, and this one is not. -/
theorem foldlM_eq_error {f : β → α → Except ε β} {l : List α} {b : β} {e : ε}
    (h : l.foldlM f b = .error e) : ∃ done a rest b', l = done ++ a :: rest ∧
      done.foldlM f b = .ok b' ∧ f b' a = .error e := by
  induction l generalizing b with
  | nil => exact nomatch h
  | cons a l ih =>
    rw [List.foldlM_cons] at h
    rcases bind_eq_error.mp h with ha | ⟨b', hb', hrest⟩
    · exact ⟨[], a, l, b, rfl, rfl, ha⟩
    · obtain ⟨done, a', rest, b'', rfl, hdone, ha'⟩ := ih hrest
      refine ⟨a :: done, a', rest, b'', rfl, ?_, ha'⟩
      rw [List.foldlM_cons]
      exact bind_eq_ok.mpr ⟨b', hb', hdone⟩

/-- A member and those before it, by number. -/
theorem getElem?_of_before {l done rest : List α} {a : α} (h : l = done ++ a :: rest) :
    l[done.length]? = some a ∧ ∀ b ∈ done, ∃ j, j < done.length ∧ l[j]? = some b := by
  subst h
  refine ⟨by rw [List.getElem?_append_right (Nat.le_refl _), Nat.sub_self]; rfl, fun b hb => ?_⟩
  obtain ⟨j, hj⟩ := List.mem_iff_getElem?.mp hb
  have hlt : j < done.length := (List.getElem?_eq_some_iff.mp hj).1
  exact ⟨j, hlt, by rw [List.getElem?_append_left hlt, hj]⟩

theorem mapM_eq_ok {f : α → Except ε β} {l : List α} {r : List β} :
    l.mapM f = .ok r ↔ l.map f = r.map .ok := by
  induction l generalizing r with
  | nil =>
    rw [List.mapM_nil, pure_eq_ok, List.map_nil, eq_comm, eq_comm (a := []), List.map_eq_nil_iff]
  | cons a l ih =>
    rw [List.mapM_cons, bind_eq_ok, List.map_cons]
    constructor
    · rintro ⟨b, hb, h⟩
      obtain ⟨bs, hbs, h⟩ := bind_eq_ok.mp h
      obtain rfl := pure_eq_ok.mp h
      rw [hb, ih.mp hbs, List.map_cons]
    · intro h
      obtain ⟨b, bs, rfl, hb, hbs⟩ := List.map_eq_cons_iff.mp h.symm
      exact ⟨b, hb.symm, bind_eq_ok.mpr ⟨bs, ih.mpr hbs.symm, rfl⟩⟩

theorem mapM_eq_error {f : α → Except ε β} {l : List α} {e : ε} (h : l.mapM f = .error e) :
    ∃ a ∈ l, f a = .error e := by
  induction l with
  | nil => exact nomatch h
  | cons a l ih =>
    rw [List.mapM_cons] at h
    rcases bind_eq_error.mp h with ha | ⟨b, -, hrest⟩
    · exact ⟨a, List.mem_cons_self, ha⟩
    · rcases bind_eq_error.mp hrest with hl | ⟨bs, -, hpure⟩
      · obtain ⟨a', ha', he⟩ := ih hl
        exact ⟨a', List.mem_cons_of_mem a ha', he⟩
      · exact nomatch hpure

/-- What a list gave, one of its members gave. -/
theorem exists_of_mem_mapM {f : α → Except ε β} {l : List α} {r : List β} (h : l.mapM f = .ok r) :
    ∀ b ∈ r, ∃ a ∈ l, f a = .ok b := by
  intro b hb
  have hmem : (.ok b : Except ε β) ∈ l.map f := mapM_eq_ok.mp h ▸ List.mem_map_of_mem hb
  exact List.mem_map.mp hmem

/-- A list on which every step succeeds. -/
theorem mapM_eq_map {f : α → Except ε β} {g : α → β} {l : List α} (h : ∀ a ∈ l, f a = .ok (g a)) :
    l.mapM f = .ok (l.map g) := by
  rw [mapM_eq_ok, List.map_map]
  exact List.map_congr_left h

/-- What was written is read back, one item after the other. -/
theorem mapM_map_some {γ : Type} {write : α → γ} {read : γ → Option β} {value : α → β} {l : List α}
    (h : ∀ a ∈ l, read (write a) = some (value a)) :
    (l.map write).mapM read = some (l.map value) := by
  induction l with
  | nil => rfl
  | cons a l ih =>
    obtain ⟨ha, hl⟩ := List.forall_mem_cons.mp h
    rw [List.map_cons, List.mapM_cons, ha, ih hl]
    rfl

theorem mapM_append_some {f : α → Option β} {a b : List α} {x y : List β}
    (ha : a.mapM f = some x) (hb : b.mapM f = some y) : (a ++ b).mapM f = some (x ++ y) := by
  rw [List.mapM_append, ha, hb]
  rfl

end OverloadTables
