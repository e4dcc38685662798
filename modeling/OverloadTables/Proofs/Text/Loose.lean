import OverloadTables.Text.Utf16
import Mathlib.Data.List.Chain

/-!
# Texts by their code points

* `LooseText.ofPoints_points`, `points_ofPoints`   a text is the run of its code points;
* `LooseText.IsPlain t`    no lone surrogate is in the text, which is a string then;
* `LooseText.Apart t`      no high surrogate stands right before a low one;
* `apart_append_text`, `apart_between`   texts put together around strings stay so.
-/

namespace OverloadTables

/-! ## code points -/

theorem toNat_lt_or (c : Char) : c.toNat < 0xD800 ∨ (0xDFFF < c.toNat ∧ c.toNat < 0x110000) :=
  c.valid

theorem Surrogate.code_range (u : Surrogate) : 0xD800 ≤ u.code ∧ u.code ≤ 0xDFFF := by
  have h := u.isLt
  rw [Surrogate.code]
  omega

theorem Point.code_injective {p q : Point} (h : p.code = q.code) : p = q := by
  cases p with
  | char c =>
    have hc := toNat_lt_or c
    cases q with
    | char d => exact congrArg Point.char (Char.toNat_inj.mp h)
    | lone v =>
      have hv := v.code_range
      simp only [Point.code] at h
      omega
  | lone u =>
    have hu := u.code_range
    cases q with
    | char d =>
      have hd := toNat_lt_or d
      simp only [Point.code] at h
      omega
    | lone v =>
      have huv : u.val = v.val := Nat.add_left_cancel h
      exact congrArg Point.lone (Fin.ext huv)

namespace LooseText

theorem text_injective : Function.Injective text := fun _ _ => LooseText.text.inj

@[simp] theorem points_text (s : String) : (text s).points = s.toList.map .char := rfl

theorem cutPoints_chars (cs : List Char) (ps : List Point) :
    cutPoints (cs.map .char ++ ps) = (cs ++ (cutPoints ps).1, (cutPoints ps).2) := by
  induction cs with
  | nil => rfl
  | cons c cs ih =>
    rw [List.map_cons, List.cons_append, cutPoints, ih]
    rfl

theorem ofPoints_lone (u : Surrogate) (ps : List Point) :
    ofPoints (.lone u :: ps) = .lone "" u (ofPoints ps) := by
  rw [ofPoints, ofPoints, cutPoints]
  rcases cutPoints ps with ⟨cs, _ | ⟨v, rest⟩⟩ <;> rfl

theorem ofPoints_chars_lone (cs : List Char) (u : Surrogate) (ps : List Point) :
    ofPoints (cs.map .char ++ .lone u :: ps) = .lone (String.ofList cs) u (ofPoints ps) := by
  have h := ofPoints_lone u ps
  rw [ofPoints] at h ⊢
  rw [cutPoints_chars]
  rcases hcut : cutPoints (.lone u :: ps) with ⟨ds, _ | ⟨v, rest⟩⟩
  · rw [hcut] at h
    exact nomatch h
  · rw [hcut] at h
    obtain ⟨hds, rfl, rfl⟩ := LooseText.lone.inj h
    have hnil : ds = [] := by
      have := congrArg String.toList hds
      rwa [String.toList_ofList] at this
    rw [hnil, List.append_nil]

/-- **A text is the text of its code points.** -/
theorem ofPoints_points (t : LooseText) : ofPoints t.points = t := by
  induction t with
  | text s =>
    have hcut := cutPoints_chars s.toList []
    rw [List.append_nil] at hcut
    rw [points_text, ofPoints, hcut]
    show LooseText.text (String.ofList (s.toList ++ [])) = _
    rw [List.append_nil, String.ofList_toList]
  | lone before u rest ih =>
    rw [points, ofPoints_chars_lone, String.ofList_toList, ih]

/-- **The code points of a text are those that it was made of.** -/
theorem points_ofPoints (ps : List Point) : (ofPoints ps).points = ps := by
  -- on the code points from the right, with a run of characters in front of them
  suffices h : ∀ cs : List Char, (ofPoints (cs.map .char ++ ps)).points = cs.map .char ++ ps from
    h []
  induction ps with
  | nil =>
    intro cs
    have hself := ofPoints_points (.text (String.ofList cs))
    rw [points_text, String.toList_ofList] at hself
    rw [List.append_nil, hself, points_text, String.toList_ofList]
  | cons p ps ih =>
    intro cs
    cases p with
    | char c =>
      have h := ih (cs ++ [c])
      rw [List.map_append, List.append_assoc] at h
      exact h
    | lone u =>
      have hrest := ih []
      rw [ofPoints_chars_lone, points, String.toList_ofList]
      exact congrArg (fun ps => cs.map .char ++ .lone u :: ps) hrest

theorem points_injective {s t : LooseText} (h : s.points = t.points) : s = t := by
  rw [← ofPoints_points s, h, ofPoints_points]

theorem codes_injective {s t : LooseText} (h : s.codes = t.codes) : s = t :=
  points_injective (List.map_injective_iff.mpr (fun _ _ => Point.code_injective) h)

/-- Code points put texts into one order, the one of lists of numbers. -/
instance : Std.IsLinearOrder LooseText :=
  have horder : @Std.IsLinearOrder (List Nat) List.instLE := List.instIsLinearOrder
  { le_refl := fun t => horder.le_refl t.codes
    le_trans := fun r s t => horder.le_trans r.codes s.codes t.codes
    le_antisymm := fun s t h h' => codes_injective (horder.le_antisymm s.codes t.codes h h')
    le_total := fun s t => horder.le_total s.codes t.codes }

/-! ## one text after the other -/

@[simp] theorem text_append_text (s t : String) : (text s ++ text t : LooseText) = text (s ++ t) := rfl

theorem points_append (s t : LooseText) : (s ++ t).points = s.points ++ t.points := by
  induction s with
  | text s =>
    cases t with
    | text t =>
      show (s ++ t).toList.map _ = _
      rw [String.toList_append, List.map_append]
      rfl
    | lone before u rest =>
      show (s ++ before).toList.map _ ++ _ = _
      rw [String.toList_append, List.map_append, List.append_assoc]
      rfl
  | lone before u rest ih =>
    show before.toList.map _ ++ .lone u :: (rest ++ t).points = _
    rw [ih, points, List.append_assoc]
    rfl

/-! ## strings -/

/-- No lone surrogate is in the text. -/
def IsPlain (t : LooseText) : Prop := t = t.plain

instance (t : LooseText) : Decidable t.IsPlain := inferInstanceAs (Decidable (_ = _))

@[simp] theorem isPlain_text (s : String) : (text s).IsPlain := rfl

theorem isPlain_iff {t : LooseText} : t.IsPlain ↔ ∃ s : String, t = s := by
  constructor
  · intro h
    exact ⟨_, h⟩
  · rintro ⟨s, rfl⟩
    rfl

theorem not_isPlain_lone {before : String} {u : Surrogate} {rest : LooseText} :
    ¬ (lone before u rest).IsPlain := nofun

/-- A printable text is a string. -/
theorem isPlain_of_allPrintable {t : LooseText} (h : t.allPrintable = true) : t.IsPlain := by
  cases t with
  | text s => rfl
  | lone before u rest => exact nomatch h

theorem isPlain_of_isIdentifier {t : LooseText} (h : t.isIdentifier = true) : t.IsPlain := by
  cases t with
  | text s => rfl
  | lone before u rest => exact nomatch h

@[simp] theorem shown_text (s : String) : (text s).shown = s := rfl

theorem shown_append (s t : LooseText) : (s ++ t).shown = s.shown ++ t.shown := by
  induction s with
  | text s =>
    cases t with
    | text t => rfl
    | lone before u rest =>
      show s ++ before ++ _ ++ _ = s ++ (before ++ _ ++ _)
      rw [String.append_assoc, String.append_assoc, String.append_assoc]
  | lone before u rest ih =>
    show before ++ _ ++ (rest ++ t).shown = _
    rw [ih, shown, ← String.append_assoc]

theorem shown_join (ts : List LooseText) : (join ts).shown = String.join (ts.map shown) := by
  induction ts with
  | nil => rfl
  | cons t ts ih => rw [join, shown_append, ih, List.map_cons, String.join_cons]

/-! ## surrogates apart -/

/-- A reader takes two such code points, each written as a unit, for one character. -/
def Joins (p q : Point) : Prop :=
  Text.isHighSurrogate p.code = true ∧ Text.isLowSurrogate q.code = true

instance (p q : Point) : Decidable (Joins p q) := inferInstanceAs (Decidable (_ ∧ _))

theorem not_isHighSurrogate (c : Char) : Text.isHighSurrogate c.toNat = false := by
  have h := toNat_lt_or c
  rw [Text.isHighSurrogate, Bool.and_eq_false_iff, decide_eq_false_iff_not,
    decide_eq_false_iff_not]
  omega

theorem not_isLowSurrogate (c : Char) : Text.isLowSurrogate c.toNat = false := by
  have h := toNat_lt_or c
  rw [Text.isLowSurrogate, Bool.and_eq_false_iff, decide_eq_false_iff_not,
    decide_eq_false_iff_not]
  omega

theorem not_joins_char (p : Point) (c : Char) : ¬ Joins p (.char c) := by
  rintro ⟨-, h⟩
  rw [Point.code, not_isLowSurrogate] at h
  exact nomatch h

theorem not_char_joins (c : Char) (q : Point) : ¬ Joins (.char c) q := by
  rintro ⟨h, -⟩
  rw [Point.code, not_isHighSurrogate] at h
  exact nomatch h

/-- No high surrogate stands right before a low one. -/
def Apart (t : LooseText) : Prop := t.points.IsChain fun p q => ¬ Joins p q

instance (t : LooseText) : Decidable t.Apart :=
  inferInstanceAs (Decidable (List.IsChain _ _))

theorem apart_text (s : String) : (text s).Apart := by
  have hpairs : (s.toList.map Point.char).Pairwise fun p q => ¬ Joins p q :=
    List.pairwise_map.mpr (List.pairwise_of_forall fun c d => not_char_joins c (.char d))
  exact hpairs.isChain

/-- A string behind a text. -/
theorem apart_append_text {t : LooseText} (h : t.Apart) (s : String) : (t ++ text s).Apart := by
  rw [Apart, points_append, List.isChain_append]
  refine ⟨h, apart_text s, fun p _ q hq => ?_⟩
  obtain ⟨c, -, rfl⟩ := List.mem_map.mp (List.mem_of_mem_head? hq)
  exact not_joins_char p c

/-- A string in front of a text. -/
theorem apart_text_append {t : LooseText} (h : t.Apart) (s : String) : (text s ++ t).Apart := by
  rw [Apart, points_append, List.isChain_append]
  refine ⟨apart_text s, h, fun p hp q _ => ?_⟩
  obtain ⟨c, -, rfl⟩ := List.mem_map.mp (List.mem_of_mem_getLast? hp)
  exact not_char_joins c q

/-- Texts with a string between them. -/
theorem apart_between {r t : LooseText} (hr : r.Apart) (ht : t.Apart) {s : String} (hs : s ≠ "") :
    (r ++ text s ++ t).Apart := by
  have hfront := apart_append_text hr s
  rw [Apart, points_append, List.isChain_append]
  refine ⟨hfront, ht, fun p hp q _ => ?_⟩
  have hne : s.toList.map Point.char ≠ [] := by
    rwa [Ne, List.map_eq_nil_iff, String.toList_eq_nil_iff]
  rw [points_append, points_text, List.getLast?_append_of_ne_nil _ hne] at hp
  obtain ⟨c, -, rfl⟩ := List.mem_map.mp (List.mem_of_mem_getLast? hp)
  exact not_char_joins c q

end LooseText
end OverloadTables
