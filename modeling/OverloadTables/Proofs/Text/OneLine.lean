import OverloadTables.Proofs.Text.Decimal
import OverloadTables.Proofs.Text.Identifier
import OverloadTables.Proofs.Text.Loose
import OverloadTables.Proofs.Text.Quoted
import OverloadTables.Text.Lines

/-!
# Texts on one line

A reader of source cuts a text at every LF, CR and CR LF.

* `Text.OneLine cs`        no line ends in the text;
* `oneLine_quote`, `oneLine_of_printable`, `oneLine_of_identifier`   what is written on one line;
* `LooseText.OneLine t`    so in a text that may have lone surrogates;
* `Text.cutLines cs`       the lines of a text, the last one being what no line end follows;
* `cutLines_append`        a text in front of a line end makes one line of its own exactly if it has
                           no line end but perhaps a CR at its end;
* `cutLines_ended_length`  lines that are put together and cut are no more only if each is contained;
* `unifyLineEnds_eq`       a text without CR keeps its line ends.
-/

namespace OverloadTables.Text

/-- No character ends a line. -/
def OneLine (cs : List Char) : Prop := ∀ c ∈ cs, c ≠ '\n' ∧ c ≠ '\r'

instance (cs : List Char) : Decidable (OneLine cs) :=
  List.decidableBAll (fun c => c ≠ '\n' ∧ c ≠ '\r') cs

theorem oneLine_append {a b : List Char} : OneLine (a ++ b) ↔ OneLine a ∧ OneLine b :=
  List.forall_mem_append

theorem oneLine_cons {c : Char} {cs : List Char} :
    OneLine (c :: cs) ↔ (c ≠ '\n' ∧ c ≠ '\r') ∧ OneLine cs :=
  List.forall_mem_cons

theorem oneLine_nil : OneLine [] := fun _ h => nomatch h

theorem oneLine_str {a b : String} :
    OneLine (a ++ b).toList ↔ OneLine a.toList ∧ OneLine b.toList := by
  rw [String.toList_append, oneLine_append]

/-- Characters of a kind that holds no line end. -/
theorem oneLine_of_all {p : Char → Bool} (hn : p '\n' = false) (hr : p '\r' = false)
    {cs : List Char} (h : ∀ c ∈ cs, p c = true) : OneLine cs := by
  intro c hc
  constructor
  · rintro rfl
    exact Bool.false_ne_true (hn.symm.trans (h _ hc))
  · rintro rfl
    exact Bool.false_ne_true (hr.symm.trans (h _ hc))

/-! ## what is written -/

/-- A literal is checked by the characters it is made of. -/
theorem oneLine_ofList {cs : List Char} (h : OneLine cs) : OneLine (String.ofList cs).toList := by
  rw [String.toList_ofList]
  exact h

theorem oneLine_nat (n : Nat) : OneLine (toString n).toList :=
  oneLine_of_all (p := Char.isDigit) rfl rfl fun _ hc => isDigit_of_mem_nat hc

theorem oneLine_int (n : Int) : OneLine (toString n).toList := by
  cases n with
  | ofNat n => exact oneLine_nat n
  | negSucc n =>
    rw [toList_toString_negSucc, oneLine_cons]
    exact ⟨by decide, oneLine_nat (n + 1)⟩

theorem oneLine_of_printableChars {cs : List Char} (h : Printable cs) : OneLine cs :=
  oneLine_of_all (by decide) (by decide) h

theorem oneLine_of_printable {s : String} (h : allPrintable s = true) : OneLine s.toList :=
  oneLine_of_printableChars (List.all_eq_true.mp h)

theorem oneLine_of_identifier {s : String} (h : isIdentifier s = true) : OneLine s.toList :=
  oneLine_of_all (by decide) (by decide) (continue_of_mem h)

theorem oneLine_quoteChars (cs : List Char) : OneLine (quoteChars cs) :=
  oneLine_of_printableChars (printable_quoteChars cs)

theorem oneLine_quote (s : String) : OneLine (quote s).toList := by
  rw [quote, String.toList_ofList]
  exact oneLine_quoteChars s.toList

/-! ## lines -/

/-- The first line with a character before it. -/
def beforeFirst (c : Char) : List (List Char) → List (List Char)
  | [] => [[c]]
  | l :: ls => (c :: l) :: ls

/-- The lines of a text; what no line end follows is a line too. -/
def cutLines : List Char → List (List Char)
  | [] => [[]]
  | '\r' :: '\n' :: cs => [] :: cutLines cs
  | c :: cs => if c = '\n' ∨ c = '\r' then [] :: cutLines cs else beforeFirst c (cutLines cs)

/-- No line end but perhaps a CR at the end. -/
def Contained (cs : List Char) : Prop := '\n' ∉ cs ∧ '\r' ∉ cs.dropLast

instance (cs : List Char) : Decidable (Contained cs) :=
  inferInstanceAs (Decidable (_ ∧ _))

theorem cutLines_cons {c : Char} (h : c ≠ '\n' ∧ c ≠ '\r') (cs : List Char) :
    cutLines (c :: cs) = beforeFirst c (cutLines cs) := by
  rw [cutLines, if_neg (not_or.mpr h)]
  rintro cs' rfl rfl
  exact h.2 rfl

/-- A text on one line in front of a line end is a line. -/
theorem cutLines_oneLine {l : List Char} (h : OneLine l) (cs : List Char) :
    cutLines (l ++ '\n' :: cs) = l :: cutLines cs := by
  induction l with
  | nil =>
    rw [List.nil_append, cutLines, if_pos (.inl rfl)]
    exact nofun
  | cons c l ih =>
    obtain ⟨hc, hl⟩ := oneLine_cons.mp h
    rw [List.cons_append, cutLines_cons hc, ih hl]
    rfl

theorem cutLines_prefix {p : List Char} (h : OneLine p) {cs l : List Char}
    {ls : List (List Char)} (hcs : cutLines cs = l :: ls) :
    cutLines (p ++ cs) = (p ++ l) :: ls := by
  induction p with
  | nil => exact hcs
  | cons c p ih =>
    obtain ⟨hc, hp⟩ := oneLine_cons.mp h
    rw [List.cons_append, cutLines_cons hc, ih hp]
    rfl

theorem contained_cons {c : Char} (h : c ≠ '\n' ∧ c ≠ '\r') (cs : List Char) :
    Contained (c :: cs) ↔ Contained cs := by
  cases cs with
  | nil => simp [Contained, Ne.symm h.1]
  | cons d cs => simp [Contained, Ne.symm h.1, Ne.symm h.2]

/-- What stands in front of a line end makes lines of its own, and only one if it is contained. -/
theorem cutLines_append (a : List Char) : ∃ l ls,
    (∀ b, cutLines (a ++ '\n' :: b) = l :: (ls ++ cutLines b)) ∧ (ls = [] ↔ Contained a) := by
  induction a using cutLines.induct with
  | case1 =>
    refine ⟨[], [], fun b => cutLines_oneLine oneLine_nil b, ?_⟩
    exact ⟨fun _ => ⟨List.not_mem_nil, List.not_mem_nil⟩, fun _ => rfl⟩
  | case2 cs ih =>
    obtain ⟨l, ls, hcut, -⟩ := ih
    refine ⟨[], l :: ls, fun b => ?_, ?_⟩
    · rw [List.cons_append, List.cons_append, cutLines, hcut b]
      rfl
    · simp [Contained]
  | case3 c cs hcr hc ih =>
    obtain ⟨l, ls, hcut, -⟩ := ih
    rcases hc with rfl | rfl
    · refine ⟨[], l :: ls, fun b => ?_, ?_⟩
      · rw [List.cons_append, cutLines, if_pos (.inl rfl), hcut b]
        · rfl
        · exact nofun
      · simp [Contained]
    · cases cs with
      | nil =>
        -- the line end after it takes the CR in
        exact ⟨[], [], fun b => rfl, by simp [Contained]⟩
      | cons d cs =>
        have hd : d ≠ '\n' := fun e => hcr cs rfl (by rw [e])
        refine ⟨[], l :: ls, fun b => ?_, ?_⟩
        · rw [List.cons_append, cutLines, if_pos (.inr rfl), hcut b]
          · rfl
          · intro cs' _ e
            exact hd (List.cons.inj e).1
        · simp [Contained]
  | case4 c cs hcr hc ih =>
    obtain ⟨l, ls, hcut, hone⟩ := ih
    have hc' := not_or.mp hc
    refine ⟨c :: l, ls, fun b => ?_, hone.trans (contained_cons hc' cs).symm⟩
    rw [List.cons_append, cutLines_cons hc', hcut b]
    rfl

theorem unifyLineEnds_eq {cs : List Char} (h : '\r' ∉ cs) : unifyLineEnds cs = cs := by
  induction cs with
  | nil => rfl
  | cons c cs ih =>
    rw [List.mem_cons, not_or] at h
    rw [unifyLineEnds, ih h.2]
    · intro cs' e
      exact absurd e.symm h.1
    · exact Ne.symm h.1

theorem cutLines_ne_nil (cs : List Char) : cutLines cs ≠ [] := by
  cases cs with
  | nil => exact List.cons_ne_nil _ _
  | cons c cs =>
    rw [cutLines.eq_def]
    split
    · exact List.cons_ne_nil _ _
    · exact List.cons_ne_nil _ _
    · split
      · exact List.cons_ne_nil _ _
      · cases cutLines _ with
        | nil | cons => exact List.cons_ne_nil _ _

/-- A contained text is on one line if its last character is no CR. -/
theorem oneLine_of_contained {cs : List Char} {c : Char} (h : Contained (cs ++ [c]))
    (hc : c ≠ '\r') : OneLine (cs ++ [c]) := by
  obtain ⟨hn, hr⟩ := h
  rw [List.dropLast_concat] at hr
  intro d hd
  refine ⟨fun e => hn (e ▸ hd), ?_⟩
  rintro rfl
  rcases List.mem_append.mp hd with h | h
  · exact hr h
  · exact hc (List.mem_singleton.mp h).symm

/-! ## lines put together -/

/-- Lines with a line end after each. -/
def ended (ls : List String) : List Char := ls.flatMap fun l => l.toList ++ ['\n']

theorem ended_cons (l : String) (ls : List String) :
    ended (l :: ls) = l.toList ++ '\n' :: ended ls := by
  rw [ended, List.flatMap_cons, List.append_assoc]
  rfl

theorem joinLines_toList (l : String) (ls : List String) :
    (joinLines (l :: ls) ++ "\n").toList = ended (l :: ls) := by
  have hnl : "\n".toList = ['\n'] := rfl
  induction ls generalizing l with
  | nil =>
    rw [joinLines, String.intercalate_singleton, String.toList_append, hnl]
    exact (List.append_nil _).symm
  | cons l' ls ih =>
    have h := ih l'
    rw [joinLines] at h ⊢
    rw [String.intercalate_cons_cons, String.toList_append, String.toList_append, hnl]
    rw [String.toList_append, hnl] at h
    rw [List.append_assoc, h, String.toList_append, hnl]
    rfl

/-- Lines on one line each are the lines of the text they make. -/
theorem cutLines_ended {ls : List String} (h : ∀ l ∈ ls, OneLine l.toList) :
    cutLines (ended ls) = ls.map String.toList ++ [[]] := by
  induction ls with
  | nil => rfl
  | cons l ls ih =>
    have hl := h l List.mem_cons_self
    have hls := ih fun l' hl' => h l' (List.mem_cons_of_mem _ hl')
    rw [ended_cons, cutLines_oneLine hl, hls]
    rfl

/-- Lines with a line end after each are no fewer when they are cut, and no more only if each is
contained. -/
theorem cutLines_ended_length (ls : List String) : ∃ front, cutLines (ended ls) = front ++ [[]] ∧
    ls.length ≤ front.length ∧ (front.length = ls.length → ∀ l ∈ ls, Contained l.toList) := by
  induction ls with
  | nil => exact ⟨[], rfl, Nat.le_refl 0, fun _ => List.forall_mem_nil _⟩
  | cons l ls ih =>
    obtain ⟨front, hcut, hle, hlength⟩ := ih
    obtain ⟨first, more, hfirst, hone⟩ := cutLines_append l.toList
    refine ⟨first :: (more ++ front), ?_, ?_, fun h => ?_⟩
    · rw [ended_cons, hfirst, hcut, List.cons_append, List.append_assoc]
    · rw [List.length_cons, List.length_cons, List.length_append]
      omega
    · rw [List.length_cons, List.length_cons, List.length_append] at h
      have hmore : more = [] := List.eq_nil_of_length_eq_zero (by omega)
      exact List.forall_mem_cons.mpr ⟨hone.mp hmore, hlength (by omega)⟩

end OverloadTables.Text

/-! ## texts with lone surrogates -/

namespace OverloadTables.LooseText
open Text (oneLine_ofList oneLine_of_printableChars printable_codePointEscape)

/-- No character of the text ends a line. -/
def OneLine (t : LooseText) : Prop := ∀ p ∈ t.points, p ≠ .char '\n' ∧ p ≠ .char '\r'

instance (t : LooseText) : Decidable t.OneLine := inferInstanceAs (Decidable (∀ p ∈ t.points, _))

theorem oneLine_text {s : String} : (text s).OneLine ↔ Text.OneLine s.toList := by
  rw [OneLine, points_text, List.forall_mem_map, Text.OneLine]
  simp only [ne_eq, Point.char.injEq]

theorem oneLine_append {s t : LooseText} : (s ++ t).OneLine ↔ s.OneLine ∧ t.OneLine := by
  rw [OneLine, points_append, List.forall_mem_append]
  rfl

theorem oneLine_lone {before : String} {u : Surrogate} {rest : LooseText} :
    (lone before u rest).OneLine ↔ Text.OneLine before.toList ∧ rest.OneLine := by
  have hlone (c : Char) : Point.lone u ≠ .char c := by
    intro h
    cases h
  rw [← oneLine_text, OneLine, points, List.forall_mem_append, List.forall_mem_cons]
  exact and_congr_right fun _ => and_iff_right ⟨hlone _, hlone _⟩

/-- A text is on one line if and only if it is with its surrogates escaped. -/
theorem oneLine_shown {t : LooseText} : Text.OneLine t.shown.toList ↔ t.OneLine := by
  induction t with
  | text s => exact oneLine_text.symm
  | lone before u rest ih =>
    have hescape : Text.OneLine (String.ofList (Text.codePointEscape u.code)).toList :=
      oneLine_ofList (oneLine_of_printableChars (printable_codePointEscape _))
    rw [shown, Text.oneLine_str, Text.oneLine_str, and_iff_left hescape, ih, oneLine_lone]

theorem oneLine_quote (t : LooseText) : Text.OneLine t.quote.toList := by
  have hq := Script.isQuote_quoteMark t.plain.toList
  have hmark : Text.Printable [Text.quoteMark t.plain.toList] := by
    rcases hq with e | e <;> rw [e] <;> decide
  have hbody : Text.Printable (t.points.flatMap (quotedPoint (Text.quoteMark t.plain.toList))) := by
    intro c hc
    obtain ⟨p, -, hp⟩ := List.mem_flatMap.mp hc
    cases p with
    | char d => exact Text.printable_quotedChar hq d c hp
    | lone u => exact printable_codePointEscape _ c hp
  rw [quote, String.toList_ofList, List.cons_append]
  exact oneLine_of_printableChars (Text.printable_cons.mpr ⟨hmark _ (List.mem_singleton_self _),
    Text.printable_append.mpr ⟨hbody, hmark⟩⟩)

/-- A printable text, or an identifier, is on one line. -/
theorem oneLine_of_printable {t : LooseText} (h : t.allPrintable = true) : t.OneLine := by
  obtain ⟨s, rfl⟩ := isPlain_iff.mp (isPlain_of_allPrintable h)
  exact oneLine_text.mpr (Text.oneLine_of_printable h)

theorem oneLine_of_identifier {t : LooseText} (h : t.isIdentifier = true) : t.OneLine := by
  obtain ⟨s, rfl⟩ := isPlain_iff.mp (isPlain_of_isIdentifier h)
  exact oneLine_text.mpr (Text.oneLine_of_identifier h)

end OverloadTables.LooseText
