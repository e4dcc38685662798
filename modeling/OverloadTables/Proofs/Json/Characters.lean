import OverloadTables.Proofs.Json.Token

/-!
# The characters of a written value

* `Layout.Uses l c`        a layout may write the character: printable ASCII, a line feed if there
                           are lines, and what lies beyond if it is not escaped;
* `uses_write`             a written value has no other characters.
-/

namespace OverloadTables.Json

/-- The characters from the blank to the tilde. -/
def IsAscii (c : Char) : Prop := 0x20 ≤ c.toNat ∧ c.toNat < 0x7F

instance (c : Char) : Decidable (IsAscii c) :=
  inferInstanceAs (Decidable (_ ∧ _))

/-- The characters that a layout may write. -/
def Layout.Uses (l : Layout) (c : Char) : Prop :=
  IsAscii c ∨ (c = '\n' ∧ l.indent ≠ none) ∨ (0x7F ≤ c.toNat ∧ l.ascii = false)

/-- A written text is checked character by character. -/
theorem isAscii_of_all {cs : List Char} (h : cs.all (fun c => decide (IsAscii c)) = true) :
    ∀ c ∈ cs, IsAscii c :=
  fun c hc => of_decide_eq_true (List.all_eq_true.mp h c hc)

/-! ## digits -/

theorem isAscii_of_isDigit {c : Char} (h : c.isDigit = true) : IsAscii c := by
  obtain ⟨hlow, hhigh⟩ := Char.isDigit_iff_toNat.mp h
  have hzero : '0'.toNat = 48 := rfl
  have hnine : '9'.toNat = 57 := rfl
  constructor <;> omega

theorem isAscii_writeInt (n : Int) : ∀ c ∈ writeInt n, IsAscii c := by
  have hdigits (m : Nat) : ∀ c ∈ Nat.toDigits 10 m, IsAscii c := fun c hc =>
    isAscii_of_isDigit (Nat.isDigit_of_mem_toDigits (by omega) (by omega) hc)
  cases n with
  | ofNat m => exact hdigits m
  | negSucc m => exact List.forall_mem_cons.mpr ⟨by decide, hdigits (m + 1)⟩

theorem isAscii_unitEscape (u : Nat) : ∀ c ∈ unitEscape u, IsAscii c := by
  have hall : ∀ d < 16, IsAscii (Nat.digitChar d) := by decide
  have hdigit (m : Nat) : IsAscii (Nat.digitChar (m % 16)) := hall _ (Nat.mod_lt _ (by omega))
  rw [unitEscape, Text.hexDigits_four]
  simp only [List.forall_mem_cons]
  exact ⟨by decide, by decide, hdigit _, hdigit _, hdigit _, hdigit _, List.forall_mem_nil _⟩

/-! ## strings -/

section
variable (l : Layout)

theorem uses_writeChar (d : Char) : ∀ c ∈ writeChar l.ascii d, l.Uses c := by
  intro c hc
  by_cases hletter : d = '"' ∨ d = '\\' ∨ d = '\n' ∨ d = '\r' ∨ d = '\t' ∨ d = '\x08' ∨ d = '\x0C'
  · left
    rcases hletter with rfl | rfl | rfl | rfl | rfl | rfl | rfl
    all_goals exact isAscii_of_all rfl c hc
  · simp only [not_or] at hletter
    obtain ⟨hq, hb, hn, hr, ht, h8, hC⟩ := hletter
    rw [writeChar, if_neg hq, if_neg hb, if_neg hn, if_neg hr, if_neg ht, if_neg h8, if_neg hC] at hc
    by_cases hcontrol : d.toNat < 0x20
    · rw [if_pos hcontrol] at hc
      exact .inl (isAscii_unitEscape _ c hc)
    rw [if_neg hcontrol] at hc
    by_cases hescaped : (l.ascii && 0x7F ≤ d.toNat) = true
    · rw [if_pos hescaped] at hc
      obtain ⟨u, -, hu⟩ := List.mem_flatMap.mp hc
      exact .inl (isAscii_unitEscape u c hu)
    rw [if_neg hescaped] at hc
    obtain rfl := List.mem_singleton.mp hc
    by_cases hhigh : 0x7F ≤ c.toNat
    · rw [decide_eq_true hhigh, Bool.and_true, Bool.not_eq_true] at hescaped
      exact .inr (.inr ⟨hhigh, hescaped⟩)
    · exact .inl ⟨by omega, by omega⟩

theorem uses_writePoint {p : Point} (hp : Writes l.ascii p) :
    ∀ c ∈ writePoint l.ascii p, l.Uses c := by
  cases p with
  | char d => exact uses_writeChar l d
  | lone u =>
    cases hascii : l.ascii with
    | true => exact fun c hc => .inl (isAscii_unitEscape u.code c hc)
    | false =>
      obtain ⟨c, hc⟩ := hp hascii
      exact nomatch hc

theorem uses_writeText {t : LooseText} (ht : l.Keeps t) : ∀ c ∈ writeText l.ascii t, l.Uses c := by
  have hquote : l.Uses '"' := .inl (by decide)
  rw [writeText]
  simp only [List.cons_append, List.forall_mem_cons, List.forall_mem_append]
  refine ⟨hquote, fun c hc => ?_, hquote, List.forall_mem_nil _⟩
  obtain ⟨p, hp, hwritten⟩ := List.mem_flatMap.mp hc
  exact uses_writePoint l (ht.writes p hp) c hwritten

/-! ## what stands between values -/

theorem uses_edge (depth : Nat) : ∀ c ∈ l.edge depth, l.Uses c := by
  intro c hc
  rcases l.edge_blank depth c hc with rfl | rfl
  · exact .inl (by decide)
  · refine .inr (.inl ⟨rfl, fun hnone => ?_⟩)
    rw [Layout.edge, hnone] at hc
    exact absurd hc List.not_mem_nil

variable (hl : l.Spaced)
include hl

theorem uses_between (depth : Nat) : ∀ c ∈ l.between depth, l.Uses c := by
  rw [Layout.between]
  simp only [List.cons_append, List.forall_mem_cons, List.forall_mem_append]
  refine ⟨.inl (by decide), fun c hc => ?_, uses_edge l depth⟩
  rw [hl c (List.mem_append_left _ hc)]
  exact .inl (by decide)

theorem uses_afterColon : ∀ c ∈ l.afterColon, l.Uses c := by
  intro c hc
  rw [hl c (List.mem_append_right _ hc)]
  exact .inl (by decide)

/-! ## values -/

theorem uses_writeItems {vs : List Json} (h : ∀ v ∈ vs, ∀ depth, ∀ c ∈ write l depth v, l.Uses c)
    (depth : Nat) : ∀ c ∈ writeItems l depth vs, l.Uses c := by
  induction vs with
  | nil => exact List.forall_mem_nil _
  | cons v vs ih =>
    obtain ⟨hv, hvs⟩ := List.forall_mem_cons.mp h
    rw [writeItems]
    simp only [List.append_assoc, List.forall_mem_append]
    exact ⟨uses_between l hl depth, hv depth, ih hvs⟩

theorem uses_writeMembers {ms : Members} (hk : ∀ m ∈ ms, l.Keeps m.1)
    (h : ∀ m ∈ ms, ∀ depth, ∀ c ∈ write l depth m.2, l.Uses c)
    (depth : Nat) : ∀ c ∈ writeMembers l depth ms, l.Uses c := by
  induction ms with
  | nil => exact List.forall_mem_nil _
  | cons m ms ih =>
    obtain ⟨k, v⟩ := m
    obtain ⟨hkey, hkeys⟩ := List.forall_mem_cons.mp hk
    obtain ⟨hv, hms⟩ := List.forall_mem_cons.mp h
    rw [writeMembers]
    simp only [List.append_assoc, List.cons_append, List.forall_mem_cons, List.forall_mem_append]
    exact ⟨uses_between l hl depth, uses_writeText l hkey, .inl (by decide), uses_afterColon l hl,
      hv depth, ih hkeys hms⟩

/-- **A written value has only characters that its layout uses.** -/
theorem uses_write {v : Json} (hv : Regular v) (ht : l.KeepsAll v) (depth : Nat) :
    ∀ c ∈ write l depth v, l.Uses c := by
  have hascii (cs : List Char) (h : ∀ c ∈ cs, IsAscii c) : ∀ c ∈ cs, l.Uses c :=
    fun c hc => .inl (h c hc)
  induction hv generalizing depth with
  | null =>
    rw [write]
    exact hascii _ (isAscii_of_all rfl)
  | bool b =>
    cases b with
    | false | true =>
      rw [write]
      exact hascii _ (isAscii_of_all rfl)
  | int n =>
    rw [write]
    exact hascii _ (isAscii_writeInt n)
  | str s =>
    cases ht with
    | str hs =>
      rw [write]
      exact uses_writeText l hs
  | @arr vs _ ih =>
    cases ht with
    | arr hitems =>
      cases vs with
      | nil =>
        rw [write]
        exact hascii _ (isAscii_of_all rfl)
      | cons v vs =>
        have hall := fun v hmem => ih v hmem (hitems v hmem)
        obtain ⟨hv, hvs⟩ := List.forall_mem_cons.mp hall
        rw [write]
        simp only [List.append_assoc, List.cons_append, List.forall_mem_cons, List.forall_mem_append]
        exact ⟨.inl (by decide), uses_edge l _, hv _, uses_writeItems l hl hvs _, uses_edge l _,
          .inl (by decide), List.forall_mem_nil _⟩
  | @obj ms _ _ ih =>
    cases ht with
    | obj hk hvalues =>
      cases ms with
      | nil =>
        rw [write]
        exact hascii _ (isAscii_of_all rfl)
      | cons m ms =>
        obtain ⟨k, v⟩ := m
        have hall := fun m hmem => ih m hmem (hvalues m hmem)
        obtain ⟨hkey, hkeys⟩ := List.forall_mem_cons.mp hk
        obtain ⟨hv, hms⟩ := List.forall_mem_cons.mp hall
        rw [write]
        simp only [List.append_assoc, List.cons_append, List.forall_mem_cons, List.forall_mem_append]
        exact ⟨.inl (by decide), uses_edge l _, uses_writeText l hkey, .inl (by decide),
          uses_afterColon l hl, hv _, uses_writeMembers l hl hkeys hms _, uses_edge l _,
          .inl (by decide), List.forall_mem_nil _⟩

end

end OverloadTables.Json
