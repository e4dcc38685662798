import OverloadTables.Proofs.Json.Text

/-!
# Written values are cut into their tokens

* `Regular v`              no decimals, and no object with a key twice;
* `All P Q v`              every text of a value, keys included, has the property `P`, and every
                           integer the property `Q`;
* `Layout.KeepsAll l v`    a layout writes every text of a value so that it can be read back;
* `Cuts cs ts rest`        the text `cs` is cut into the tokens `ts` in front of `rest`;
* `tokens v`               the tokens of a value;
* `Layout.Spaced l`        nothing but blanks between the tokens of a layout;
* `cuts_write`             a written value is cut into its tokens, in every such layout.
-/

namespace OverloadTables.Json

/-- A value without decimals, whose objects have every key once. -/
inductive Regular : Json → Prop where
  | null : Regular .null
  | bool (b : Bool) : Regular (.bool b)
  | int (n : Int) : Regular (.int n)
  | str (s : LooseText) : Regular (.str s)
  | arr {vs : List Json} (h : ∀ v ∈ vs, Regular v) : Regular (.arr vs)
  | obj {ms : Members} (hk : (ms.map Prod.fst).Nodup) (h : ∀ m ∈ ms, Regular m.2) :
      Regular (.obj ms)

/-- Every text of the value, keys included, has the property `P`, and every integer has `Q`. -/
inductive All (P : LooseText → Prop) (Q : Int → Prop) : Json → Prop where
  | null : All P Q .null
  | bool (b : Bool) : All P Q (.bool b)
  | int {n : Int} (h : Q n) : All P Q (.int n)
  | real (x : Decimal) : All P Q (.real x)
  | str {t : LooseText} (h : P t) : All P Q (.str t)
  | arr {vs : List Json} (h : ∀ v ∈ vs, All P Q v) : All P Q (.arr vs)
  | obj {ms : Members} (hk : ∀ m ∈ ms, P m.1) (h : ∀ m ∈ ms, All P Q m.2) : All P Q (.obj ms)

theorem All.imp {P P' : LooseText → Prop} {Q Q' : Int → Prop} (hP : ∀ t, P t → P' t)
    (hQ : ∀ n, Q n → Q' n) {v : Json} (h : All P Q v) : All P' Q' v := by
  induction h with
  | null => exact .null
  | bool b => exact .bool b
  | int h => exact .int (hQ _ h)
  | real x => exact .real x
  | str h => exact .str (hP _ h)
  | arr _ ih => exact .arr ih
  | obj hk _ ih => exact .obj (fun m hm => hP _ (hk m hm)) ih

section
variable {P : LooseText → Prop} {Q : Int → Prop} {v : Json} {vs : List Json} {ms : Members}

theorem all_arr : All P Q (.arr vs) ↔ ∀ v ∈ vs, All P Q v :=
  ⟨fun h => by cases h with | arr h => exact h, .arr⟩

theorem all_obj : All P Q (.obj ms) ↔ (∀ m ∈ ms, P m.1) ∧ ∀ m ∈ ms, All P Q m.2 :=
  ⟨fun h => by cases h with | obj hk h => exact ⟨hk, h⟩, fun h => .obj h.1 h.2⟩

theorem all_nil : All P Q (.obj []) ↔ True := iff_true_intro (.obj nofun nofun)

theorem all_cons {k : LooseText} :
    All P Q (.obj ((k, v) :: ms)) ↔ P k ∧ All P Q v ∧ All P Q (.obj ms) := by
  rw [all_obj, all_obj, List.forall_mem_cons, List.forall_mem_cons, and_and_and_comm, and_assoc]

theorem all_append {ns : Members} :
    All P Q (.obj (ms ++ ns)) ↔ All P Q (.obj ms) ∧ All P Q (.obj ns) := by
  rw [all_obj, all_obj, all_obj, List.forall_mem_append, List.forall_mem_append, and_and_and_comm]

theorem all_bool {b : Bool} : All P Q (.bool b) ↔ True := iff_true_intro (.bool b)

theorem all_int {n : Int} : All P Q (.int n) ↔ Q n :=
  ⟨fun h => by cases h with | int h => exact h, .int⟩

theorem all_str {t : LooseText} : All P Q (.str t) ↔ P t :=
  ⟨fun h => by cases h with | str h => exact h, .str⟩

theorem all_and {P' : LooseText → Prop} {Q' : Int → Prop} :
    All (fun t => P t ∧ P' t) (fun n => Q n ∧ Q' n) v ↔ All P Q v ∧ All P' Q' v := by
  refine ⟨fun h => ⟨h.imp (fun _ => And.left) fun _ => And.left,
    h.imp (fun _ => And.right) fun _ => And.right⟩, ?_⟩
  rintro ⟨h, h'⟩
  induction h with
  | null => exact .null
  | bool b => exact .bool b
  | int h => exact .int ⟨h, all_int.mp h'⟩
  | real x => exact .real x
  | str h => exact .str ⟨h, all_str.mp h'⟩
  | arr _ ih => exact .arr fun v hv => ih v hv (all_arr.mp h' v hv)
  | obj hk _ ih =>
    obtain ⟨hk', h'⟩ := all_obj.mp h'
    exact .obj (fun m hm => ⟨hk m hm, hk' m hm⟩) fun m hm => ih m hm (h' m hm)

end

/-- A layout writes every text of the value so that it can be read back. -/
abbrev Layout.KeepsAll (l : Layout) (v : Json) : Prop := All l.Keeps (fun _ => True) v

/-! ## tokens of a text -/

/-- From any line on, the text is cut into the tokens `ts`, and then as `rest` is. -/
def Cuts (cs : List Char) (ts : List Token) (rest : List Char) : Prop :=
  ∀ fuel line, cs.length ≤ fuel → ∃ fuel' line' ls, rest.length ≤ fuel' ∧
    ls.map (·.token) = ts ∧ lexemesFrom fuel line cs = ls ++ lexemesFrom fuel' line' rest

section
variable {cs mid rest r : List Char} {ts us : List Token} {t : Token} {c : Char}

theorem cuts_refl (cs : List Char) : Cuts cs [] cs :=
  fun fuel line h => ⟨fuel, line, [], h, rfl, rfl⟩

theorem Cuts.trans (h : Cuts cs ts mid) (h' : Cuts mid us rest) : Cuts cs (ts ++ us) rest := by
  intro fuel line hfuel
  obtain ⟨fuel₁, line₁, ls, hfuel₁, rfl, hls⟩ := h fuel line hfuel
  obtain ⟨fuel₂, line₂, ms, hfuel₂, rfl, hms⟩ := h' fuel₁ line₁ hfuel₁
  refine ⟨fuel₂, line₂, ls ++ ms, hfuel₂, List.map_append, ?_⟩
  rw [hls, hms, List.append_assoc]

theorem cuts_blank (hc : isBlank c = true) (rest : List Char) : Cuts (c :: rest) [] rest := by
  intro fuel line hfuel
  cases fuel with
  | zero => exact absurd hfuel (Nat.not_succ_le_zero _)
  | succ fuel =>
    refine ⟨fuel, if c = '\n' then line + 1 else line, [], Nat.le_of_succ_le_succ hfuel, rfl, ?_⟩
    rw [lexemesFrom, if_pos hc]
    rfl

theorem cuts_blanks {bs : List Char} (h : ∀ c ∈ bs, isBlank c = true) (rest : List Char) :
    Cuts (bs ++ rest) [] rest := by
  induction bs with
  | nil => exact cuts_refl rest
  | cons c bs ih =>
    obtain ⟨hc, hbs⟩ := List.forall_mem_cons.mp h
    exact (cuts_blank hc _).trans (ih hbs)

/-- One token, with at least one character of its own. -/
theorem cuts_token (hc : isBlank c = false) (ht : tokenAt c r = (t, rest)) (hr : rest <:+ r) :
    Cuts (c :: r) [t] rest := by
  intro fuel line hfuel
  cases fuel with
  | zero => exact absurd hfuel (Nat.not_succ_le_zero _)
  | succ fuel =>
    have hshorter : rest.length ≤ fuel :=
      Nat.le_trans hr.length_le (Nat.le_of_succ_le_succ hfuel)
    refine ⟨fuel, line, [⟨line, t⟩], hshorter, rfl, ?_⟩
    rw [lexemesFrom, if_neg (by rw [hc]; exact Bool.false_ne_true), ht]
    rfl

end

/-! ## strings and numbers -/

/-- What may stand behind a number. -/
def Closed (rest : List Char) : Prop :=
  ∀ c ∈ rest.head?, c = ',' ∨ c = ']' ∨ c = '}' ∨ c = ' ' ∨ c = '\n'

theorem closed_cons {c : Char} (h : c = ',' ∨ c = ']' ∨ c = '}' ∨ c = ' ' ∨ c = '\n')
    (rest : List Char) : Closed (c :: rest) := by
  intro d hd
  obtain rfl := Option.some.inj hd
  exact h

theorem tokenAt_quote {r rest : List Char} {ps : List Piece} (h : scanText r = .ok (ps, rest)) :
    tokenAt '"' r = (.text (.ofPoints (joinPieces ps)), rest) := by
  rw [tokenAt, h]

theorem cuts_text {l : Layout} {t : LooseText} (ht : l.Keeps t) (rest : List Char) :
    Cuts (writeText l.ascii t ++ rest) [.text t] rest := by
  obtain ⟨ps, hscan, hjoin⟩ := scanText_written ht.writes ht.apart rest
  have htext : writeText l.ascii t ++ rest
      = '"' :: (t.points.flatMap (writePoint l.ascii) ++ '"' :: rest) := by
    rw [writeText, List.cons_append, List.cons_append, List.append_assoc]
    rfl
  rw [htext]
  apply cuts_token rfl
  · rw [tokenAt_quote hscan, hjoin, LooseText.ofPoints_points]
  · exact (List.suffix_cons '"' rest).trans (List.suffix_append _ _)

/-- The digits of a number: at least one, and no zero in front of others. -/
theorem toDigits_cons (n : Nat) : ∃ c ds, Nat.toDigits 10 n = c :: ds ∧ c.isDigit = true ∧
    (∀ d ∈ ds, d.isDigit = true) ∧ (c = '0' → ds = []) := by
  have hall : ∀ d ∈ Nat.toDigits 10 n, d.isDigit = true :=
    fun d hd => Nat.isDigit_of_mem_toDigits (by omega) (by omega) hd
  suffices h : ∃ c ds, Nat.toDigits 10 n = c :: ds ∧ (c = '0' → ds = [] ∧ n = 0) by
    obtain ⟨c, ds, hcons, hzero⟩ := h
    rw [hcons] at hall
    obtain ⟨hc, hds⟩ := List.forall_mem_cons.mp hall
    exact ⟨c, ds, hcons, hc, hds, fun e => (hzero e).1⟩
  clear hall
  induction n using Nat.strongRecOn with
  | ind n ih =>
    by_cases hlt : n < 10
    · have hdigit : ∀ d < 10, Nat.digitChar d = '0' → d = 0 := by decide
      rw [Nat.toDigits_of_lt_base hlt]
      exact ⟨_, [], rfl, fun e => ⟨rfl, hdigit n hlt e⟩⟩
    · obtain ⟨c, ds, hcons, hzero⟩ := ih (n / 10) (by omega)
      rw [Nat.toDigits_of_base_le (by omega) (Nat.le_of_not_lt hlt), hcons]
      refine ⟨c, _, rfl, fun e => ?_⟩
      have hquotient := (hzero e).2
      omega

section
variable {rest : List Char} (hrest : Closed rest)
include hrest

theorem Closed.takeWhile : rest.takeWhile Char.isDigit = [] := by
  cases rest with
  | nil => rfl
  | cons c rest => rcases hrest c rfl with rfl | rfl | rfl | rfl | rfl <;> rfl

theorem Closed.dropWhile : rest.dropWhile Char.isDigit = rest := by
  cases rest with
  | nil => rfl
  | cons c rest => rcases hrest c rfl with rfl | rfl | rfl | rfl | rfl <;> rfl

/-- Digits with no fraction and no exponent behind them are an integer. -/
theorem scanNumberTail_closed (negative : Bool) (digits : List Char) :
    scanNumberTail negative digits rest
      = (.int (if negative then -(Nat.ofDigitChars 10 digits 0 : Int)
          else Nat.ofDigitChars 10 digits 0), rest) := by
  have hfraction : scanFraction rest = ([], rest) := by
    cases rest with
    | nil => rfl
    | cons c rest => rcases hrest c rfl with rfl | rfl | rfl | rfl | rfl <;> rfl
  have hexponent : scanExponent rest = none := by
    cases rest with
    | nil => rfl
    | cons c rest => rcases hrest c rfl with rfl | rfl | rfl | rfl | rfl <;> rfl
  unfold scanNumberTail
  rw [hfraction]
  dsimp only
  rw [hexponent, List.append_nil]
  rfl

theorem scanNumber_toDigits (negative : Bool) (n : Nat) :
    scanNumber negative (Nat.toDigits 10 n ++ rest)
      = some (.int (if negative then -(n : Int) else n), rest) := by
  have hvalue : Nat.ofDigitChars 10 (Nat.toDigits 10 n) 0 = n := Nat.ofDigitChars_ten_toDigits
  obtain ⟨c, ds, hcons, hc, hds, hzero⟩ := toDigits_cons n
  rw [hcons] at hvalue ⊢
  by_cases h0 : c = '0'
  · rw [hzero h0] at hvalue ⊢
    rw [List.cons_append, List.nil_append, scanNumber, if_pos h0, scanNumberTail_closed hrest,
      hvalue]
  · rw [List.cons_append, scanNumber, if_neg h0, if_pos hc, List.takeWhile_append_of_pos hds,
      List.dropWhile_append_of_pos hds, hrest.takeWhile, hrest.dropWhile, List.append_nil,
      scanNumberTail_closed hrest, hvalue]

end

theorem tokenAt_digit {c : Char} (hc : c.isDigit = true) (r : List Char) :
    tokenAt c r = numberToken false (c :: r) := by
  unfold tokenAt
  split <;> first | rfl | exact absurd hc (by decide)

theorem tokenAt_minus {c : Char} (hc : c.isDigit = true) (r : List Char) :
    tokenAt '-' (c :: r) = numberToken true (c :: r) := by
  have hI : c ≠ 'I' := by
    rintro rfl
    exact absurd hc (by decide)
  rw [tokenAt]
  intro r' e
  exact hI (List.cons.inj e).1

theorem isBlank_digit {c : Char} (hc : c.isDigit = true) : isBlank c = false := by
  rw [Bool.eq_false_iff]
  intro h
  simp only [isBlank, Bool.or_eq_true, decide_eq_true_eq] at h
  rcases h with ((rfl | rfl) | rfl) | rfl <;> exact absurd hc (by decide)

theorem cuts_int (n : Int) {rest : List Char} (hrest : Closed rest) :
    Cuts (writeInt n ++ rest) [.scalar (.int n)] rest := by
  cases n with
  | ofNat m =>
    obtain ⟨c, ds, hcons, hc, -⟩ := toDigits_cons m
    have hscan := scanNumber_toDigits hrest false m
    rw [hcons, List.cons_append] at hscan
    show Cuts (Nat.toDigits 10 m ++ rest) _ _
    rw [hcons, List.cons_append]
    apply cuts_token (isBlank_digit hc)
    · rw [tokenAt_digit hc, numberToken, hscan]
      rfl
    · exact List.suffix_append ds rest
  | negSucc m =>
    obtain ⟨c, ds, hcons, hc, -⟩ := toDigits_cons (m + 1)
    have hscan := scanNumber_toDigits hrest true (m + 1)
    rw [hcons, List.cons_append] at hscan
    show Cuts ('-' :: (Nat.toDigits 10 (m + 1) ++ rest)) _ _
    rw [hcons, List.cons_append]
    apply cuts_token rfl
    · rw [tokenAt_minus hc, numberToken, hscan]
      rfl
    · exact List.suffix_append (c :: ds) rest

/-! ## values -/

mutual

/-- The tokens of a value. -/
def tokens : Json → List Token
  | .null => [.scalar .null]
  | .bool b => [.scalar (.bool b)]
  | .int n => [.scalar (.int n)]
  | .real x => [.scalar (.real x)]
  | .str s => [.text s]
  | .arr [] => [.openBracket, .closeBracket]
  | .arr (v :: vs) => .openBracket :: (tokens v ++ (itemTokens vs ++ [.closeBracket]))
  | .obj [] => [.openBrace, .closeBrace]
  | .obj ((k, v) :: ms) =>
    .openBrace :: .text k :: .colon :: (tokens v ++ (memberTokens ms ++ [.closeBrace]))

/-- The tokens of further items, each behind a comma. -/
def itemTokens : List Json → List Token
  | [] => []
  | v :: vs => .comma :: (tokens v ++ itemTokens vs)

def memberTokens : List (LooseText × Json) → List Token
  | [] => []
  | (k, v) :: ms => .comma :: .text k :: .colon :: (tokens v ++ memberTokens ms)

end

/-- Nothing but blanks behind commas and colons. -/
def Layout.Spaced (l : Layout) : Prop := ∀ c ∈ l.afterComma ++ l.afterColon, c = ' '

instance (l : Layout) : Decidable l.Spaced :=
  List.decidableBAll (fun c => c = ' ') (l.afterComma ++ l.afterColon)

theorem Layout.edge_blank (l : Layout) (depth : Nat) : ∀ c ∈ l.edge depth, c = ' ' ∨ c = '\n' := by
  intro c hc
  unfold edge at hc
  cases hi : l.indent with
  | none =>
    rw [hi] at hc
    exact absurd hc List.not_mem_nil
  | some n =>
    rw [hi] at hc
    rcases List.mem_cons.mp hc with rfl | hc
    · exact .inr rfl
    · exact .inl (List.eq_of_mem_replicate hc)

theorem isBlank_of {c : Char} (h : c = ' ' ∨ c = '\n') : isBlank c = true := by
  rcases h with rfl | rfl <;> rfl

theorem closed_edge (l : Layout) (depth : Nat) {rest : List Char} (h : Closed rest) :
    Closed (l.edge depth ++ rest) := by
  intro c hc
  cases he : l.edge depth with
  | nil =>
    rw [he] at hc
    exact h c hc
  | cons d ds =>
    rw [he] at hc
    obtain rfl := Option.some.inj hc
    have hblank := l.edge_blank depth d (by rw [he]; exact List.mem_cons_self)
    exact .inr (.inr (.inr hblank))

section
variable (l : Layout) (hl : l.Spaced)

theorem cuts_edge (depth : Nat) (rest : List Char) : Cuts (l.edge depth ++ rest) [] rest :=
  cuts_blanks (fun c hc => isBlank_of (l.edge_blank depth c hc)) rest

theorem closed_writeItems (depth : Nat) (vs : List Json) {rest : List Char} (h : Closed rest) :
    Closed (writeItems l depth vs ++ rest) := by
  cases vs with
  | nil => exact h
  | cons v vs => exact closed_cons (.inl rfl) _

theorem closed_writeMembers (depth : Nat) (ms : Members) {rest : List Char} (h : Closed rest) :
    Closed (writeMembers l depth ms ++ rest) := by
  cases ms with
  | nil => exact h
  | cons m ms => exact closed_cons (.inl rfl) _

include hl

theorem cuts_between (depth : Nat) (rest : List Char) :
    Cuts (l.between depth ++ rest) [.comma] rest := by
  have hcomma : ∀ c ∈ l.afterComma, isBlank c = true :=
    fun c hc => isBlank_of (.inl (hl c (List.mem_append_left _ hc)))
  have htext : l.between depth ++ rest = ',' :: (l.afterComma ++ (l.edge depth ++ rest)) := by
    rw [Layout.between, List.cons_append, List.cons_append, List.append_assoc]
  rw [htext]
  have hfirst : Cuts (',' :: (l.afterComma ++ (l.edge depth ++ rest))) [.comma]
      (l.afterComma ++ (l.edge depth ++ rest)) := cuts_token rfl rfl (List.suffix_refl _)
  exact hfirst.trans ((cuts_blanks hcomma _).trans (cuts_edge l depth rest))

/-- A key with its colon. -/
theorem cuts_key {k : LooseText} (hk : l.Keeps k) (rest : List Char) :
    Cuts (writeText l.ascii k ++ ':' :: (l.afterColon ++ rest)) [.text k, .colon] rest := by
  have hcolon : ∀ c ∈ l.afterColon, isBlank c = true :=
    fun c hc => isBlank_of (.inl (hl c (List.mem_append_right _ hc)))
  have hsecond : Cuts (':' :: (l.afterColon ++ rest)) [.colon] (l.afterColon ++ rest) :=
    cuts_token rfl rfl (List.suffix_refl _)
  exact (cuts_text hk _).trans (hsecond.trans (cuts_blanks hcolon rest))

/-- What a value is, once its parts are cut into their tokens. -/
abbrev CutsWritten (v : Json) : Prop :=
  ∀ depth rest, Closed rest → Cuts (write l depth v ++ rest) (tokens v) rest

theorem cuts_writeItems {vs : List Json} (h : ∀ v ∈ vs, CutsWritten l v) (depth : Nat)
    {rest : List Char} (hrest : Closed rest) :
    Cuts (writeItems l depth vs ++ rest) (itemTokens vs) rest := by
  induction vs with
  | nil => exact cuts_refl rest
  | cons v vs ih =>
    obtain ⟨hv, hvs⟩ := List.forall_mem_cons.mp h
    rw [writeItems, itemTokens, List.append_assoc, List.append_assoc]
    have hvalue := hv depth _ (closed_writeItems l depth vs hrest)
    exact (cuts_between l hl depth _).trans (hvalue.trans (ih hvs))

theorem cuts_writeMembers {ms : Members} (hk : ∀ m ∈ ms, l.Keeps m.1)
    (h : ∀ m ∈ ms, CutsWritten l m.2) (depth : Nat) {rest : List Char}
    (hrest : Closed rest) : Cuts (writeMembers l depth ms ++ rest) (memberTokens ms) rest := by
  induction ms with
  | nil => exact cuts_refl rest
  | cons m ms ih =>
    obtain ⟨k, v⟩ := m
    obtain ⟨hkey, hkeys⟩ := List.forall_mem_cons.mp hk
    obtain ⟨hv, hms⟩ := List.forall_mem_cons.mp h
    have hvalue := hv depth _ (closed_writeMembers l depth ms hrest)
    have htext : writeMembers l depth ((k, v) :: ms) ++ rest
        = l.between depth ++ (writeText l.ascii k ++ ':' :: (l.afterColon
          ++ (write l depth v ++ (writeMembers l depth ms ++ rest)))) := by
      rw [writeMembers]
      simp only [List.append_assoc, List.cons_append]
    rw [htext, memberTokens]
    exact (cuts_between l hl depth _).trans
      ((cuts_key l hl hkey _).trans (hvalue.trans (ih hkeys hms)))

theorem cuts_array {vs : List Json} (h : ∀ v ∈ vs, CutsWritten l v) : CutsWritten l (.arr vs) := by
  intro depth rest hrest
  have hclose : Cuts (']' :: rest) [.closeBracket] rest := cuts_token rfl rfl (List.suffix_refl _)
  have hclosed : Closed (l.edge depth ++ ']' :: rest) :=
    closed_edge l depth (closed_cons (.inr (.inl rfl)) rest)
  cases vs with
  | nil =>
    have hopen : Cuts ('[' :: ']' :: rest) [.openBracket] (']' :: rest) :=
      cuts_token rfl rfl (List.suffix_refl _)
    exact hopen.trans hclose
  | cons v vs =>
    obtain ⟨hv, hvs⟩ := List.forall_mem_cons.mp h
    have htext : write l depth (.arr (v :: vs)) ++ rest
        = '[' :: (l.edge (depth + 1) ++ (write l (depth + 1) v
          ++ (writeItems l (depth + 1) vs ++ (l.edge depth ++ ']' :: rest)))) := by
      rw [write]
      simp only [List.append_assoc, List.cons_append, List.nil_append]
    rw [htext, tokens]
    have hopen := cuts_token (c := '[') rfl rfl (List.suffix_refl (l.edge (depth + 1)
      ++ (write l (depth + 1) v
        ++ (writeItems l (depth + 1) vs ++ (l.edge depth ++ ']' :: rest)))))
    have hvalue := hv (depth + 1) _ (closed_writeItems l (depth + 1) vs hclosed)
    have hitems := cuts_writeItems l hl hvs (depth + 1) hclosed
    exact hopen.trans ((cuts_edge l (depth + 1) _).trans
      (hvalue.trans (hitems.trans ((cuts_edge l depth _).trans hclose))))

theorem cuts_object {ms : Members} (hk : ∀ m ∈ ms, l.Keeps m.1)
    (h : ∀ m ∈ ms, CutsWritten l m.2) : CutsWritten l (.obj ms) := by
  intro depth rest hrest
  have hclose : Cuts ('}' :: rest) [.closeBrace] rest := cuts_token rfl rfl (List.suffix_refl _)
  have hclosed : Closed (l.edge depth ++ '}' :: rest) :=
    closed_edge l depth (closed_cons (.inr (.inr (.inl rfl))) rest)
  cases ms with
  | nil =>
    have hopen : Cuts ('{' :: '}' :: rest) [.openBrace] ('}' :: rest) :=
      cuts_token rfl rfl (List.suffix_refl _)
    exact hopen.trans hclose
  | cons m ms =>
    obtain ⟨k, v⟩ := m
    obtain ⟨hkey, hkeys⟩ := List.forall_mem_cons.mp hk
    obtain ⟨hv, hms⟩ := List.forall_mem_cons.mp h
    have htext : write l depth (.obj ((k, v) :: ms)) ++ rest
        = '{' :: (l.edge (depth + 1) ++ (writeText l.ascii k ++ ':' :: (l.afterColon
          ++ (write l (depth + 1) v
            ++ (writeMembers l (depth + 1) ms ++ (l.edge depth ++ '}' :: rest)))))) := by
      rw [write]
      simp only [List.append_assoc, List.cons_append, List.nil_append]
    rw [htext, tokens]
    have hopen := cuts_token (c := '{') rfl rfl (List.suffix_refl (l.edge (depth + 1)
      ++ (writeText l.ascii k ++ ':' :: (l.afterColon ++ (write l (depth + 1) v
        ++ (writeMembers l (depth + 1) ms ++ (l.edge depth ++ '}' :: rest)))))))
    have hvalue := hv (depth + 1) _ (closed_writeMembers l (depth + 1) ms hclosed)
    have hmembers := cuts_writeMembers l hl hkeys hms (depth + 1) hclosed
    exact hopen.trans ((cuts_edge l (depth + 1) _).trans ((cuts_key l hl hkey _).trans
      (hvalue.trans (hmembers.trans ((cuts_edge l depth _).trans hclose)))))

/-- **A written value is cut into its tokens.** -/
theorem cuts_write {v : Json} (hv : Regular v) (ht : l.KeepsAll v) : CutsWritten l v := by
  induction hv with
  | null =>
    intro depth rest _
    exact cuts_token rfl rfl (List.suffix_append "ull".toList rest)
  | bool b =>
    intro depth rest _
    cases b with
    | false => exact cuts_token rfl rfl (List.suffix_append "alse".toList rest)
    | true => exact cuts_token rfl rfl (List.suffix_append "rue".toList rest)
  | int n =>
    intro depth rest hrest
    rw [write, tokens]
    exact cuts_int n hrest
  | str s =>
    intro depth rest _
    cases ht with
    | str hs =>
      rw [write, tokens]
      exact cuts_text hs rest
  | arr _ ih =>
    cases ht with
    | arr hvs => exact cuts_array l hl fun v hmem => ih v hmem (hvs v hmem)
  | obj _ _ ih =>
    cases ht with
    | obj hk hvs => exact cuts_object l hl hk fun m hmem => ih m hmem (hvs m hmem)

end

end OverloadTables.Json
