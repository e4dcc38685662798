import OverloadTables.Json.Reader
import OverloadTables.Proofs.Json.Token

/-!
# A written value is read as the value

* `Reads s ts s'`          the tokens `ts` take the reader from one state to another;
* `reads_tokens`           the tokens of a value complete it, inside of any open arrays and objects;
* `parseChars_write_blanks`, `parseChars_write`   a written value is read as the value, in every
                           layout that puts nothing but blanks between tokens;
* `parseLimited_write`     it is so too where integers have a limit, which those in it keep.
-/

namespace OverloadTables

namespace Members

/-- A new key goes to the end. -/
theorem set_new {k : LooseText} {ms : Members} (h : k ∉ ms.map Prod.fst) (v : Json) :
    ms.set k v = ms ++ [(k, v)] := by
  induction ms with
  | nil => rfl
  | cons m ms ih =>
    rw [List.map_cons, List.mem_cons, not_or] at h
    rw [Members.set, if_neg (Ne.symm h.1), ih h.2]
    rfl

theorem set_of_nodup {done ms : Members} {k : LooseText} {v : Json}
    (hk : ((done ++ (k, v) :: ms).map Prod.fst).Nodup) : done.set k v = done ++ [(k, v)] := by
  rw [List.map_append, List.nodup_append] at hk
  exact set_new (fun hmem => hk.2.2 k hmem k List.mem_cons_self rfl) v

end Members

namespace Json

/-! ## states -/

/-- The tokens take the reader from the state `s` to the state `s'`. -/
def Reads (s : State) (ts : List Token) (s' : State) : Prop := ts.foldlM step s = .ok s'

section
variable {s mid s' : State} {t : Token} {ts us : List Token}

theorem reads_cons (h : step s t = .ok mid) (hts : Reads mid ts s') : Reads s (t :: ts) s' := by
  unfold Reads at hts ⊢
  rw [List.foldlM_cons, h]
  exact hts

theorem Reads.trans (h : Reads s ts mid) (h' : Reads mid us s') : Reads s (ts ++ us) s' := by
  unfold Reads at h h' ⊢
  rw [List.foldlM_append, h]
  exact h'

/-- Lexemes that the reader takes in leave the fate of a text to the rest. -/
theorem run_append {ls : List Lexeme} (h : Reads s (ls.map (·.token)) s') (lastLine : Nat)
    (rest : List Lexeme) : run lastLine s (ls ++ rest) = run lastLine s' rest := by
  induction ls generalizing s with
  | nil =>
    obtain rfl := Except.ok.inj h
    rfl
  | cons l ls ih =>
    rw [List.cons_append, run]
    unfold Reads at h
    rw [List.map_cons, List.foldlM_cons] at h
    cases hstep : step s l.token with
    | error e =>
      rw [hstep] at h
      exact nomatch h
    | ok mid =>
      rw [hstep] at h
      exact ih h

end

/-! ## values -/

/-- The first token of a value closes no array. -/
theorem tokens_cons (v : Json) : ∃ t ts, tokens v = t :: ts ∧ t ≠ .closeBracket := by
  cases v with
  | null | bool _ | int _ | real _ | str _ =>
    rw [tokens]
    exact ⟨_, _, rfl, Token.noConfusion⟩
  | arr vs =>
    cases vs with
    | nil | cons _ _ =>
      rw [tokens]
      exact ⟨_, _, rfl, Token.noConfusion⟩
  | obj ms =>
    cases ms with
    | nil | cons _ _ =>
      rw [tokens]
      exact ⟨_, _, rfl, Token.noConfusion⟩

/-- What completes a value does so as the first item of an array too. -/
theorem Reads.first {v : Json} {stack : List Frame} {s' : State}
    (h : Reads ⟨.value, stack⟩ (tokens v) s') : Reads ⟨.firstItem, stack⟩ (tokens v) s' := by
  obtain ⟨t, ts, hcons, ht⟩ := tokens_cons v
  have hstep : step ⟨.firstItem, stack⟩ t = step ⟨.value, stack⟩ t := by
    cases t with
    | closeBracket => exact absurd rfl ht
    | _ => rfl
  unfold Reads at h ⊢
  rw [hcons, List.foldlM_cons] at h ⊢
  rw [hstep]
  exact h

/-- The tokens of a value complete it, whatever is open. -/
abbrev Completes (v : Json) : Prop :=
  ∀ stack, Reads ⟨.value, stack⟩ (tokens v) ⟨.after v, stack⟩

/-- The items behind `v`, and the end of their array. -/
theorem reads_items {vs : List Json} (h : ∀ v ∈ vs, Completes v) (v : Json) (done : List Json)
    (stack : List Frame) : Reads ⟨.after v, .items done :: stack⟩ (itemTokens vs ++ [.closeBracket])
      ⟨.after (.arr ((v :: done).reverse ++ vs)), stack⟩ := by
  induction vs generalizing v done with
  | nil =>
    rw [List.append_nil]
    exact reads_cons rfl rfl
  | cons w vs ih =>
    obtain ⟨hw, hvs⟩ := List.forall_mem_cons.mp h
    have hrest := ih hvs w (v :: done)
    rw [List.reverse_cons, List.append_assoc, List.singleton_append] at hrest
    rw [itemTokens, List.cons_append, List.append_assoc]
    exact reads_cons rfl ((hw _).trans hrest)

/-- The members behind `k`, and the end of their object. -/
theorem reads_members {ms : Members} (h : ∀ m ∈ ms, Completes m.2) (done : Members) (k : LooseText)
    (v : Json) (hk : ((done ++ (k, v) :: ms).map Prod.fst).Nodup) (stack : List Frame) :
    Reads ⟨.after v, .members done k :: stack⟩ (memberTokens ms ++ [.closeBrace])
      ⟨.after (.obj (done ++ (k, v) :: ms)), stack⟩ := by
  induction ms generalizing done k v with
  | nil =>
    have hset := Members.set_of_nodup hk
    have hstep : step ⟨.after v, .members done k :: stack⟩ .closeBrace =
        .ok ⟨.after (.obj (done.set k v)), stack⟩ := rfl
    refine reads_cons hstep ?_
    rw [hset]
    rfl
  | cons m ms ih =>
    obtain ⟨k', v'⟩ := m
    obtain ⟨hv', hms⟩ := List.forall_mem_cons.mp h
    have hset := Members.set_of_nodup hk
    have hrest := ih hms (done ++ [(k, v)]) k' v' (by rwa [List.append_assoc])
    rw [List.append_assoc, List.singleton_append] at hrest
    rw [memberTokens]
    simp only [List.cons_append, List.append_assoc]
    have hstep : step ⟨.after v, .members done k :: stack⟩ .comma =
        .ok ⟨.key (done.set k v), stack⟩ := rfl
    refine reads_cons hstep ?_
    rw [hset]
    exact reads_cons rfl (reads_cons rfl ((hv' _).trans hrest))

/-- **The tokens of a value complete it.** -/
theorem reads_tokens {v : Json} (hv : Regular v) : Completes v := by
  induction hv with
  | null | bool _ | int _ | str _ =>
    intro stack
    rw [tokens]
    exact reads_cons rfl rfl
  | @arr vs _ ih =>
    intro stack
    cases vs with
    | nil =>
      rw [tokens]
      exact reads_cons rfl (reads_cons rfl rfl)
    | cons v vs =>
      obtain ⟨hv, hvs⟩ := List.forall_mem_cons.mp ih
      rw [tokens]
      exact reads_cons rfl ((hv _).first.trans (reads_items hvs v [] stack))
  | @obj ms hk _ ih =>
    intro stack
    cases ms with
    | nil =>
      rw [tokens]
      exact reads_cons rfl (reads_cons rfl rfl)
    | cons m ms =>
      obtain ⟨k, v⟩ := m
      obtain ⟨hv, hms⟩ := List.forall_mem_cons.mp ih
      rw [tokens]
      exact reads_cons rfl (reads_cons rfl (reads_cons rfl
        ((hv _).trans (reads_members hms [] k v hk stack))))

/-! ## texts -/

/-- No value begins with a byte order mark. -/
theorem head?_write (l : Layout) (depth : Nat) {v : Json} (hv : Regular v) :
    (write l depth v).head? ≠ some '\uFEFF' := by
  have hother (c : Char) (hc : c ≠ '\uFEFF') (cs : List Char) : (c :: cs).head? ≠ some '\uFEFF' :=
    fun e => hc (Option.some.inj e)
  cases hv with
  | null =>
    rw [write]
    decide
  | bool b =>
    cases b with
    | false | true =>
      rw [write]
      decide
  | str s =>
    rw [write]
    exact hother _ (by decide) _
  | int n =>
    rw [write]
    cases n with
    | negSucc m => exact hother _ (by decide) _
    | ofNat m =>
      obtain ⟨c, ds, hcons, hc, -⟩ := toDigits_cons m
      show (Nat.toDigits 10 m).head? ≠ _
      rw [hcons]
      refine hother c ?_ ds
      rintro rfl
      exact absurd hc (by decide)
  | @arr vs _ =>
    cases vs with
    | nil | cons _ _ =>
      rw [write]
      exact hother _ (by decide) _
  | @obj ms _ _ =>
    cases ms with
    | nil | cons _ _ =>
      rw [write]
      exact hother _ (by decide) _

theorem parseChars_eq {cs : List Char} (h : cs.head? ≠ some '\uFEFF') :
    parseChars cs = readTokens (cs.count '\n' + 1) (lexemes cs) := by
  unfold parseChars
  split
  · exact absurd rfl h
  · rfl

theorem parseLimited_eq {cs : List Char} (h : cs.head? ≠ some '\uFEFF') :
    parseLimited cs = readTokens (cs.count '\n' + 1) ((lexemes cs).map Lexeme.limited) := by
  unfold parseLimited
  split
  · exact absurd rfl h
  · rfl

/-- Lexemes with the tokens of a value are read as the value. -/
theorem readTokens_tokens {v : Json} (hv : Regular v) {ls : List Lexeme}
    (h : ls.map (·.token) = tokens v) (lastLine : Nat) : readTokens lastLine ls = .ok v := by
  have hreads : Reads ⟨.value, []⟩ (ls.map (·.token)) ⟨.after v, []⟩ := h ▸ reads_tokens hv []
  have hrun := run_append hreads lastLine []
  rw [List.append_nil] at hrun
  rw [readTokens, hrun]
  rfl

section
variable {l : Layout} (hl : l.Spaced) {v : Json} (hv : Regular v) (ht : l.KeepsAll v)
  {blanks : List Char} (hblanks : ∀ c ∈ blanks, c = ' ' ∨ c = '\n')
include hv hblanks

theorem head?_write_blanks : (write l 0 v ++ blanks).head? ≠ some '\uFEFF' := by
  cases hw : write l 0 v with
  | nil =>
    intro hmark
    rcases hblanks _ (List.mem_of_mem_head? hmark) with h | h <;> exact absurd h (by decide)
  | cons c cs =>
    have hfirst := head?_write l 0 hv
    rw [hw] at hfirst
    exact hfirst

include hl ht

theorem lexemes_write_blanks :
    (lexemes (write l 0 v ++ blanks)).map (·.token) = tokens v := by
  have hclosed : Closed blanks := fun c hc =>
    .inr (.inr (.inr (hblanks c (List.mem_of_mem_head? hc))))
  have hrest : Cuts (blanks ++ []) [] [] := cuts_blanks (fun c hc => isBlank_of (hblanks c hc)) []
  rw [List.append_nil] at hrest
  obtain ⟨fuel, line, ls, -, hls, hlex⟩ := ((cuts_write l hl hv ht 0 blanks hclosed).trans hrest)
    (write l 0 v ++ blanks).length 1 (Nat.le_refl _)
  have hnone : lexemesFrom fuel line [] = [] := by
    cases fuel <;> rfl
  rw [lexemes, hlex, hnone, List.append_nil, hls, List.append_nil]

/-- **A written value is read as the value**, also with blanks behind it. -/
theorem parseChars_write_blanks : parseChars (write l 0 v ++ blanks) = .ok v := by
  rw [parseChars_eq (head?_write_blanks hv hblanks)]
  exact readTokens_tokens hv (lexemes_write_blanks hl hv ht hblanks) _

end

theorem parseChars_write {l : Layout} (hl : l.Spaced) {v : Json} (hv : Regular v)
    (ht : l.KeepsAll v) : parseChars (write l 0 v) = .ok v := by
  have hread := parseChars_write_blanks hl hv ht (List.forall_mem_nil fun c => c = ' ' ∨ c = '\n')
  rwa [List.append_nil] at hread

/-! ## the limit of integers -/

section
variable {P : LooseText → Prop}

theorem limited_itemTokens {vs : List Json}
    (h : ∀ v ∈ vs, (tokens v).map Token.limited = tokens v) :
    (itemTokens vs).map Token.limited = itemTokens vs := by
  induction vs with
  | nil => rfl
  | cons v vs ih =>
    obtain ⟨hv, hvs⟩ := List.forall_mem_cons.mp h
    rw [itemTokens, List.map_cons, List.map_append, hv, ih hvs]
    rfl

theorem limited_memberTokens {ms : Members}
    (h : ∀ m ∈ ms, (tokens m.2).map Token.limited = tokens m.2) :
    (memberTokens ms).map Token.limited = memberTokens ms := by
  induction ms with
  | nil => rfl
  | cons m ms ih =>
    obtain ⟨k, v⟩ := m
    obtain ⟨hv, hms⟩ := List.forall_mem_cons.mp h
    rw [memberTokens, List.map_cons, List.map_cons, List.map_cons, List.map_append, hv, ih hms]
    rfl

/-- The tokens of a value are read under the limit if its integers keep it. -/
theorem limited_tokens {v : Json} (hv : All P (fun n => Text.withinLimit n = true) v) :
    (tokens v).map Token.limited = tokens v := by
  induction hv with
  | null | bool _ | real _ | str _ =>
    rw [tokens]
    rfl
  | int h =>
    rw [tokens, List.map_singleton, Token.limited, if_pos h]
  | @arr vs _ ih =>
    cases vs with
    | nil =>
      rw [tokens]
      rfl
    | cons v vs =>
      obtain ⟨hv, hvs⟩ := List.forall_mem_cons.mp ih
      rw [tokens, List.map_cons, List.map_append, List.map_append, hv, limited_itemTokens hvs]
      rfl
  | @obj ms _ _ ih =>
    cases ms with
    | nil =>
      rw [tokens]
      rfl
    | cons m ms =>
      obtain ⟨k, v⟩ := m
      obtain ⟨hv, hms⟩ := List.forall_mem_cons.mp ih
      rw [tokens, List.map_cons, List.map_cons, List.map_cons, List.map_append, List.map_append, hv,
        limited_memberTokens hms]
      rfl

end

theorem parseLimited_write {l : Layout} (hl : l.Spaced) {v : Json} (hv : Regular v)
    (ht : l.KeepsAll v) {P : LooseText → Prop}
    (hn : All P (fun n => Text.withinLimit n = true) v) :
    parseLimited (write l 0 v) = .ok v := by
  have hblanks := List.forall_mem_nil fun c => c = ' ' ∨ c = '\n'
  have hhead := head?_write_blanks (l := l) hv hblanks
  have hlexemes := lexemes_write_blanks hl hv ht hblanks
  rw [List.append_nil] at hhead hlexemes
  rw [parseLimited_eq hhead]
  refine readTokens_tokens hv ?_ _
  rw [List.map_map]
  show (lexemes _).map (Token.limited ∘ Lexeme.token) = _
  rw [← List.map_map, hlexemes, limited_tokens hn]

end Json
end OverloadTables
