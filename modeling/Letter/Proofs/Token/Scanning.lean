import Letter.Proofs.Token.Lexeme

namespace Letter

namespace Piece

variable {cs : List Char}

theorem cut_induction {motive : List Char → Prop}
    (stuck : ∀ cs, first? cs = none → motive cs)
    (piece : ∀ cs piece rest, first? cs = some (piece, rest) → motive rest → motive cs)
    (cs : List Char) : motive cs := by
  induction hlength : cs.length using Nat.strongRecOn generalizing cs with
  | ind length ih =>
      cases hfirst : first? cs with
      | none => exact stuck cs hfirst
      | some result =>
          obtain ⟨p, rest⟩ := result
          have hlt := length_lt_of_first? hfirst
          exact piece cs p rest hfirst (ih rest.length (hlength ▸ hlt) rest rfl)

theorem first?_cut (cs : List Char) : first? (cut cs).2 = none := by
  induction cs using cut_induction with
  | stuck cs hfirst => rwa [cut_of_first?_eq_none hfirst]
  | piece cs piece rest hfirst ih => rwa [cut_of_first?_eq_some hfirst]

theorem genuine_of_cut (h : (cut cs).2 = []) :
    ∀ t ∈ (cut cs).1.filterMap terminal?, t.Genuine := by
  induction cs using cut_induction with
  | stuck cs hfirst =>
      rw [cut_of_first?_eq_none hfirst]
      nofun
  | piece cs piece rest hfirst ih =>
      rw [cut_of_first?_eq_some hfirst] at h ⊢
      intro t ht
      obtain ⟨p, hp, hpt⟩ := List.mem_filterMap.mp ht
      rcases List.mem_cons.mp hp with rfl | hp
      · refine genuine_of_first? hfirst hpt fun c hc hword => ?_
        rcases rest with _ | ⟨c', rest⟩
        · cases hc
        · obtain rfl : c' = c := Option.some.inj hc
          cases hname : Text.isNameCharacter c' with
          | true => rfl
          | false =>
              rw [cut_of_first?_eq_none (first?_of_isWordCharacter hword hname)] at h
              cases h
      · exact ih h t (List.mem_filterMap.mpr ⟨p, hp, hpt⟩)

theorem forall_terminal_of_cut {P : Terminal → Prop} (h : ∀ {cs rest piece t},
    first? cs = some (piece, rest) → piece.terminal? = some t → P t) (cs : List Char) :
    ∀ t ∈ (cut cs).1.filterMap terminal?, P t := by
  induction cs using cut_induction with
  | stuck cs hfirst =>
      rw [cut_of_first?_eq_none hfirst]
      nofun
  | piece cs piece rest hfirst ih =>
      rw [cut_of_first?_eq_some hfirst]
      intro t ht
      obtain ⟨p, hp, hpt⟩ := List.mem_filterMap.mp ht
      rcases List.mem_cons.mp hp with rfl | hp
      · exact h hfirst hpt
      · exact ih t (List.mem_filterMap.mpr ⟨p, hp, hpt⟩)

theorem lexed_of_cut : ∀ t ∈ (cut cs).1.filterMap terminal?, t.Lexed :=
  forall_terminal_of_cut lexed_of_first? cs

theorem genuine_or_spells_of_cut : ∀ t ∈ (cut cs).1.filterMap terminal?,
    t.Genuine ∨ t.kind = .identifier ∧ ∃ k : Keyword, t.lexeme = k.spelling :=
  forall_terminal_of_cut genuine_or_spells_of_first? cs

theorem genuine_of_mem_dropLast_cut :
    ∀ t ∈ ((cut cs).1.filterMap terminal?).dropLast, t.Genuine := by
  -- the text does not break off behind a terminal that is not the last
  induction cs using cut_induction with
  | stuck cs hfirst =>
      rw [cut_of_first?_eq_none hfirst]
      nofun
  | piece cs piece rest hfirst ih =>
      rw [cut_of_first?_eq_some hfirst]
      intro t ht
      cases hpiece : piece.terminal? with
      | none =>
          rw [List.filterMap_cons_none hpiece] at ht
          exact ih t ht
      | some u =>
          rw [List.filterMap_cons_some hpiece] at ht
          by_cases hnil : (cut rest).1.filterMap terminal? = []
          · rw [hnil] at ht
            cases ht
          · rw [List.dropLast_cons_of_ne_nil hnil] at ht
            rcases List.mem_cons.mp ht with rfl | ht
            · refine genuine_of_first? hfirst hpiece fun c hc hword => ?_
              obtain ⟨rest', rfl⟩ := List.head?_eq_some_iff.mp hc
              cases hname : Text.isNameCharacter c with
              | true => rfl
              | false =>
                  rw [cut_of_first?_eq_none (first?_of_isWordCharacter hword hname)] at hnil
                  exact absurd rfl hnil
            · exact ih t ht

theorem ne_nil_of_mem_cut {piece : Piece} (h : piece ∈ (cut cs).1) : piece.text ≠ [] := by
  induction cs using cut_induction with
  | stuck cs hfirst =>
      rw [cut_of_first?_eq_none hfirst] at h
      cases h
  | piece cs p rest hfirst ih =>
      rw [cut_of_first?_eq_some hfirst] at h
      rcases List.mem_cons.mp h with rfl | h
      · exact ne_nil_of_first? hfirst
      · exact ih h

theorem size_pos {piece : Piece} (h : piece.text ≠ []) : 0 < piece.size :=
  Nat.lt_of_lt_of_le (List.length_pos_iff.mpr h) (Text.length_le_size _)

end Piece

theorem Scan.map_tokensAt (offset : Nat) (pieces : List Piece) :
    (tokensAt offset pieces).map (·.toTerminal) = pieces.filterMap Piece.terminal? := by
  induction pieces generalizing offset with
  | nil => rfl
  | cons piece pieces ih =>
      rw [tokensAt]
      cases hkind : piece.kind? with
      | none => simp [Piece.terminal?, hkind, ih]
      | some kind => simp [Piece.terminal?, hkind, ih]

namespace Piece

variable {run more : List Char}

theorem cut_dropWhile_isBlank (cs : List Char) (offset : Nat) :
    Scan.tokensAt offset (cut cs).1 =
        Scan.tokensAt (offset + Text.size (cs.takeWhile Text.isBlank))
          (cut (cs.dropWhile Text.isBlank)).1 ∧
      (cut cs).2 = (cut (cs.dropWhile Text.isBlank)).2 := by
  cases cs with
  | nil => exact ⟨rfl, rfl⟩
  | cons c cs =>
      cases hblank : Text.isBlank c with
      | true =>
          rw [cut_of_first?_eq_some (first?_of_isBlank hblank)]
          exact ⟨rfl, rfl⟩
      | false =>
          rw [List.takeWhile_cons_of_neg (Bool.eq_false_iff.mp hblank),
            List.dropWhile_cons_of_neg (Bool.eq_false_iff.mp hblank)]
          exact ⟨rfl, rfl⟩

theorem cut_blanks_append (hrun : ∀ c ∈ run, Text.isBlank c) (offset : Nat) :
    Scan.tokensAt offset (cut (run ++ more)).1 =
        Scan.tokensAt (offset + Text.size run) (cut more).1 ∧
      (cut (run ++ more)).2 = (cut more).2 := by
  obtain ⟨htokens, hstuck⟩ := cut_dropWhile_isBlank (run ++ more) offset
  obtain ⟨htokens', hstuck'⟩ := cut_dropWhile_isBlank more (offset + Text.size run)
  rw [List.takeWhile_append_of_pos hrun, List.dropWhile_append_of_pos hrun, Text.size_append,
    ← Nat.add_assoc] at htokens
  rw [List.dropWhile_append_of_pos hrun] at hstuck
  exact ⟨htokens.trans htokens'.symm, hstuck.trans hstuck'.symm⟩

theorem filterMap_cut_blanks_append (hrun : ∀ c ∈ run, Text.isBlank c) :
    (cut (run ++ more)).1.filterMap terminal? = (cut more).1.filterMap terminal? := by
  rw [← Scan.map_tokensAt 0, (cut_blanks_append hrun 0).1, Scan.map_tokensAt]

theorem cut_lexeme_blanks_append {t : Terminal} (ht : t.Genuine)
    (hrun : ∀ c ∈ run, Text.isBlank c) (hmore : run ≠ [] ∨ more = []) :
    (cut (t.lexeme.toList ++ (run ++ more))).1.filterMap terminal? =
        t :: (cut more).1.filterMap terminal? ∧
      (cut (t.lexeme.toList ++ (run ++ more))).2 = (cut more).2 := by
  have hnext : ∀ c ∈ (run ++ more).head?, Text.isBlank c := by
    intro c hc
    cases run with
    | nil =>
        obtain rfl := hmore.resolve_left (not_not_intro rfl)
        cases hc
    | cons d run =>
        obtain rfl : d = c := Option.some.inj hc
        exact hrun d List.mem_cons_self
  rw [cut_of_first?_eq_some (ht.first?_lexeme hnext),
    List.filterMap_cons_some (terminal?_of_kind? rfl), filterMap_cut_blanks_append hrun,
    String.ofList_toList]
  exact ⟨rfl, (cut_blanks_append hrun 0).2⟩

end Piece

/-- The lexemes of some terminals, each with a space behind it. -/
def Terminal.spaced (ts : List Terminal) : List Char :=
  ts.flatMap fun t => t.lexeme.toList ++ [' ']

theorem Piece.cut_spaced {ts : List Terminal} (hts : ∀ t ∈ ts, t.Genuine) :
    (cut (Terminal.spaced ts)).1.filterMap terminal? = ts ∧ (cut (Terminal.spaced ts)).2 = [] := by
  induction ts with
  | nil => exact ⟨rfl, rfl⟩
  | cons t ts ih =>
      obtain ⟨hterminals, hstuck⟩ := ih fun t' ht' => hts t' (List.mem_cons_of_mem _ ht')
      have hspaced : Terminal.spaced (t :: ts) =
          t.lexeme.toList ++ ([' '] ++ Terminal.spaced ts) := by
        simp [Terminal.spaced]
      have hblank : ∀ c ∈ [' '], Text.isBlank c := List.forall_mem_singleton.mpr rfl
      have hmore : [' '] ≠ [] ∨ Terminal.spaced ts = [] := .inl (List.cons_ne_nil _ _)
      obtain ⟨hterminals', hstuck'⟩ :=
        cut_lexeme_blanks_append (hts t List.mem_cons_self) hblank hmore
      rw [hspaced, hterminals', hterminals, hstuck']
      exact ⟨rfl, hstuck⟩

namespace Scan

variable {cs : List Char} {source : String}

theorem terminals_ofText (cs : List Char) :
    (ofText cs).terminals = (Piece.cut cs).1.filterMap Piece.terminal? :=
  map_tokensAt 0 _

theorem stuck?_ofText (cs : List Char) : (ofText cs).stuck? = (Piece.cut cs).2.head? :=
  rfl

theorem genuine_of_mem_terminals (h : (ofSource source).stuck? = none) :
    ∀ t ∈ (ofSource source).terminals, t.Genuine := by
  rw [ofSource, terminals_ofText]
  exact Piece.genuine_of_cut (List.head?_eq_none_iff.mp h)

theorem lexed_of_mem_terminals : ∀ t ∈ (ofSource source).terminals, t.Lexed := by
  rw [ofSource, terminals_ofText]
  exact Piece.lexed_of_cut

theorem genuine_or_spells_of_mem_terminals : ∀ t ∈ (ofSource source).terminals,
    t.Genuine ∨ t.kind = .identifier ∧ ∃ k : Keyword, t.lexeme = k.spelling := by
  rw [ofSource, terminals_ofText]
  exact Piece.genuine_or_spells_of_cut

theorem genuine_of_mem_dropLast_terminals :
    ∀ t ∈ (ofSource source).terminals.dropLast, t.Genuine := by
  rw [ofSource, terminals_ofText]
  exact Piece.genuine_of_mem_dropLast_cut

theorem kind_ne_endOfInput_of_mem_terminals :
    ∀ t ∈ (ofSource source).terminals, t.kind ≠ .endOfInput :=
  fun t ht => (lexed_of_mem_terminals t ht).kind_ne_endOfInput

/-- All that is asked of terminals to be those of a source. -/
theorem ofSource_spaced {ts : List Terminal} (hts : ∀ t ∈ ts, t.Genuine) :
    (ofSource (.ofList (Terminal.spaced ts))).terminals = ts ∧
      (ofSource (.ofList (Terminal.spaced ts))).stuck? = none := by
  obtain ⟨hterminals, hstuck⟩ := Piece.cut_spaced hts
  rw [ofSource, String.toList_ofList, terminals_ofText, stuck?_ofText, hterminals, hstuck]
  exact ⟨rfl, rfl⟩

theorem offset_of_mem_tokensAt {offset : Nat} {pieces : List Piece} {token : Token}
    (hne : ∀ piece ∈ pieces, piece.text ≠ []) (h : token ∈ tokensAt offset pieces) :
    offset ≤ token.offset ∧ token.offset < offset + Text.size (pieces.flatMap Piece.text) := by
  induction pieces generalizing offset with
  | nil => cases h
  | cons piece pieces ih =>
      have hne' : ∀ piece ∈ pieces, piece.text ≠ [] :=
        fun p hp => hne p (List.mem_cons_of_mem _ hp)
      have hpos : 0 < piece.size := Piece.size_pos (hne piece List.mem_cons_self)
      have hsize : Text.size ((piece :: pieces).flatMap Piece.text) =
          piece.size + Text.size (pieces.flatMap Piece.text) := by
        rw [List.flatMap_cons, Text.size_append, Piece.size]
      have htail : token ∈ tokensAt (offset + piece.size) pieces → offset ≤ token.offset ∧
          token.offset < offset + Text.size ((piece :: pieces).flatMap Piece.text) := by
        intro h
        have := ih hne' h
        omega
      rw [tokensAt] at h
      split at h
      · exact htail h
      · rcases List.mem_cons.mp h with rfl | h
        · exact ⟨Nat.le_refl _, Nat.lt_add_of_pos_right (by omega)⟩
        · exact htail h

theorem pairwise_tokensAt {offset : Nat} {pieces : List Piece}
    (hne : ∀ piece ∈ pieces, piece.text ≠ []) :
    (tokensAt offset pieces).Pairwise fun token token' => token.offset < token'.offset := by
  induction pieces generalizing offset with
  | nil => exact .nil
  | cons piece pieces ih =>
      have hne' : ∀ piece ∈ pieces, piece.text ≠ [] :=
        fun p hp => hne p (List.mem_cons_of_mem _ hp)
      have hpos : 0 < piece.size := Piece.size_pos (hne piece List.mem_cons_self)
      rw [tokensAt]
      split
      · exact ih hne'
      · refine .cons (fun token htoken => ?_) (ih hne')
        have := offset_of_mem_tokensAt hne' htoken
        change offset < token.offset
        omega

theorem pairwise_tokens : (ofSource source).tokens.Pairwise
    fun token token' => token.offset < token'.offset :=
  pairwise_tokensAt fun _ => Piece.ne_nil_of_mem_cut

/-- Where the scan of a source stops, all but the text that no rule matches has been read. -/
theorem stop_add_size (source : String) :
    (ofSource source).stop + Text.size (Piece.cut source.toList).2 = source.utf8ByteSize := by
  rw [← Text.size_toList, ← Piece.append_of_cut source.toList, Text.size_append,
    Piece.append_of_cut]
  rfl

theorem stop_eq_size {before : List Char}
    (h : source.toList = before ++ (Piece.cut source.toList).2) :
    (ofSource source).stop = Text.size before :=
  congrArg Text.size (List.append_cancel_right ((Piece.append_of_cut source.toList).trans h))

theorem stop_le (source : String) : (ofSource source).stop ≤ source.utf8ByteSize :=
  Nat.le.intro (stop_add_size source)

theorem stop_of_stuck?_eq_none (h : (ofSource source).stuck? = none) :
    (ofSource source).stop = source.utf8ByteSize := by
  have hrest : (Piece.cut source.toList).2 = [] := List.head?_eq_none_iff.mp h
  have hstop := stop_add_size source
  rwa [hrest, Text.size, Nat.add_zero] at hstop

theorem tokenBefore_zero (scan : Scan) : scan.tokenBefore 0 = .endOfInput scan.stop := by
  simp [tokenBefore]

theorem offset_lt_stop {token : Token} (h : token ∈ (ofSource source).tokens) :
    token.offset < (ofSource source).stop := by
  have hlt := (offset_of_mem_tokensAt (fun _ => Piece.ne_nil_of_mem_cut) h).2
  rwa [Nat.zero_add] at hlt

theorem offset_lt_of_mem_tokens {token : Token} (h : token ∈ (ofSource source).tokens) :
    token.offset < source.utf8ByteSize :=
  Nat.lt_of_lt_of_le (offset_lt_stop h) (stop_le source)

theorem length_tokensAt_le (offset : Nat) (cs : List Char) :
    (tokensAt offset (Piece.cut cs).1).length ≤ cs.length := by
  induction cs using Piece.cut_induction generalizing offset with
  | stuck cs hfirst =>
      rw [Piece.cut_of_first?_eq_none hfirst]
      exact Nat.zero_le _
  | piece cs piece rest hfirst ih =>
      have hlt := Piece.length_lt_of_first? hfirst
      have hle := ih (offset + piece.size)
      rw [Piece.cut_of_first?_eq_some hfirst, tokensAt]
      cases piece.kind? with
      | none => exact Nat.le_trans hle (Nat.le_of_lt hlt)
      | some kind =>
          simp only [List.length_cons]
          omega

theorem length_tokens_le (source : String) :
    (ofSource source).tokens.length ≤ source.length := by
  rw [← String.length_toList]
  exact length_tokensAt_le 0 source.toList

end Scan

end Letter
