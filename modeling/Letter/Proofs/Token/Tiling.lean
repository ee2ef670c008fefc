import Letter.Proofs.Token.Stream

namespace Letter

/-- `text` begins at a byte offset of `cs`, and `rest` is all that follows it. -/
def Text.StandsAt (cs : List Char) (offset : Nat) (text rest : List Char) : Prop :=
  ∃ before, cs = before ++ (text ++ rest) ∧ Text.size before = offset

/-- An offset at which a character begins or the text ends. -/
def Text.IsBoundary (cs : List Char) (offset : Nat) : Prop :=
  ∃ before after, cs = before ++ after ∧ size before = offset

namespace Text

variable {cs text rest : List Char} {offset : Nat}

theorem StandsAt.isBoundary (h : StandsAt cs offset text rest) : IsBoundary cs offset := by
  obtain ⟨before, hcs, hsize⟩ := h
  exact ⟨before, text ++ rest, hcs, hsize⟩

theorem isBoundary_size (cs : List Char) : IsBoundary cs (size cs) :=
  ⟨cs, [], (List.append_nil cs).symm, rfl⟩

theorem IsBoundary.le_size (h : IsBoundary cs offset) : offset ≤ size cs := by
  obtain ⟨before, after, rfl, rfl⟩ := h
  simp

end Text

/-- The offset behind the last character. -/
def Token.stop (token : Token) : Nat :=
  token.offset + token.lexeme.utf8ByteSize

/-- One run of blanks or one comment, in front of `rest`. A line comment leaves the line feed to
what follows, and a block comment ends where it first can. -/
inductive Separator (rest : List Char) : List Char → Prop
  | blanks {run} (hne : run ≠ []) (hrun : ∀ c ∈ run, Text.isBlank c) : Separator rest run
  | lineComment {line} (hline : '\n' ∉ line) (hrest : ∀ c ∈ rest.head?, c = '\n') :
      Separator rest ('/' :: '/' :: line)
  | blockComment {body} (hbody : ¬ ['*', '/'] <:+: body ++ ['*']) :
      Separator rest ('/' :: '*' :: (body ++ ['*', '/']))

/-- Separators one behind the other, in front of `rest`. -/
inductive Gap (rest : List Char) : List Char → Prop
  | nil : Gap rest []
  | cons {separator gap} (hseparator : Separator (gap ++ rest) separator) (hgap : Gap rest gap) :
      Gap rest (separator ++ gap)

namespace Pattern

variable {cs text rest : List Char}

theorem exists_body_of_splitClosed? (h : splitClosed? cs = some (text, rest)) :
    ∃ body, text = body ++ ['*', '/'] ∧ ¬ ['*', '/'] <:+: body ++ ['*'] := by
  fun_induction splitClosed? cs generalizing text with
  | case1 rest' =>
      cases h
      exact ⟨[], rfl, by decide⟩
  | case2 c cs hnot ih =>
      obtain ⟨⟨text', rest'⟩, hsplit, heq⟩ := Option.map_eq_some_iff.mp h
      cases heq
      obtain ⟨body, rfl, hbody⟩ := ih hsplit
      refine ⟨c :: body, rfl, fun hinfix => ?_⟩
      rcases List.infix_cons_iff.mp hinfix with ⟨more, hmore⟩ | hinfix
      · -- the comment would have ended with this character and the next
        obtain ⟨hc, hmore⟩ := List.cons.inj hmore
        have hcs := append_of_splitClosed? hsplit
        cases body with
        | nil => cases hmore
        | cons b body =>
            obtain ⟨hb, -⟩ := List.cons.inj hmore
            subst hb
            exact hnot _ hc.symm hcs
      · exact hbody hinfix
  | case3 => cases h

end Pattern

namespace Separator

variable {rule : Rule} {cs text rest : List Char}

theorem of_split? (hrule : rule ∈ Rule.all) (hkind : rule.kind? = none)
    (h : rule.pattern.split? cs = some (text, rest)) : Separator rest text := by
  have hall : ∀ rule ∈ Rule.all, rule.kind? = none → rule ∈ Rule.separators := by decide
  have hseparators := hall rule hrule hkind
  simp only [Rule.separators, List.mem_cons, List.not_mem_nil, or_false] at hseparators
  rcases hseparators with rfl | rfl | rfl
  · have hne := Pattern.ne_nil_of_splitRun? h
    rw [Pattern.split?, Pattern.splitRun?] at h
    split at h
    · cases h
      exact .blanks hne (List.all_eq_true.mp List.all_takeWhile)
    · cases h
  · obtain ⟨line, -, heq⟩ := Option.map_eq_some_iff.mp h
    cases heq
    refine .lineComment (fun hmem => ?_) fun c hc => ?_
    · have hall := List.all_eq_true.mp (List.all_takeWhile (p := (· != '\n')) (l := line)) _ hmem
      exact absurd hall (by decide)
    · have hstop := List.head?_dropWhile_not (· != '\n') line
      rw [hc] at hstop
      simpa using hstop
  · obtain ⟨after, -, hmap⟩ := Option.bind_eq_some_iff.mp h
    obtain ⟨⟨comment, rest'⟩, hsplit, heq⟩ := Option.map_eq_some_iff.mp hmap
    cases heq
    obtain ⟨body, rfl, hbody⟩ := Pattern.exists_body_of_splitClosed? hsplit
    exact .blockComment hbody

theorem of_first? {piece : Piece} (h : Piece.first? cs = some (piece, rest))
    (hkind : piece.kind? = none) : Separator rest piece.text := by
  obtain ⟨rule, hrule, hcut⟩ := List.exists_of_findSome?_eq_some h
  obtain ⟨⟨text, rest'⟩, hsplit, heq⟩ := Option.map_eq_some_iff.mp hcut
  cases heq
  exact of_split? hrule hkind hsplit

end Separator

/-- Tokens from an offset on, of which the first stands behind a gap that begins there and each
other behind a gap that begins where the token before it ends. The text is `cs`, and `rest` is what
the last gap leaves of it. -/
inductive Tiled : (offset : Nat) → List Token → (cs rest : List Char) → Prop
  | gap {offset gap rest} (hgap : Gap rest gap) : Tiled offset [] (gap ++ rest) rest
  | token {offset gap lexeme cs rest kind tokens} (hgap : Gap (lexeme ++ cs) gap)
      (hne : lexeme ≠ [])
      (htokens : Tiled (offset + Text.size gap + Text.size lexeme) tokens cs rest) :
      Tiled offset (⟨⟨kind, String.ofList lexeme⟩, offset + Text.size gap⟩ :: tokens)
        (gap ++ (lexeme ++ cs)) rest

namespace Tiled

variable {offset : Nat} {tokens front back : List Token} {token : Token} {cs rest : List Char}

theorem separate {separator : List Char} (hseparator : Separator cs separator)
    (h : Tiled (offset + Text.size separator) tokens cs rest) :
    Tiled offset tokens (separator ++ cs) rest := by
  cases h with
  | gap hgap =>
      rw [← List.append_assoc]
      exact .gap (.cons hseparator hgap)
  | token hgap hne htokens =>
      rw [Nat.add_assoc offset, ← Text.size_append] at htokens
      rw [← List.append_assoc, Nat.add_assoc, ← Text.size_append]
      exact .token (.cons hseparator hgap) hne htokens

theorem of_cut (offset : Nat) (cs : List Char) :
    Tiled offset (Scan.tokensAt offset (Piece.cut cs).1) cs (Piece.cut cs).2 := by
  induction cs using Piece.cut_induction generalizing offset with
  | stuck cs hfirst =>
      rw [Piece.cut_of_first?_eq_none hfirst]
      exact .gap .nil
  | piece cs piece rest hfirst ih =>
      have hcs := Piece.append_of_first? hfirst
      rw [Piece.cut_of_first?_eq_some hfirst, Scan.tokensAt]
      cases hkind : piece.kind? with
      | none =>
          rw [hcs]
          exact (ih (offset + piece.size)).separate (.of_first? hfirst hkind)
      | some kind =>
          rw [hcs]
          exact .token .nil (Piece.ne_nil_of_first? hfirst) (ih (offset + piece.size))

theorem offset_le (h : Tiled offset tokens cs rest) (htoken : token ∈ tokens) :
    offset ≤ token.offset := by
  induction h with
  | gap => cases htoken
  | token hgap hne htokens ih =>
      rcases List.mem_cons.mp htoken with rfl | htoken
      · exact Nat.le_add_right _ _
      · have := ih htoken
        omega

theorem size_le (h : Tiled offset tokens cs rest) : Text.size rest ≤ Text.size cs := by
  induction h with
  | gap => simp
  | token hgap hne htokens ih =>
      simp only [Text.size_append]
      omega

theorem stop_add_size_le (h : Tiled offset tokens cs rest) (htoken : token ∈ tokens) :
    token.stop + Text.size rest ≤ offset + Text.size cs := by
  induction h with
  | gap => cases htoken
  | token hgap hne htokens ih =>
      simp only [Text.size_append]
      rcases List.mem_cons.mp htoken with rfl | htoken
      · have hle := htokens.size_le
        simp only [Token.stop, Text.utf8ByteSize_ofList]
        omega
      · have hstop := ih htoken
        omega

theorem pairwise (h : Tiled offset tokens cs rest) :
    tokens.Pairwise fun token token' => token.stop ≤ token'.offset := by
  induction h with
  | gap => exact .nil
  | token hgap hne htokens ih =>
      refine .cons (fun token htoken => ?_) ih
      rw [Token.stop, Text.utf8ByteSize_ofList]
      exact htokens.offset_le htoken

variable {source before : List Char}

theorem standsAt (h : Tiled offset tokens cs rest) (hsource : source = before ++ cs)
    (hbefore : Text.size before = offset) (htoken : token ∈ tokens) :
    token.lexeme ≠ "" ∧ ∃ after, Text.StandsAt source token.offset token.lexeme.toList after := by
  induction h generalizing before with
  | gap => cases htoken
  | @token offset gap lexeme cs rest kind tokens hgap hne htokens ih =>
      rcases List.mem_cons.mp htoken with rfl | htoken
      · refine ⟨fun hempty => hne ?_, cs, before ++ gap, ?_, ?_⟩
        · simpa using congrArg String.toList hempty
        · rw [hsource, String.toList_ofList, List.append_assoc]
        · rw [Text.size_append, hbefore]
      · have hsource' : source = before ++ gap ++ lexeme ++ cs := by
          simp only [hsource, List.append_assoc]
        refine ih hsource' ?_ htoken
        rw [Text.size_append, Text.size_append, hbefore]

theorem gap_between (h : Tiled offset tokens cs rest) (hsource : source = before ++ cs)
    (hbefore : Text.size before = offset) {stop : Nat}
    (hstop : offset + Text.size cs = stop + Text.size rest) (htokens : tokens = front ++ back) :
    ∃ gap after, Text.StandsAt source ((front.getLast?.map Token.stop).getD offset) gap after ∧
      (front.getLast?.map Token.stop).getD offset + Text.size gap =
        (back.head?.map Token.offset).getD stop ∧ Gap after gap := by
  induction h generalizing before front with
  | @gap offset gap rest hgap =>
      obtain ⟨rfl, rfl⟩ := List.append_eq_nil_iff.mp htokens.symm
      refine ⟨gap, rest, ⟨before, hsource, hbefore⟩, ?_, hgap⟩
      rw [Text.size_append] at hstop
      simp only [List.getLast?_nil, List.head?_nil, Option.map_none, Option.getD_none]
      omega
  | @token offset gap lexeme cs rest kind tokens hgap hne _ ih =>
      cases front with
      | nil =>
          rw [List.nil_append] at htokens
          subst htokens
          exact ⟨gap, lexeme ++ cs, ⟨before, hsource, hbefore⟩, rfl, hgap⟩
      | cons u front =>
          obtain ⟨rfl, htail⟩ := List.cons.inj htokens
          have hsource' : source = before ++ gap ++ lexeme ++ cs := by
            simp only [hsource, List.append_assoc]
          have hnext := ih hsource' (by rw [Text.size_append, Text.size_append, hbefore])
            (by simp only [Text.size_append] at hstop; omega) htail
          have hlast : ((⟨⟨kind, String.ofList lexeme⟩, offset + Text.size gap⟩ :: front :
              List Token).getLast?.map Token.stop).getD offset =
                (front.getLast?.map Token.stop).getD
                  (offset + Text.size gap + Text.size lexeme) := by
            rw [List.getLast?_cons]
            cases front.getLast? with
            | none => simp [Token.stop, Text.utf8ByteSize_ofList]
            | some token => rfl
          rw [hlast]
          exact hnext

end Tiled

namespace Tokenizer

variable {source : String}

/-- The tokens of a source do not overlap, each is a part of the source that is not empty, and all
else up to the cursor is blanks and comments. The cursor is left at the end, or at the character
of a lexical error. -/
theorem tokens_tile_source (source : String) :
    ∃ (tokens : List Token) (error? : Option SourceError) (last : Tokenizer),
      (ofSource source).toList = (tokens.map .ok ++ (error?.map .error).toList, last) ∧
      (tokens.Pairwise fun token token' =>
        token.offset < token'.offset ∧ token.stop ≤ token'.offset) ∧
      (∀ token ∈ tokens, token.lexeme ≠ "" ∧
        ∃ after, Text.StandsAt source.toList token.offset token.lexeme.toList after) ∧
      (∀ front back, tokens = front ++ back → ∃ gap after,
        Text.StandsAt source.toList ((front.getLast?.map Token.stop).getD 0) gap after ∧
        (front.getLast?.map Token.stop).getD 0 + Text.size gap =
          (back.head?.map Token.offset).getD last.cursor ∧
        Gap after gap) ∧
      match error? with
      | none => last.cursor = source.utf8ByteSize
      | some e => ∃ c after, e = .lexical source last.cursor c ∧
          e.position.offset = last.cursor ∧ last.cursor < source.utf8ByteSize ∧
          Text.StandsAt source.toList last.cursor [c] after := by
  have htiled := Tiled.of_cut 0 source.toList
  have hsource : source.toList = [] ++ source.toList := rfl
  have hstop := Scan.stop_add_size source
  have hsize : 0 + Text.size source.toList =
      (Scan.ofSource source).stop + Text.size (Piece.cut source.toList).2 := by
    rw [Nat.zero_add, hstop, Text.size_toList]
  refine ⟨(Scan.ofSource source).tokens,
    (Scan.ofSource source).stuck?.map (.lexical source (Scan.ofSource source).stop), _,
    toList_ofSource source, ?_,
    fun token htoken => htiled.standsAt hsource rfl htoken,
    fun front back htokens => htiled.gap_between hsource rfl hsize htokens, ?_⟩
  · exact Scan.pairwise_tokens.and htiled.pairwise
  · cases hrest : (Piece.cut source.toList).2 with
    | nil =>
        have hstuck : (Scan.ofSource source).stuck? = none := by
          rw [Scan.ofSource, Scan.stuck?_ofText, hrest]
          rfl
        rw [hstuck]
        rw [hrest] at hstop
        exact hstop
    | cons c after =>
        have hstuck : (Scan.ofSource source).stuck? = some c := by
          rw [Scan.ofSource, Scan.stuck?_ofText, hrest]
          rfl
        have hlt : (Scan.ofSource source).stop < source.utf8ByteSize := by
          have hpos := c.utf8Size_pos
          rw [hrest, Text.size] at hstop
          omega
        have hcut := Piece.append_of_cut source.toList
        rw [hrest] at hcut
        rw [hstuck]
        exact ⟨c, after, rfl, Nat.min_eq_left (Nat.le_of_lt hlt), hlt, _, hcut.symm, rfl⟩

end Tokenizer

end Letter
