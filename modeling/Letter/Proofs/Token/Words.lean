import Letter.Proofs.Token.Unreadable

namespace Letter

namespace Tokenizer

/-- Tokens that are read one behind the other, and where this leaves the tokenizer. -/
inductive Passes : Tokenizer → List Token → Tokenizer → Prop
  | nil {t} : Passes t [] t
  | cons {t t' last token tokens} (hnext : t.nextToken = (.ok token, t'))
      (htokens : Passes t' tokens last) : Passes t (token :: tokens) last

/-- The tokens that cover a run of letters, digits and underscores: the digits at its front, if it
has any, and what else there is of it. -/
def runTokens (offset : Nat) (run : List Char) (wordKind : TokenKind) : List Token :=
  let digits := run.takeWhile Char.isDigit
  let word := run.dropWhile Char.isDigit
  (if digits = [] then [] else [⟨⟨.number, .ofList digits⟩, offset⟩]) ++
    if word = [] then [] else [⟨⟨wordKind, .ofList word⟩, offset + Text.size digits⟩]

variable {source : String} {t t' last : Tokenizer} {token : Token} {tokens more : List Token}
  {digits word run after : List Char} {cursor : Nat} {failed : Bool}

theorem Passes.append (h : Passes t tokens t') (hmore : Passes t' more last) :
    Passes t (tokens ++ more) last := by
  induction h with
  | nil => exact hmore
  | cons hnext _ ih => exact .cons hnext (ih hmore)

theorem passes_digits (hdigits : ∀ c ∈ digits, c.isDigit)
    (hnext : after.head?.any Char.isDigit = false) :
    Passes ⟨source, digits ++ after, cursor, failed⟩
      (if digits = [] then [] else [⟨⟨.number, .ofList digits⟩, cursor⟩])
      ⟨source, after, cursor + Text.size digits, failed⟩ := by
  by_cases hempty : digits = []
  · subst hempty
    exact .nil
  · have hfirst := Piece.first?_digits_append hempty hdigits hnext
    rw [if_neg hempty]
    exact .cons (nextToken_of_token hfirst rfl) .nil

theorem passes_word (hword : ∀ c ∈ word, Text.isNameCharacter c)
    (hdigit : word.head?.any Char.isDigit = false)
    (hnext : after.head?.any Text.isNameCharacter = false) :
    Passes ⟨source, word ++ after, cursor, failed⟩
      (if word = [] then [] else [⟨⟨Text.wordKind (word ++ after), .ofList word⟩, cursor⟩])
      ⟨source, after, cursor + Text.size word, failed⟩ := by
  obtain ⟨htake, hdrop⟩ := Text.takeWhile_append_dropWhile_append hword hnext
  cases word with
  | nil => exact .nil
  | cons c word =>
      have hfirst : Piece.first? (c :: (word ++ after)) = _ :=
        Piece.first?_of_isNameCharacter (hword c List.mem_cons_self) hdigit
      rw [← List.cons_append, htake, hdrop] at hfirst
      exact .cons (nextToken_of_token hfirst rfl) .nil

theorem passes_run (hrun : ∀ c ∈ run, Text.isNameCharacter c)
    (hnext : after.head?.any Text.isNameCharacter = false) :
    Passes ⟨source, run ++ after, cursor, failed⟩
      (runTokens cursor run (Text.wordKind (run.dropWhile Char.isDigit ++ after)))
      ⟨source, after, cursor + Text.size run, failed⟩ := by
  have hsplit : run.takeWhile Char.isDigit ++ run.dropWhile Char.isDigit = run :=
    List.takeWhile_append_dropWhile
  have hdigits := List.all_eq_true.mp (List.all_takeWhile (p := Char.isDigit) (l := run))
  have hdigit := Text.head?_dropWhile Char.isDigit run
  have hword : ∀ c ∈ run.dropWhile Char.isDigit, Text.isNameCharacter c :=
    fun c hc => hrun c ((List.dropWhile_sublist _).subset hc)
  rw [runTokens]
  generalize run.takeWhile Char.isDigit = digits, run.dropWhile Char.isDigit = word
    at hsplit hdigits hdigit hword ⊢
  subst hsplit
  have hbehind : (word ++ after).head?.any Char.isDigit = false := by
    cases word with
    | nil => exact Text.any_eq_false_of_imp Text.isNameCharacter_of_isDigit hnext
    | cons c word => exact hdigit
  rw [List.append_assoc, Text.size_append, ← Nat.add_assoc]
  exact (passes_digits hdigits hbehind).append (passes_word hword hdigit hnext)

theorem wordKind_eq_keyword_iff (hword : ∀ c ∈ word, Text.isNameCharacter c)
    (hnext : after.head?.any Text.isNameCharacter = false) (k : Keyword) :
    Text.wordKind (word ++ after) = .keyword k ↔
      word = k.spelling.toList ∧ after.head?.any Text.isWordCharacter = false := by
  obtain ⟨htake, hdrop⟩ := Text.takeWhile_append_dropWhile_append hword hnext
  rw [Text.wordKind_eq_keyword_iff, htake, hdrop]

theorem Reads.exists_first? {result : Except SourceError Token} (h : Reads t result t')
    (hresult : result = .ok token) (hend : token.kind ≠ .endOfInput) :
    ∃ cs piece, Piece.first? cs = some (piece, t'.rest) ∧ piece.kind? = some token.kind ∧
      token.lexeme = .ofList piece.text := by
  induction h with
  | atEnd =>
      cases hresult
      exact absurd rfl hend
  | stuck => cases hresult
  | separator _ _ _ ih => exact ih hresult
  | token hfirst hkind =>
      cases hresult
      exact ⟨_, _, hfirst, hkind, rfl⟩

/-- A name spells a keyword only where a character follows that continues words and no names. -/
theorem exists_wordCharacter_of_spelling {cs rest : List Char} {piece : Piece} {k : Keyword}
    (hfirst : Piece.first? cs = some (piece, rest)) (hkind : piece.kind? = some .identifier)
    (hspelling : piece.text = k.spelling.toList) :
    ∃ c cs', rest = c :: cs' ∧ Text.isWordCharacter c ∧ Text.isNameCharacter c = false := by
  obtain ⟨c, cs, rfl, -, -, hword, htext, rfl⟩ := Piece.exists_word_of_identifier hfirst hkind
  have hnot : Text.wordKind (c :: cs) ≠ .keyword k := by
    rw [hword]
    nofun
  have hany : ((c :: cs).dropWhile Text.isNameCharacter).head?.any Text.isWordCharacter := by
    by_contra hnext
    exact hnot (Text.wordKind_eq_keyword_iff.mpr
      ⟨htext.symm.trans hspelling, Bool.eq_false_iff.mpr hnext⟩)
  obtain ⟨c', hc', hword'⟩ := (Option.any_eq_true _ _).mp hany
  obtain ⟨cs', hrest⟩ := List.head?_eq_some_iff.mp hc'
  have hstop := List.head?_dropWhile_not Text.isNameCharacter (c :: cs)
  rw [hc'] at hstop
  exact ⟨c', cs', hrest, hword', by simpa using hstop⟩

theorem nextToken_of_spelling (hnext : t.nextToken = (.ok token, t'))
    (hkind : token.kind = .identifier) {k : Keyword} (hspelling : token.lexeme = k.spelling) :
    ∃ c cs, t'.rest = c :: cs ∧ 128 ≤ c.toNat ∧ Text.isWordCharacter c ∧
      t'.nextToken = (.error (.lexical t'.source t'.cursor c), { t' with failed := true }) := by
  have hread := reads_nextToken t
  rw [hnext] at hread
  obtain ⟨cs, piece, hfirst, hpiece, hlexeme⟩ := hread.exists_first? rfl (by rw [hkind]; nofun)
  rw [hkind] at hpiece
  have htext : piece.text = k.spelling.toList := by
    rw [← hspelling, hlexeme, String.toList_ofList]
  obtain ⟨c, cs', hrest, hword, hname⟩ := exists_wordCharacter_of_spelling hfirst hpiece htext
  obtain ⟨hcode, -⟩ := Text.of_isWordCharacter hword hname
  refine ⟨c, cs', hrest, hcode, hword, ?_⟩
  obtain ⟨source, rest, cursor, failed⟩ := t'
  obtain rfl : rest = c :: cs' := hrest
  exact nextToken_of_first?_eq_none (Piece.first?_of_isWordCharacter hword hname)

/-- Wherever the tokenizer of a source gets to, a run of letters, digits and underscores that ends
before what follows is covered by its digits as one number, if it has any in front, and by the rest
of it as one token, if there is any. That token is a keyword if it spells one and no character that
continues words follows, and else a name. So a name spells a keyword only in front of such a
character beyond ASCII, which the next call reports as a lexical error. -/
theorem reads_whole_words (source : String) (t : Tokenizer) (ht : Reached source t) :
    (∀ run after, t.rest = run ++ after → (∀ c ∈ run, Text.isNameCharacter c) →
      after.head?.any Text.isNameCharacter = false →
      ∃ wordKind,
        Passes t (runTokens t.cursor run wordKind)
          { t with rest := after, cursor := t.cursor + Text.size run } ∧
        (∀ k : Keyword, wordKind = .keyword k ↔
          run.dropWhile Char.isDigit = k.spelling.toList ∧
            after.head?.any Text.isWordCharacter = false) ∧
        (wordKind = .identifier ∨ ∃ k : Keyword, wordKind = .keyword k)) ∧
    ∀ token t', t.nextToken = (.ok token, t') → token.kind = .identifier →
      ∀ k : Keyword, token.lexeme = k.spelling →
      ∃ c cs, t'.rest = c :: cs ∧ 128 ≤ c.toNat ∧ Text.isWordCharacter c ∧
        t'.nextToken = (.error (.lexical source t'.cursor c), { t' with failed := true }) := by
  refine ⟨fun run after hrest hrun hnext => ?_, fun token t' hnext hkind k hspelling => ?_⟩
  · obtain ⟨source', rest, cursor, failed⟩ := t
    obtain rfl : rest = run ++ after := hrest
    have hword : ∀ c ∈ run.dropWhile Char.isDigit, Text.isNameCharacter c :=
      fun c hc => hrun c ((List.dropWhile_sublist _).subset hc)
    exact ⟨_, passes_run hrun hnext, wordKind_eq_keyword_iff hword hnext,
      Text.wordKind_eq_identifier_or _⟩
  · have hread := reads_nextToken t
    rw [hnext] at hread
    have hsource : t'.source = source := (ht.of_reads hread).unread.1
    rw [← hsource]
    exact nextToken_of_spelling hnext hkind hspelling

theorem reads_accented_word :
    Reached "9leté" (ofSource "9leté") ∧ Reached "9leté" ⟨"9leté", ['l', 'e', 't', 'é'], 1, false⟩ ∧
      Passes (ofSource "9leté") [⟨⟨.number, "9"⟩, 0⟩, ⟨⟨.identifier, "let"⟩, 1⟩]
        ⟨"9leté", ['é'], 4, false⟩ ∧
      nextToken ⟨"9leté", ['é'], 4, false⟩ =
        (.error (.lexical "9leté" 4 'é'), ⟨"9leté", ['é'], 4, true⟩) := by
  have hnumber : Piece.first? (ofSource "9leté").rest =
      some (⟨some .number, ['9']⟩, ['l', 'e', 't', 'é']) := by
    decide +kernel
  have hword : nextToken ⟨"9leté", ['l', 'e', 't', 'é'], 1, false⟩ =
      (.ok ⟨⟨.identifier, "let"⟩, 1⟩, ⟨"9leté", ['é'], 4, false⟩) := by
    decide +kernel
  have hreached : Reached "9leté" ⟨"9leté", ['l', 'e', 't', 'é'], 1, false⟩ := .past .start hnumber
  obtain ⟨hruns, -⟩ := reads_whole_words "9leté" (ofSource "9leté") .start
  obtain ⟨-, hnames⟩ := reads_whole_words "9leté" _ hreached
  obtain ⟨wordKind, hpasses, hkeyword, hkind⟩ :=
    hruns ['9', 'l', 'e', 't'] ['é'] rfl (List.all_eq_true.mp (by decide)) (by decide)
  obtain rfl : wordKind = .identifier := by
    refine hkind.resolve_right fun ⟨k, hk⟩ => ?_
    exact absurd ((hkeyword k).mp hk).2 (by decide)
  have htokens : runTokens 0 ['9', 'l', 'e', 't'] .identifier =
      [⟨⟨.number, "9"⟩, 0⟩, ⟨⟨.identifier, "let"⟩, 1⟩] := by
    decide
  obtain ⟨c, cs, hrest, -, -, herror⟩ := hnames _ _ hword rfl .let_ rfl
  obtain ⟨rfl, -⟩ := List.cons.inj hrest
  exact ⟨.start, hreached, htokens ▸ hpasses, herror⟩

end Tokenizer

end Letter
