import Letter.Proofs.Token.Genuine
import Letter.Proofs.Token.Matching
import Letter.Token.Scan

namespace Letter

namespace Rule

variable {rule : Rule} {kind : TokenKind} {cs text rest : List Char}

theorem form_of_mem_all (hrule : rule ∈ all) (hkind : rule.kind? = some kind) :
    match rule.pattern with
    | .spelled spellings => ∀ s ∈ spellings, (⟨kind, s⟩ : Terminal).Genuine
    | .word spelling => (⟨kind, spelling⟩ : Terminal).Genuine
    | .digits => kind = .number
    | .name => kind = .identifier
    | .quoted quote => kind = .string ∧ (quote = '"' ∨ quote = '\'')
    | .blanks | .lineComment | .blockComment => False := by
  simp only [all, separators, punctuators, keywords, words, operators, strings, List.mem_append,
    List.mem_map, List.mem_cons, List.not_mem_nil, or_false] at hrule
  rcases hrule with (((((rfl | rfl | rfl) | ⟨p, -, rfl⟩) | ⟨k, -, rfl⟩) | (rfl | rfl)) |
    (rfl | rfl | rfl | rfl | rfl | rfl | rfl | rfl | rfl)) | (rfl | rfl)
  all_goals cases hkind
  · exact List.forall_mem_singleton.mpr (.punctuator p)
  · exact .keyword k
  · rfl
  · rfl
  · simp only [List.forall_mem_cons]
    exact ⟨.connective (.binary .equal), .connective (.binary .notEqual), List.forall_mem_nil _⟩
  · exact List.forall_mem_singleton.mpr (.assignment .assign)
  · simp only [List.forall_mem_cons]
    exact ⟨.assignment .multiplyAssign, .assignment .divideAssign, .assignment .addAssign,
      .assignment .subtractAssign, List.forall_mem_nil _⟩
  · simp only [List.forall_mem_cons]
    exact ⟨.connective (.binary .add), .connective (.binary .subtract), List.forall_mem_nil _⟩
  · simp only [List.forall_mem_cons]
    exact ⟨.connective (.binary .multiply), .connective (.binary .divide), List.forall_mem_nil _⟩
  · simp only [List.forall_mem_cons]
    exact ⟨.connective (.binary .greaterOrEqual), .connective (.binary .lessOrEqual),
      .connective (.binary .greater), .connective (.binary .less), List.forall_mem_nil _⟩
  · exact List.forall_mem_singleton.mpr (.connective (.logical .and))
  · exact List.forall_mem_singleton.mpr (.connective (.logical .or))
  · exact List.forall_mem_singleton.mpr (.prefixed .not)
  · exact ⟨rfl, .inl rfl⟩
  · exact ⟨rfl, .inr rfl⟩

end Rule

namespace Piece

/-- The terminal that a piece makes, if it makes any. -/
def terminal? (piece : Piece) : Option Terminal :=
  piece.kind?.map fun kind => ⟨kind, .ofList piece.text⟩

variable {piece : Piece} {t : Terminal} {cs rest : List Char}

theorem terminal?_of_kind? {kind : TokenKind} (h : piece.kind? = some kind) :
    piece.terminal? = some ⟨kind, .ofList piece.text⟩ := by
  rw [terminal?, h]
  rfl

theorem exists_cons_of_word {c : Char} (hc : Text.isNameCharacter c) (hdigit : c.isDigit = false) :
    ∃ c' cs', (String.ofList ((c :: cs).takeWhile Text.isNameCharacter)).toList = c' :: cs' ∧
      (c'.isAlpha ∨ c' = '_') ∧ ∀ c'' ∈ cs', Text.isNameCharacter c'' := by
  have hall := List.all_eq_true.mp (List.all_takeWhile (p := Text.isNameCharacter) (l := cs))
  refine ⟨c, cs.takeWhile Text.isNameCharacter, ?_, ?_, hall⟩
  · rw [String.toList_ofList, List.takeWhile_cons_of_pos hc]
  · simpa [Text.isNameCharacter, Char.isAlphanum, hdigit] using hc

/-- A word that is a name is no keyword, unless a character follows with which no token begins. -/
theorem genuine_of_wordKind {c : Char} (hc : Text.isNameCharacter c) (hdigit : c.isDigit = false)
    (hnext : ∀ c' ∈ ((c :: cs).dropWhile Text.isNameCharacter).head?,
      Text.isWordCharacter c' → Text.isNameCharacter c') :
    (⟨Text.wordKind (c :: cs), .ofList ((c :: cs).takeWhile Text.isNameCharacter)⟩ :
      Terminal).Genuine := by
  rcases Text.wordKind_eq_identifier_or (c :: cs) with hkind | ⟨k, hkind⟩
  · rw [hkind]
    have hid : Identifier.WellFormed ⟨.ofList ((c :: cs).takeWhile Text.isNameCharacter)⟩ := by
      refine ⟨exists_cons_of_word hc hdigit, fun k hk => ?_⟩
      have hne : Text.wordKind (c :: cs) ≠ .keyword k := by
        rw [hkind]
        intro h
        cases h
      refine hne (Text.wordKind_eq_keyword_iff.mpr ⟨by rw [hk, String.toList_ofList], ?_⟩)
      refine Bool.eq_false_iff.mpr fun hany => ?_
      obtain ⟨c', hc', hword⟩ := (Option.any_eq_true _ _).mp hany
      have hname := hnext c' hc' hword
      have hstop := List.head?_dropWhile_not Text.isNameCharacter (c :: cs)
      rw [hc'] at hstop
      simp [hname] at hstop
    exact .identifier hid
  · rw [hkind, (Text.wordKind_eq_keyword_iff.mp hkind).1, String.ofList_toList]
    exact .keyword k

theorem genuine_of_splitQuoted? {quote : Char} {text : List Char}
    (hquote : quote = '"' ∨ quote = '\'')
    (h : Pattern.splitQuoted? quote cs = some (text, rest)) :
    (⟨.string, .ofList (quote :: text)⟩ : Terminal).Genuine := by
  have hstop := List.head?_dropWhile_not (· != quote) cs
  rw [Pattern.splitQuoted?] at h
  split at h
  · cases h
  · rename_i close rest' hdrop
    rw [hdrop] at hstop
    obtain rfl : close = quote := by simpa using hstop
    cases h
    refine .string hquote fun hmem => ?_
    have hall := List.all_eq_true.mp (List.all_takeWhile (p := (· != close)) (l := cs)) _ hmem
    simp at hall

theorem lexed_of_first? (h : first? cs = some (piece, rest)) (ht : piece.terminal? = some t) :
    t.Lexed := by
  obtain ⟨kind, hkind, rfl⟩ := Option.map_eq_some_iff.mp ht
  obtain ⟨rule, hrule, hcut⟩ := List.exists_of_findSome?_eq_some h
  obtain ⟨⟨text, rest'⟩, hsplit, heq⟩ := Option.map_eq_some_iff.mp hcut
  obtain ⟨rfl, rfl⟩ := Prod.mk.inj heq
  replace hkind : rule.kind? = some kind := hkind
  have hform := Rule.form_of_mem_all hrule hkind
  cases hpattern : rule.pattern with
  | spelled spellings =>
      rw [hpattern] at hform hsplit
      obtain ⟨s, hs, rfl⟩ := Pattern.mem_of_splitSpelled? hsplit
      rw [String.ofList_toList]
      exact .inl (hform s hs)
  | word spelling =>
      rw [hpattern] at hform hsplit
      rw [Pattern.split?] at hsplit
      split at hsplit
      · cases hsplit
      · split at hsplit
        · cases hsplit
        · cases hsplit
          rw [String.ofList_toList]
          exact .inl hform
  | digits =>
      rw [hpattern] at hform hsplit
      obtain rfl : kind = .number := hform
      have hne := Pattern.ne_nil_of_splitRun? hsplit
      rw [Pattern.split?, Pattern.splitRun?] at hsplit
      split at hsplit
      · cases hsplit
        exact .inl (.number hne (List.all_eq_true.mp List.all_takeWhile))
      · cases hsplit
  | name =>
      rw [hpattern] at hform
      exact .inr hform
  | quoted quote =>
      rw [hpattern] at hform hsplit
      obtain ⟨rfl, hquote⟩ := hform
      obtain ⟨text', -, hmap⟩ := Option.bind_eq_some_iff.mp hsplit
      obtain ⟨⟨body, rest''⟩, hbody, heq⟩ := Option.map_eq_some_iff.mp hmap
      obtain ⟨rfl, rfl⟩ := Prod.mk.inj heq
      exact .inl (genuine_of_splitQuoted? hquote hbody)
  | blanks | lineComment | blockComment =>
      rw [hpattern] at hform
      exact absurd hform id

theorem exists_cons_of_identifier (h : first? cs = some (piece, rest))
    (hkind : piece.kind? = some .identifier) :
    ∃ c cs', cs = c :: cs' ∧ Text.isNameCharacter c := by
  have hname : ∀ rule ∈ Rule.all, rule.kind? = some .identifier → rule.pattern = .name := by
    decide
  obtain ⟨rule, hrule, hcut⟩ := List.exists_of_findSome?_eq_some h
  obtain ⟨split, hsplit, heq⟩ := Option.map_eq_some_iff.mp hcut
  cases heq
  have hpattern := hname rule hrule hkind
  rw [hpattern, Pattern.split?, Pattern.splitRun?] at hsplit
  split at hsplit
  · rename_i hc
    cases cs with
    | nil => cases hc
    | cons c cs => exact ⟨c, cs, rfl, hc⟩
  · cases hsplit

theorem exists_word_of_identifier (h : first? cs = some (piece, rest))
    (hkind : piece.kind? = some .identifier) :
    ∃ c cs', cs = c :: cs' ∧ Text.isNameCharacter c ∧ c.isDigit = false ∧
      Text.wordKind cs = .identifier ∧ piece.text = cs.takeWhile Text.isNameCharacter ∧
        rest = cs.dropWhile Text.isNameCharacter := by
  obtain ⟨c, cs, rfl, hc⟩ := exists_cons_of_identifier h hkind
  cases hdigit : c.isDigit with
  | true =>
      rw [first?_of_isDigit hdigit] at h
      cases h
      cases hkind
  | false =>
      rw [first?_of_isNameCharacter hc hdigit] at h
      cases h
      exact ⟨c, cs, rfl, hc, hdigit, Option.some.inj hkind, rfl, rfl⟩

/-- Every piece that makes a terminal makes one that is genuine, unless the text breaks off. -/
theorem genuine_of_first? (h : first? cs = some (piece, rest)) (ht : piece.terminal? = some t)
    (hnext : ∀ c ∈ rest.head?, Text.isWordCharacter c → Text.isNameCharacter c) :
    t.Genuine := by
  rcases lexed_of_first? h ht with hgenuine | hidentifier
  · exact hgenuine
  · obtain ⟨kind, hkind, rfl⟩ := Option.map_eq_some_iff.mp ht
    obtain rfl : kind = .identifier := hidentifier
    obtain ⟨c, cs, rfl, hc, hdigit, hword, htext, rfl⟩ := exists_word_of_identifier h hkind
    rw [htext, ← hword]
    exact genuine_of_wordKind hc hdigit hnext

/-- Where the text breaks off, the only terminal that is not genuine is a name that spells a
keyword. -/
theorem genuine_or_spells_of_first? (h : first? cs = some (piece, rest))
    (ht : piece.terminal? = some t) :
    t.Genuine ∨ t.kind = .identifier ∧ ∃ k : Keyword, t.lexeme = k.spelling := by
  rcases lexed_of_first? h ht with hgenuine | hidentifier
  · exact .inl hgenuine
  · obtain ⟨kind, hkind, rfl⟩ := Option.map_eq_some_iff.mp ht
    obtain rfl : kind = .identifier := hidentifier
    obtain ⟨c, cs, rfl, hc, hdigit, -, htext, -⟩ := exists_word_of_identifier h hkind
    by_cases hspells : ∃ k : Keyword, String.ofList piece.text = k.spelling
    · exact .inr ⟨rfl, hspells⟩
    · have hid : Identifier.WellFormed ⟨.ofList piece.text⟩ := by
        refine ⟨?_, fun k hk => hspells ⟨k, hk.symm⟩⟩
        rw [htext]
        exact exists_cons_of_word hc hdigit
      exact .inl (.identifier hid)

end Piece

section Delimited

variable {c : Char} {cs rest : List Char}

theorem Text.following?_append_eq_none {front : List Char} (h : following? front cs = none)
    (hfront : front.any isBlank = false) (hrest : ∀ c ∈ rest.head?, isBlank c) :
    following? front (cs ++ rest) = none := by
  refine Option.eq_none_iff_forall_ne_some.mpr fun after hafter => ?_
  have hnot : ∀ after, cs ≠ front ++ after := fun after hcs => by
    rw [following?_eq_some.mpr hcs] at h
    cases h
  rcases List.append_eq_append_iff.mp (following?_eq_some.mp hafter) with
    ⟨more, hfront', hrest'⟩ | ⟨more, hcs, -⟩
  · rcases more with _ | ⟨b, more⟩
    · exact hnot [] (by simpa using hfront'.symm)
    · have hblank := hrest b (by rw [hrest']; rfl)
      have hmem : b ∈ front := by
        rw [hfront']
        simp
      exact absurd hblank (List.any_eq_false.mp hfront b hmem)
  · exact hnot more hcs

namespace Pattern

/-- Spelled by signs, or opening a comment. -/
def IsSign : Pattern → Prop
  | spelled spellings => ∀ s ∈ spellings, s.toList.any Text.isBlank = false
  | lineComment | blockComment => True
  | _ => False

instance : DecidablePred IsSign
  | spelled spellings =>
    inferInstanceAs (Decidable (∀ s ∈ spellings, s.toList.any Text.isBlank = false))
  | lineComment | blockComment => inferInstanceAs (Decidable True)
  | blanks | word _ | digits | name | quoted _ => inferInstanceAs (Decidable False)

theorem splitSpelled?_append {spellings : List String}
    (hsolid : ∀ s ∈ spellings, s.toList.any Text.isBlank = false)
    (hrest : ∀ c ∈ rest.head?, Text.isBlank c) :
    splitSpelled? spellings (cs ++ rest) =
      (splitSpelled? spellings cs).map fun (text, after) => (text, after ++ rest) := by
  induction spellings with
  | nil => rfl
  | cons s spellings ih =>
      rw [splitSpelled?, splitSpelled?]
      cases hs : Text.following? s.toList cs with
      | none =>
          rw [Text.following?_append_eq_none hs (hsolid s List.mem_cons_self) hrest]
          exact ih fun s' hs' => hsolid s' (List.mem_cons_of_mem _ hs')
      | some after =>
          have hcs := Text.following?_eq_some.mp hs
          have happend : Text.following? s.toList (cs ++ rest) = some (after ++ rest) :=
            Text.following?_eq_some.mpr (by rw [hcs, List.append_assoc])
          rw [happend]
          rfl

end Pattern

/-- What is true of a sign that opens no comment: no rule but those for signs looks at it. -/
def Text.IsSign (cs : List Char) : Prop :=
  following? ['/', '/'] cs = none ∧ following? ['/', '*'] cs = none ∧
    ∀ rule ∈ Rule.all, rule.pattern.IsSign ∨ cs.head?.any rule.pattern.opens = false

instance : DecidablePred Text.IsSign := fun _ => inferInstanceAs (Decidable (_ ∧ _ ∧ _))

theorem Rule.cut?_append {rule : Rule} (hrule : rule ∈ Rule.all) (hcs : Text.IsSign (c :: cs))
    (hrest : ∀ c ∈ rest.head?, Text.isBlank c) :
    rule.cut? (c :: cs ++ rest) =
      (rule.cut? (c :: cs)).map fun (piece, after) => (piece, after ++ rest) := by
  obtain ⟨hline, hblock, hall⟩ := hcs
  rcases hall rule hrule with hsign | hopens
  · rcases rule with ⟨pattern, kind?⟩
    cases pattern with
    | lineComment =>
        have happend := Text.following?_append_eq_none hline (by decide) hrest
        simp only [cut?, Pattern.split?, hline, happend, Option.map_none]
    | blockComment =>
        have happend := Text.following?_append_eq_none hblock (by decide) hrest
        simp only [cut?, Pattern.split?, hblock, happend, Option.bind_none, Option.map_none]
    | spelled spellings =>
        have happend : Pattern.splitSpelled? spellings (c :: cs ++ rest) = _ :=
          Pattern.splitSpelled?_append hsign hrest
        simp only [cut?, Pattern.split?, happend, Option.map_map]
        rfl
    | _ => exact absurd hsign id
  · rw [List.cons_append, cut?_eq_none hrule hopens, cut?_eq_none hrule hopens]
    rfl

theorem Piece.first?_append_of_cut? (h : ∀ rule ∈ Rule.all, rule.cut? (cs ++ rest) =
    (rule.cut? cs).map fun (piece, after) => (piece, after ++ rest)) :
    first? (cs ++ rest) = (first? cs).map fun (piece, after) => (piece, after ++ rest) := by
  rw [first?, first?, List.map_findSome?]
  generalize Rule.all = rules at h
  induction rules with
  | nil => rfl
  | cons rule rules ih =>
      rw [List.findSome?_cons, List.findSome?_cons, h rule List.mem_cons_self,
        ih fun r hr => h r (List.mem_cons_of_mem _ hr)]
      rfl

theorem Piece.first?_append (hcs : Text.IsSign (c :: cs))
    (hrest : ∀ c ∈ rest.head?, Text.isBlank c) :
    first? (c :: cs ++ rest) =
      (first? (c :: cs)).map fun (piece, after) => (piece, after ++ rest) :=
  first?_append_of_cut? fun _ hrule => Rule.cut?_append hrule hcs hrest

theorem Text.any_isWordCharacter_of_isBlank (hrest : ∀ c ∈ rest.head?, isBlank c) :
    rest.head?.any isWordCharacter = false := by
  refine Bool.eq_false_iff.mpr fun hany => ?_
  obtain ⟨c, hc, hword⟩ := (Option.any_eq_true _ _).mp hany
  exact Bool.eq_false_iff.mp (isWordCharacter_eq_false_of_isBlank (hrest c hc)) hword

theorem Text.any_isNameCharacter_of_isBlank (hrest : ∀ c ∈ rest.head?, isBlank c) :
    rest.head?.any isNameCharacter = false :=
  any_eq_false_of_imp isWordCharacter_of_isNameCharacter (any_isWordCharacter_of_isBlank hrest)

namespace Piece

open Rule

theorem first?_sign (hcs : Text.IsSign cs) {kind : TokenKind}
    (hfirst : first? cs = some (⟨some kind, cs⟩, []))
    (hrest : ∀ c ∈ rest.head?, Text.isBlank c) :
    first? (cs ++ rest) = some (⟨some kind, cs⟩, rest) := by
  rcases cs with _ | ⟨c, cs⟩
  · cases hfirst
  · rw [first?_append hcs hrest, hfirst]
    rfl

theorem first?_digits_append (hne : cs ≠ []) (hdigits : ∀ c ∈ cs, c.isDigit)
    (hnext : rest.head?.any Char.isDigit = false) :
    first? (cs ++ rest) = some (⟨some .number, cs⟩, rest) := by
  obtain ⟨htake, hdrop⟩ := Text.takeWhile_append_dropWhile_append hdigits hnext
  rcases cs with _ | ⟨c, cs⟩
  · exact absurd rfl hne
  · rw [List.cons_append] at htake hdrop ⊢
    rw [first?_of_isDigit (hdigits c List.mem_cons_self), htake, hdrop]

theorem first?_digits (hne : cs ≠ []) (hdigits : ∀ c ∈ cs, c.isDigit)
    (hrest : ∀ c ∈ rest.head?, Text.isBlank c) :
    first? (cs ++ rest) = some (⟨some .number, cs⟩, rest) := by
  have hnext := Text.any_isNameCharacter_of_isBlank hrest
  exact first?_digits_append hne hdigits
    (Text.any_eq_false_of_imp Text.isNameCharacter_of_isDigit hnext)

theorem first?_word (hc : c.isAlpha ∨ c = '_') (hcs : ∀ c ∈ cs, Text.isNameCharacter c)
    (hrest : ∀ c ∈ rest.head?, Text.isBlank c) {kind : TokenKind}
    (hkind : Text.wordKind (c :: cs ++ rest) = kind) :
    first? (c :: cs ++ rest) = some (⟨some kind, c :: cs⟩, rest) := by
  have hname := Text.isNameCharacter_of_isAlpha_or hc
  have hdigit := Text.isDigit_eq_false_of_isAlpha_or hc
  obtain ⟨htake, hdrop⟩ := Text.takeWhile_append_dropWhile_append
    (List.forall_mem_cons.mpr ⟨hname, hcs⟩) (Text.any_isNameCharacter_of_isBlank hrest)
  rw [List.cons_append] at htake hdrop hkind ⊢
  rw [first?_of_isNameCharacter hname hdigit, htake, hdrop, hkind]

theorem first?_quoted {quote : Char} (hquote : quote = '"' ∨ quote = '\'') {text : List Char}
    (htext : quote ∉ text) :
    first? (quote :: (text ++ [quote]) ++ rest) =
      some (⟨some .string, quote :: (text ++ [quote])⟩, rest) := by
  have hclose : Pattern.splitQuoted? quote (text ++ [quote] ++ rest) =
      some (text ++ [quote], rest) := by
    have hall : ∀ c ∈ text, (c != quote) = true := fun c hc =>
      bne_iff_ne.mpr fun h => htext (h ▸ hc)
    have hstop : (quote :: rest).head?.any (· != quote) = false := by simp
    obtain ⟨htake, hdrop⟩ := Text.takeWhile_append_dropWhile_append hall hstop
    rw [List.append_assoc, List.singleton_append, Pattern.splitQuoted?, hdrop, htake]
  have hcut : (⟨.quoted quote, some .string⟩ : Rule).cut? (quote :: (text ++ [quote]) ++ rest) =
      some (⟨some .string, quote :: (text ++ [quote])⟩, rest) := by
    simp only [Rule.cut?, Pattern.split?, List.cons_append, Text.following?, if_true,
      Option.bind_some, hclose, Option.map_some]
  have hall : Rule.all = (separators ++ punctuators ++ keywords ++ words ++ operators) ++ strings :=
    rfl
  rw [← hcut, first?, hall, List.findSome?_append, List.cons_append,
    findSome?_eq_none (by rw [hall]; exact List.subset_append_left _ _)
      (opens_eq_false_of_quote hquote), Option.none_or]
  rw [List.cons_append] at hcut
  rcases hquote with rfl | rfl
  · rw [strings, List.findSome?_cons, hcut]
  · have hnone :
        (⟨.quoted '"', some .string⟩ : Rule).cut? ('\'' :: (text ++ ['\''] ++ rest)) = none :=
      cut?_eq_none (by decide) (by decide)
    rw [strings, List.findSome?_cons, hnone, List.findSome?_cons, hcut]

end Piece

theorem Terminal.Genuine.first?_lexeme {t : Terminal} (ht : t.Genuine)
    (hrest : ∀ c ∈ rest.head?, Text.isBlank c) :
    Piece.first? (t.lexeme.toList ++ rest) = some (⟨some t.kind, t.lexeme.toList⟩, rest) := by
  cases ht with
  | punctuator p => cases p <;> exact Piece.first?_sign (by decide) rfl hrest
  | assignment o => cases o <;> exact Piece.first?_sign (by decide) rfl hrest
  | connective c =>
      rcases c with o | o <;> cases o <;> exact Piece.first?_sign (by decide) rfl hrest
  | prefixed o => cases o <;> exact Piece.first?_sign (by decide) rfl hrest
  | keyword k =>
      obtain ⟨c, cs, hspelling, hc, hcs⟩ : ∃ c cs, k.spelling.toList = c :: cs ∧ c.isAlpha ∧
          ∀ c ∈ cs, Text.isNameCharacter c := by
        cases k <;> exact ⟨_, _, rfl, by decide, List.all_eq_true.mp (by decide)⟩
      obtain ⟨htake, hdrop⟩ := Text.takeWhile_append_dropWhile_append k.isNameCharacter_of_mem
        (Text.any_isNameCharacter_of_isBlank hrest)
      have hkind : Text.wordKind (k.spelling.toList ++ rest) = .keyword k :=
        Text.wordKind_eq_keyword_iff.mpr
          ⟨htake, by rw [hdrop, Text.any_isWordCharacter_of_isBlank hrest]⟩
      change Piece.first? (k.spelling.toList ++ rest) = some (⟨some k, k.spelling.toList⟩, rest)
      rw [hspelling] at hkind ⊢
      exact Piece.first?_word (.inl hc) hcs hrest hkind
  | number hne hdigits =>
      rename_i digits
      rw [ofDigits, String.toList_ofList]
      exact Piece.first?_digits hne hdigits hrest
  | identifier hid =>
      rename_i id
      obtain ⟨⟨c, cs, hname, hc, hcs⟩, hne⟩ := hid
      have hall : ∀ c ∈ id.name.toList, Text.isNameCharacter c := by
        rw [hname]
        exact List.forall_mem_cons.mpr ⟨Text.isNameCharacter_of_isAlpha_or hc, hcs⟩
      obtain ⟨htake, -⟩ := Text.takeWhile_append_dropWhile_append hall
        (Text.any_isNameCharacter_of_isBlank hrest)
      have hkind : Text.wordKind (id.name.toList ++ rest) = .identifier := by
        rcases Text.wordKind_eq_identifier_or (id.name.toList ++ rest) with hkind | ⟨k, hkind⟩
        · exact hkind
        · have hk := (Text.wordKind_eq_keyword_iff.mp hkind).1
          rw [htake] at hk
          exact absurd (String.toList_inj.mp hk.symm) (hne k)
      change Piece.first? (id.name.toList ++ rest) =
        some (⟨some .identifier, id.name.toList⟩, rest)
      rw [hname] at hkind ⊢
      exact Piece.first?_word hc hcs hrest hkind
  | string hquote htext =>
      rw [quoted, String.toList_ofList]
      exact Piece.first?_quoted hquote htext

end Delimited

namespace Terminal

variable {t u : Terminal}

theorem Genuine.eq_of_lexeme_eq (ht : t.Genuine) (hu : u.Genuine)
    (h : t.lexeme = u.lexeme) : t = u := by
  have hfirst : Piece.first? (t.lexeme.toList ++ []) = some (⟨some t.kind, t.lexeme.toList⟩, []) :=
    ht.first?_lexeme nofun
  have hfirst' : Piece.first? (u.lexeme.toList ++ []) = some (⟨some u.kind, u.lexeme.toList⟩, []) :=
    hu.first?_lexeme nofun
  rw [h, hfirst'] at hfirst
  obtain ⟨kind, lexeme⟩ := t
  obtain ⟨kind', lexeme'⟩ := u
  obtain rfl : lexeme = lexeme' := h
  obtain rfl : kind' = kind := by simpa using hfirst
  rfl

theorem eq_of_lexeme_eq
    (ht : t.Genuine ∨ t.kind = .identifier ∧ ∃ k : Keyword, t.lexeme = k.spelling)
    (hu : u.Genuine) (hkeyword : ∀ k : Keyword, u.kind ≠ k) (h : t.lexeme = u.lexeme) : t = u := by
  rcases ht with ht | ⟨-, k, hk⟩
  · exact ht.eq_of_lexeme_eq hu h
  · have heq : k.terminal = u := (Genuine.keyword k).eq_of_lexeme_eq hu (hk.symm.trans h)
    exact absurd (congrArg Terminal.kind heq).symm (hkeyword k)

end Terminal

end Letter
