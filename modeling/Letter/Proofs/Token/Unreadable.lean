import Letter.Proofs.Token.Bookmark
import Mathlib.Data.List.TakeWhile

namespace Letter

/-- The characters with which a sign or a string can begin. -/
def Text.signs : List Char :=
  [';', '{', '}', '(', ')', ',', '.', '[', ']', '=', '!', '*', '/', '+', '-', '<', '>', '&', '|',
    '"', '\'']

/-- A character with which no token can begin, where some text follows. Some signs are only used
doubled, and a quote has to be closed. -/
inductive Unreadable : Char → List Char → Prop
  | ampersand {cs} (hsingle : cs.head? ≠ some '&') : Unreadable '&' cs
  | bar {cs} (hsingle : cs.head? ≠ some '|') : Unreadable '|' cs
  | quote {c cs} (hquote : c = '"' ∨ c = '\'') (hopen : c ∉ cs) : Unreadable c cs
  | foreign {c cs} (hblank : Text.isBlank c = false) (hname : Text.isNameCharacter c = false)
      (hsign : c ∉ Text.signs) : Unreadable c cs

namespace Pattern

/-- The spellings among which a pattern chooses. -/
def spellings : Pattern → List String
  | spelled spellings => spellings
  | _ => []

variable {c : Char} {cs : List Char}

theorem isSome_splitSpelled? {spellings : List String} {s : String} (hs : s ∈ spellings)
    {rest : List Char} (hcs : cs = s.toList ++ rest) : (splitSpelled? spellings cs).isSome := by
  induction spellings with
  | nil => cases hs
  | cons s' spellings ih =>
      rw [splitSpelled?]
      cases hfollowing : Text.following? s'.toList cs with
      | some rest' => rfl
      | none =>
          rcases List.mem_cons.mp hs with rfl | hs
          · rw [Text.following?_eq_some.mpr hcs] at hfollowing
            cases hfollowing
          · exact ih hs

theorem split?_ne_none_of_spelling {pattern : Pattern} {s : String} (hs : s ∈ pattern.spellings)
    {rest : List Char} (hcs : cs = s.toList ++ rest) : pattern.split? cs ≠ none := by
  cases pattern with
  | spelled spellings => exact Option.isSome_iff_ne_none.mp (isSome_splitSpelled? hs hcs)
  | _ => cases hs

theorem isSome_splitQuoted?_iff {quote : Char} :
    (splitQuoted? quote cs).isSome ↔ quote ∈ cs := by
  have hdrop : cs.dropWhile (· != quote) = [] ↔ quote ∉ cs := by
    rw [List.dropWhile_eq_nil_iff]
    constructor
    · intro h hmem
      simpa using h quote hmem
    · intro h c hc
      exact bne_iff_ne.mpr fun heq => h (heq ▸ hc)
  rw [splitQuoted?]
  split
  · rename_i hnil
    simpa using hdrop.mp hnil
  · rename_i close rest hcons
    refine iff_of_true rfl (Decidable.not_not.mp fun hnot => ?_)
    rw [hdrop.mpr hnot] at hcons
    cases hcons

theorem split?_quoted_eq_none_iff {quote : Char} :
    (quoted quote).split? (quote :: cs) = none ↔ quote ∉ cs := by
  rw [← isSome_splitQuoted?_iff, Bool.not_eq_true, Option.isSome_eq_false_iff,
    Option.isNone_iff_eq_none]
  simp [split?, Text.following?]

end Pattern

namespace Rule

variable {c : Char} {cs : List Char}

theorem exists_spelling_of_mem_signs (hc : c ∈ Text.signs) (hampersand : c ≠ '&') (hbar : c ≠ '|')
    (hquote : ¬ (c = '"' ∨ c = '\'')) :
    ∃ rule ∈ all, .ofList [c] ∈ rule.pattern.spellings := by
  have hsigns : Text.signs.all fun c => ['&', '|', '"', '\''].contains c ||
      all.any fun rule => rule.pattern.spellings.contains (.ofList [c]) := by
    decide +kernel
  have hsign := List.all_eq_true.mp hsigns c hc
  simp only [Bool.or_eq_true, List.contains_iff_mem, List.mem_cons, List.not_mem_nil, or_false,
    List.any_eq_true] at hsign
  rcases hsign with (rfl | rfl | hc) | hsign
  · exact absurd rfl hampersand
  · exact absurd rfl hbar
  · exact absurd hc hquote
  · exact hsign

theorem opens_eq_false_of_foreign (hblank : Text.isBlank c = false)
    (hname : Text.isNameCharacter c = false) (hsign : c ∉ Text.signs) :
    ∀ rule ∈ all, rule.pattern.opens c = false := by
  rcases Nat.lt_or_ge c.toNat 128 with hlt | hge
  · refine opens_eq_false_of_ascii
      (p := fun c => !Text.isBlank c && !Text.isNameCharacter c && !Text.signs.contains c)
      (by decide +kernel) hlt ?_
    simp [hblank, hname, hsign]
  · exact opens_eq_false_of_le hge hblank

theorem split?_eq_none_of_single (hc : c = '&' ∨ c = '|') (hsingle : cs.head? ≠ some c) :
    ∀ rule ∈ all, rule.pattern.split? (c :: cs) = none := by
  have hpatterns : ∀ rule ∈ all,
      (rule.pattern.opens '&' → rule.pattern = .spelled [.ofList ['&', '&']]) ∧
        (rule.pattern.opens '|' → rule.pattern = .spelled [.ofList ['|', '|']]) := by
    decide +kernel
  intro rule hrule
  refine Option.eq_none_iff_forall_ne_some.mpr fun split hsplit => ?_
  have hopens := Pattern.opens_of_split? (proper_of_mem_all hrule) hsplit
  have hpattern : rule.pattern = .spelled [.ofList [c, c]] := by
    rcases hc with rfl | rfl
    · exact (hpatterns rule hrule).1 hopens
    · exact (hpatterns rule hrule).2 hopens
  rw [hpattern, Pattern.split?] at hsplit
  have hcs := Pattern.append_of_splitSpelled? hsplit
  obtain ⟨s, hs, hlexeme⟩ := Pattern.mem_of_splitSpelled? hsplit
  obtain rfl := List.mem_singleton.mp hs
  rw [← hlexeme, String.toList_ofList] at hcs
  obtain ⟨-, rfl⟩ := List.cons.inj hcs
  exact hsingle rfl

end Rule

namespace Piece

variable {c : Char} {cs : List Char}

theorem first?_eq_none_iff_split? :
    first? cs = none ↔ ∀ rule ∈ Rule.all, rule.pattern.split? cs = none := by
  simp only [first?, List.findSome?_eq_none_iff, Rule.cut?, Option.map_eq_none_iff]

theorem first?_ne_none_of_spelling {rule : Rule} (hrule : rule ∈ Rule.all) {s : String}
    (hs : s ∈ rule.pattern.spellings) {rest : List Char} (hcs : cs = s.toList ++ rest) :
    first? cs ≠ none := fun hnone =>
  Pattern.split?_ne_none_of_spelling hs hcs (first?_eq_none_iff_split?.mp hnone rule hrule)

/-- No rule matches if and only if no token and no separator can begin with the next character. -/
theorem first?_eq_none_iff : first? (c :: cs) = none ↔ Unreadable c cs := by
  constructor
  · intro hnone
    by_cases hblank : Text.isBlank c = true
    · rw [first?_of_isBlank hblank] at hnone
      cases hnone
    by_cases hname : Text.isNameCharacter c = true
    · cases hdigit : c.isDigit with
      | true =>
          rw [first?_of_isDigit hdigit] at hnone
          cases hnone
      | false =>
          rw [first?_of_isNameCharacter hname hdigit] at hnone
          cases hnone
    by_cases hsign : c ∈ Text.signs
    · by_cases hampersand : c = '&'
      · subst hampersand
        refine .ampersand fun hhead => ?_
        obtain ⟨cs, rfl⟩ := List.head?_eq_some_iff.mp hhead
        have hrule : (⟨.spelled ["&&"], some .logicalAnd⟩ : Rule) ∈ Rule.all := by decide
        exact first?_ne_none_of_spelling hrule List.mem_cons_self rfl hnone
      by_cases hbar : c = '|'
      · subst hbar
        refine .bar fun hhead => ?_
        obtain ⟨cs, rfl⟩ := List.head?_eq_some_iff.mp hhead
        have hrule : (⟨.spelled ["||"], some .logicalOr⟩ : Rule) ∈ Rule.all := by decide
        exact first?_ne_none_of_spelling hrule List.mem_cons_self rfl hnone
      by_cases hquote : c = '"' ∨ c = '\''
      · have hrule : (⟨.quoted c, some .string⟩ : Rule) ∈ Rule.all := by
          rcases hquote with rfl | rfl <;> decide
        exact .quote hquote
          (Pattern.split?_quoted_eq_none_iff.mp (first?_eq_none_iff_split?.mp hnone _ hrule))
      · obtain ⟨rule, hrule, hspelling⟩ :=
          Rule.exists_spelling_of_mem_signs hsign hampersand hbar hquote
        have hcs : c :: cs = (String.ofList [c]).toList ++ cs := by rw [String.toList_ofList]; rfl
        exact absurd hnone (first?_ne_none_of_spelling hrule hspelling hcs)
    · exact .foreign (Bool.eq_false_iff.mpr hblank) (Bool.eq_false_iff.mpr hname) hsign
  · intro hunreadable
    refine first?_eq_none_iff_split?.mpr ?_
    cases hunreadable with
    | ampersand hsingle => exact Rule.split?_eq_none_of_single (.inl rfl) hsingle
    | bar hsingle => exact Rule.split?_eq_none_of_single (.inr rfl) hsingle
    | quote hquote hopen =>
        intro rule hrule
        refine Option.eq_none_iff_forall_ne_some.mpr fun split hsplit => ?_
        have hpattern := Rule.eq_quoted_of_opens hquote hrule
          (Pattern.opens_of_split? (Rule.proper_of_mem_all hrule) hsplit)
        rw [hpattern, Pattern.split?_quoted_eq_none_iff.mpr hopen] at hsplit
        cases hsplit
    | foreign hblank hname hsign =>
        intro rule hrule
        exact Option.map_eq_none_iff.mp (Rule.cut?_eq_none hrule
          (Rule.opens_eq_false_of_foreign hblank hname hsign rule hrule))

end Piece

namespace Tokenizer

/-- The states in which a tokenizer of a source looks for a rule, or is left by a call. -/
inductive Reached (source : String) : Tokenizer → Prop
  | start : Reached source (ofSource source)
  | past {t piece rest} (ht : Reached source t)
      (hfirst : Piece.first? t.rest = some (piece, rest)) :
      Reached source (t.past piece rest)
  | failed {t} (ht : Reached source t) (hfirst : Piece.first? t.rest = none) :
      Reached source { t with failed := true }

/-- The rounds of reading up to the next token, with what they come to and where they end. -/
inductive Reads : Tokenizer → Except SourceError Token → Tokenizer → Prop
  | atEnd {t} (hrest : t.rest = []) : Reads t (.ok (.endOfInput t.cursor)) t
  | stuck {t c cs} (hrest : t.rest = c :: cs) (hfirst : Piece.first? t.rest = none) :
      Reads t (.error (.lexical t.source t.cursor c)) { t with failed := true }
  | separator {t piece rest result t'} (hfirst : Piece.first? t.rest = some (piece, rest))
      (hkind : piece.kind? = none) (hread : Reads (t.past piece rest) result t') :
      Reads t result t'
  | token {t piece rest kind} (hfirst : Piece.first? t.rest = some (piece, rest))
      (hkind : piece.kind? = some kind) :
      Reads t (.ok ⟨⟨kind, .ofList piece.text⟩, t.cursor⟩) (t.past piece rest)

variable {source : String} {t t' : Tokenizer} {result : Except SourceError Token}

theorem reads_nextToken (t : Tokenizer) : Reads t t.nextToken.1 t.nextToken.2 := by
  obtain ⟨source, cs, cursor, failed⟩ := t
  induction cs using Piece.cut_induction generalizing cursor with
  | stuck cs hfirst =>
      cases cs with
      | nil => exact .atEnd rfl
      | cons c cs =>
          rw [nextToken_of_first?_eq_none hfirst]
          exact .stuck rfl hfirst
  | piece cs piece rest hfirst ih =>
      cases hkind : piece.kind? with
      | none =>
          rw [nextToken_of_separator hfirst hkind]
          exact .separator hfirst hkind (ih _)
      | some kind =>
          rw [nextToken_of_token hfirst hkind]
          exact .token hfirst hkind

theorem Reached.of_reads (ht : Reached source t) (hread : Reads t result t') :
    Reached source t' := by
  induction hread with
  | atEnd hrest => exact ht
  | stuck hrest hfirst => exact .failed ht hfirst
  | separator hfirst hkind hread ih => exact ih (.past ht hfirst)
  | token hfirst hkind => exact .past ht hfirst

theorem Reached.unread (ht : Reached source t) :
    t.source = source ∧ ∃ before, source.toList = before ++ t.rest ∧
      Text.size before = t.cursor := by
  induction ht with
  | start => exact ⟨rfl, [], rfl, rfl⟩
  | @past t piece rest ht hfirst ih =>
      obtain ⟨hsource, before, hcs, hsize⟩ := ih
      refine ⟨hsource, before ++ piece.text, ?_, ?_⟩
      · rw [hcs, Piece.append_of_first? hfirst, List.append_assoc]
        rfl
      · rw [Text.size_append, hsize]
        rfl
  | failed ht hfirst ih => exact ih

theorem Reached.exists_standsAt (ht : Reached source t) (hmore : t.hasMore) :
    ∃ c cs, t.rest = c :: cs ∧ Text.StandsAt source.toList t.cursor [c] cs := by
  obtain ⟨hsource, before, hcs, hsize⟩ := ht.unread
  have hlt : t.cursor < t.source.utf8ByteSize := of_decide_eq_true hmore
  cases hrest : t.rest with
  | nil =>
      have hend : t.cursor = t.source.utf8ByteSize := by
        rw [hsource, ← Text.size_toList, hcs, hrest, List.append_nil, hsize]
      omega
  | cons c cs => exact ⟨c, cs, rfl, before, by rw [hcs, hrest]; rfl, hsize⟩

theorem next?_toList (source : String) : (ofSource source).toList.2.next?.1 = none := by
  rw [toList_ofSource]
  cases hcut : (Piece.cut source.toList).2 with
  | nil =>
      rw [Scan.ofSource, Scan.stuck?_ofText, hcut]
      rfl
  | cons c cs =>
      rw [Scan.ofSource, Scan.stuck?_ofText, hcut]
      rfl

/-- At every cursor with text behind it, the search for a rule fails if and only if no token and no
separator can begin there, which is a lexical error; else the rule that is found matches at least
one character. So reading always comes to an end, and a source has no more tokens than
characters. -/
theorem first?_eq_none_iff_unreadable (source : String) :
    (∀ t, Reached source t →
      Reads t t.nextToken.1 t.nextToken.2 ∧ Reached source t.nextToken.2 ∧
      (t.hasMore → ∃ c cs, t.rest = c :: cs ∧ Text.StandsAt source.toList t.cursor [c] cs ∧
        (Piece.first? t.rest = none ↔ Unreadable c cs) ∧
        (Unreadable c cs →
          t.nextToken = (.error (.lexical source t.cursor c), { t with failed := true })) ∧
        (¬ Unreadable c cs → ∃ piece rest, Piece.first? t.rest = some (piece, rest) ∧
          piece.text ≠ [] ∧ t.rest = piece.text ++ rest))) ∧
    (ofSource source).toList.1.countP (·.isOk) ≤ source.length ∧
    (ofSource source).toList.2.next?.1 = none := by
  refine ⟨fun t ht => ⟨reads_nextToken t, ht.of_reads (reads_nextToken t), fun hmore => ?_⟩, ?_,
    next?_toList source⟩
  · obtain ⟨c, cs, hrest, hstands⟩ := ht.exists_standsAt hmore
    have hiff : Piece.first? t.rest = none ↔ Unreadable c cs := by
      rw [hrest]
      exact Piece.first?_eq_none_iff
    refine ⟨c, cs, hrest, hstands, hiff, fun hunreadable => ?_, fun hreadable => ?_⟩
    · have hfirst := hiff.mpr hunreadable
      obtain ⟨hsource, -⟩ := ht.unread
      obtain ⟨source', rest, cursor, failed⟩ := t
      obtain rfl : rest = c :: cs := hrest
      obtain rfl : source' = source := hsource
      exact nextToken_of_first?_eq_none hfirst
    · obtain ⟨⟨piece, rest⟩, hfirst⟩ := Option.ne_none_iff_exists'.mp (mt hiff.mp hreadable)
      exact ⟨piece, rest, hfirst, Piece.ne_nil_of_first? hfirst, Piece.append_of_first? hfirst⟩
  · rw [countP_isOk_toList, Scan.terminals, List.length_map]
    exact Scan.length_tokens_le source

theorem unreadable_of_open_quote :
    Reached "a'b\"" ⟨"a'b\"", ['\'', 'b', '"'], 1, false⟩ ∧
      Tokenizer.hasMore ⟨"a'b\"", ['\'', 'b', '"'], 1, false⟩ ∧
      Unreadable '\'' ['b', '"'] ∧
      nextToken ⟨"a'b\"", ['\'', 'b', '"'], 1, false⟩ =
        (.error (.lexical "a'b\"" 1 '\''), ⟨"a'b\"", ['\'', 'b', '"'], 1, true⟩) := by
  have hfirst : Piece.first? (ofSource "a'b\"").rest =
      some (⟨some .identifier, ['a']⟩, ['\'', 'b', '"']) := by
    decide +kernel
  have hreached : Reached "a'b\"" ⟨"a'b\"", ['\'', 'b', '"'], 1, false⟩ :=
    Reached.past .start hfirst
  have hmore : Tokenizer.hasMore ⟨"a'b\"", ['\'', 'b', '"'], 1, false⟩ := by decide
  have hopen : Unreadable '\'' ['b', '"'] := .quote (.inr rfl) (by decide)
  obtain ⟨-, -, hcursor⟩ := (first?_eq_none_iff_unreadable "a'b\"").1 _ hreached
  obtain ⟨c, cs, hrest, -, -, herror, -⟩ := hcursor hmore
  obtain ⟨rfl, rfl⟩ := List.cons.inj hrest
  exact ⟨hreached, hmore, hopen, herror hopen⟩

end Tokenizer

end Letter
