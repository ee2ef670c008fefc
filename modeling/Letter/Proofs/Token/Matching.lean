import Letter.Token.Rule
import Letter.Proofs.Text.Character

namespace Letter

namespace Pattern

/-- The characters with which a fixed spelling begins. -/
def openers : Pattern → List Char
  | lineComment | blockComment => ['/']
  | spelled spellings => spellings.filterMap (·.toList.head?)
  | word spelling => spelling.toList.head?.toList
  | quoted quote => [quote]
  | blanks | digits | name => []

/-- Whether a match can begin with a character. -/
def opens : Pattern → Char → Bool
  | blanks, c => Text.isBlank c
  | digits, c => c.isDigit
  | name, c => Text.isNameCharacter c
  | pattern, c => pattern.openers.contains c

variable {c : Char} {cs front rest : List Char}

theorem head?_of_following? (h : Text.following? front (c :: cs) = some rest)
    (hfront : front ≠ []) : front.head? = some c := by
  have heq := Text.following?_eq_some.mp h
  cases front with
  | nil => exact absurd rfl hfront
  | cons f front =>
      obtain ⟨rfl, -⟩ := List.cons.inj heq
      rfl

theorem opens_of_split? {pattern : Pattern} {split : List Char × List Char}
    (hproper : pattern.Proper) (h : pattern.split? (c :: cs) = some split) : pattern.opens c := by
  cases pattern with
  | blanks | digits | name =>
      rw [split?, splitRun?] at h
      split at h
      · rename_i hc
        exact hc
      · cases h
  | lineComment =>
      obtain ⟨line, hline, -⟩ := Option.map_eq_some_iff.mp h
      obtain rfl := Option.some.inj (head?_of_following? hline (List.cons_ne_nil _ _))
      rfl
  | blockComment =>
      obtain ⟨text, htext, -⟩ := Option.bind_eq_some_iff.mp h
      obtain rfl := Option.some.inj (head?_of_following? htext (List.cons_ne_nil _ _))
      rfl
  | spelled spellings =>
      obtain ⟨s, hs, heq⟩ := mem_of_splitSpelled? h
      have hcs := append_of_splitSpelled? h
      rw [← heq] at hcs
      have hhead := head?_of_following? (Text.following?_eq_some.mpr hcs) (hproper s hs)
      exact List.contains_iff_mem.mpr (List.mem_filterMap.mpr ⟨s, hs, hhead⟩)
  | word spelling =>
      rw [split?] at h
      split at h
      · cases h
      · rename_i hs
        refine List.contains_iff_mem.mpr (Option.mem_toList.mpr ?_)
        exact head?_of_following? hs hproper
  | quoted quote =>
      obtain ⟨text, htext, -⟩ := Option.bind_eq_some_iff.mp h
      obtain rfl := Option.some.inj (head?_of_following? htext (List.cons_ne_nil _ _))
      exact List.contains_iff_mem.mpr List.mem_cons_self

end Pattern

namespace Rule

variable {c : Char} {cs : List Char}

theorem cut?_eq_none {rule : Rule} (hrule : rule ∈ all) (hopens : rule.pattern.opens c = false) :
    rule.cut? (c :: cs) = none := by
  refine Option.map_eq_none_iff.mpr (Option.eq_none_iff_forall_ne_some.mpr fun split hsplit => ?_)
  exact Bool.eq_false_iff.mp hopens (Pattern.opens_of_split? (proper_of_mem_all hrule) hsplit)

theorem findSome?_eq_none {rules : List Rule} (hrules : rules ⊆ all)
    (hopens : ∀ rule ∈ rules, rule.pattern.opens c = false) :
    rules.findSome? (·.cut? (c :: cs)) = none :=
  List.findSome?_eq_none_iff.mpr fun rule hrule =>
    cut?_eq_none (hrules hrule) (hopens rule hrule)

theorem opens_eq_false_of_ascii {rules : List Rule} {p : Char → Bool}
    (hrules : ∀ rule ∈ rules, ∀ n < 128, p (Char.ofNat n) →
      rule.pattern.opens (Char.ofNat n) = false)
    (hlt : c.toNat < 128) (hc : p c) : ∀ rule ∈ rules, rule.pattern.opens c = false := by
  -- beyond the table only finitely many characters are left to be tried
  intro rule hrule
  have hopens := hrules rule hrule c.toNat hlt
  rw [Char.ofNat_toNat] at hopens
  exact hopens hc

theorem opens_eq_false_of_isNameCharacter (hc : Text.isNameCharacter c) :
    ∀ rule ∈ separators ++ punctuators ++ operators ++ strings,
      rule.pattern.opens c = false := by
  have hlt : c.toNat < 128 := by
    have := Text.isNameCharacter_iff.mp hc
    omega
  exact opens_eq_false_of_ascii (by decide +kernel) hlt hc

theorem opens_eq_false_of_isDigit (hc : c.isDigit) :
    ∀ rule ∈ keywords, rule.pattern.opens c = false := by
  have hlt : c.toNat < 128 := by
    have := Text.isNameCharacter_iff.mp (Text.isNameCharacter_of_isDigit hc)
    omega
  exact opens_eq_false_of_ascii (by decide +kernel) hlt hc

theorem opens_eq_false_of_quote {quote : Char} (hquote : quote = '"' ∨ quote = '\'') :
    ∀ rule ∈ separators ++ punctuators ++ keywords ++ words ++ operators,
      rule.pattern.opens quote = false := by
  rcases hquote with rfl | rfl <;> decide +kernel

theorem eq_quoted_of_opens {quote : Char} (hquote : quote = '"' ∨ quote = '\'')
    {rule : Rule} (hrule : rule ∈ all) (hopens : rule.pattern.opens quote) :
    rule.pattern = .quoted quote := by
  rcases List.mem_append.mp hrule with hother | hstring
  · rw [opens_eq_false_of_quote hquote rule hother] at hopens
    cases hopens
  · simp only [strings, List.mem_cons, List.not_mem_nil, or_false] at hstring
    rcases hstring with rfl | rfl <;>
    · obtain rfl := List.mem_singleton.mp (List.contains_iff_mem.mp hopens)
      rfl

theorem opens_eq_false_of_le (hc : 128 ≤ c.toNat) (hblank : Text.isBlank c = false) :
    ∀ rule ∈ all, rule.pattern.opens c = false := by
  have hascii : ∀ rule ∈ all, rule.pattern.openers.all (·.toNat < 128) := by decide +kernel
  have hname : Text.isNameCharacter c = false := by
    refine Bool.eq_false_iff.mpr fun h => ?_
    have := Text.isNameCharacter_iff.mp h
    omega
  intro rule hrule
  have hopeners : rule.pattern.openers.contains c = false := by
    refine Bool.eq_false_iff.mpr fun h => ?_
    have hmem := List.all_eq_true.mp (hascii rule hrule) c (List.contains_iff_mem.mp h)
    have : c.toNat < 128 := of_decide_eq_true hmem
    omega
  cases hpattern : rule.pattern with
  | blanks => exact hblank
  | digits =>
      refine Bool.eq_false_iff.mpr fun h => ?_
      exact Bool.eq_false_iff.mp hname (Text.isNameCharacter_of_isDigit h)
  | name => exact hname
  | _ =>
      rw [hpattern] at hopeners
      exact hopeners

end Rule

namespace Pattern

variable {cs rest : List Char}

theorem split?_word {spelling : String}
    (hspelling : ∀ c ∈ spelling.toList, Text.isNameCharacter c) :
    (word spelling).split? cs =
      if cs.takeWhile Text.isNameCharacter = spelling.toList ∧
          (cs.dropWhile Text.isNameCharacter).head?.any Text.isWordCharacter = false then
        some (spelling.toList, cs.dropWhile Text.isNameCharacter)
      else none := by
  have hcs : cs.takeWhile Text.isNameCharacter ++ cs.dropWhile Text.isNameCharacter = cs :=
    List.takeWhile_append_dropWhile
  rw [split?]
  cases hfollowing : Text.following? spelling.toList cs with
  | none =>
      rw [if_neg]
      rintro ⟨htake, -⟩
      rw [htake] at hcs
      rw [Text.following?_eq_some.mpr hcs.symm] at hfollowing
      cases hfollowing
  | some rest =>
      obtain rfl := Text.following?_eq_some.mp hfollowing
      dsimp only
      cases hnext : rest.head?.any Text.isWordCharacter with
      | true =>
          rw [if_pos rfl, if_neg]
          rintro ⟨htake, hdrop⟩
          rw [htake] at hcs
          rw [List.append_cancel_left hcs, hnext] at hdrop
          cases hdrop
      | false =>
          have hrest : rest.head?.any Text.isNameCharacter = false := by
            refine Bool.eq_false_iff.mpr fun h => Bool.eq_false_iff.mp hnext ?_
            obtain ⟨c, hc, hname⟩ := (Option.any_eq_true _ _).mp h
            exact (Option.any_eq_true _ _).mpr
              ⟨c, hc, Text.isWordCharacter_of_isNameCharacter hname⟩
          obtain ⟨htake, hdrop⟩ := Text.takeWhile_append_dropWhile_append hspelling hrest
          rw [if_neg Bool.false_ne_true, htake, hdrop, if_pos ⟨rfl, hnext⟩]

end Pattern

/-- The kind of the word, not a number, with which a text begins. -/
def Text.wordKind (cs : List Char) : TokenKind :=
  if (cs.dropWhile isNameCharacter).head?.any isWordCharacter then .identifier
  else
    match (Spelled.ofSpelling? (.ofList (cs.takeWhile isNameCharacter)) : Option Keyword) with
    | some k => .keyword k
    | none => .identifier

theorem Text.wordKind_eq_keyword_iff {cs : List Char} {k : Keyword} :
    wordKind cs = .keyword k ↔ cs.takeWhile isNameCharacter = k.spelling.toList ∧
      (cs.dropWhile isNameCharacter).head?.any isWordCharacter = false := by
  have hspelled : Spelled.ofSpelling? (.ofList (cs.takeWhile isNameCharacter)) = some k ↔
      cs.takeWhile isNameCharacter = k.spelling.toList := by
    rw [Spelled.ofSpelling?_eq_some_iff, ← String.toList_inj, String.toList_ofList, eq_comm]
    rfl
  rw [wordKind, ← hspelled]
  cases (cs.dropWhile isNameCharacter).head?.any isWordCharacter with
  | true => simp
  | false =>
      cases (Spelled.ofSpelling? (.ofList (cs.takeWhile isNameCharacter)) : Option Keyword) <;>
        simp

theorem Text.wordKind_eq_identifier_or (cs : List Char) :
    wordKind cs = .identifier ∨ ∃ k : Keyword, wordKind cs = .keyword k := by
  rw [wordKind]
  split
  · exact .inl rfl
  · split
    · exact .inr ⟨_, rfl⟩
    · exact .inl rfl

theorem Keyword.isNameCharacter_of_mem (k : Keyword) :
    ∀ c ∈ k.spelling.toList, Text.isNameCharacter c := by
  refine List.all_eq_true.mp ?_
  cases k <;> decide

namespace Rule

variable {c : Char} {cs : List Char}

theorem cut?_keyword (k : Keyword) :
    (⟨.word k.spelling, some (.keyword k)⟩ : Rule).cut? cs =
      if Text.wordKind cs = .keyword k then
        some (⟨some (.keyword k), cs.takeWhile Text.isNameCharacter⟩,
          cs.dropWhile Text.isNameCharacter)
      else none := by
  rw [cut?, Pattern.split?_word k.isNameCharacter_of_mem]
  by_cases hk : Text.wordKind cs = .keyword k
  · have htake := Text.wordKind_eq_keyword_iff.mp hk
    rw [if_pos htake, if_pos hk, htake.1]
    rfl
  · rw [if_neg (fun htake => hk (Text.wordKind_eq_keyword_iff.mpr htake)), if_neg hk]
    rfl

theorem findSome?_keywords :
    keywords.findSome? (·.cut? cs) =
      match Text.wordKind cs with
      | .keyword k => some (⟨some (.keyword k), cs.takeWhile Text.isNameCharacter⟩,
          cs.dropWhile Text.isNameCharacter)
      | _ => none := by
  rw [keywords, List.findSome?_map]
  rcases Text.wordKind_eq_identifier_or cs with hkind | ⟨k, hkind⟩
  · rw [hkind]
    refine List.findSome?_eq_none_iff.mpr fun k _ => ?_
    exact (cut?_keyword k).trans (if_neg (by simp [hkind]))
  · rw [hkind]
    have hk := (cut?_keyword k).trans (if_pos hkind)
    cases hfound : Keyword.all.findSome? _ with
    | none =>
        have hnone := List.findSome?_eq_none_iff.mp hfound k (Spelled.mem_all k)
        cases hnone.symm.trans hk
    | some result =>
        obtain ⟨k', -, hk'⟩ := List.exists_of_findSome?_eq_some hfound
        have hkind' := (cut?_keyword k').symm.trans hk'
        split at hkind'
        · rename_i h
          obtain rfl : k = k' := by simpa [hkind] using h
          exact hk'.symm.trans hk
        · cases hkind'

end Rule

namespace Piece

open Rule

variable {c : Char} {cs : List Char}

theorem first?_eq_or (cs : List Char) :
    first? cs = ((separators ++ punctuators).findSome? (·.cut? cs)).or
      ((keywords.findSome? (·.cut? cs)).or ((words.findSome? (·.cut? cs)).or
        ((operators ++ strings).findSome? (·.cut? cs)))) := by
  simp only [first?, all, List.findSome?_append, Option.or_assoc]

theorem findSome?_separators_punctuators (hc : Text.isNameCharacter c) :
    (separators ++ punctuators).findSome? (·.cut? (c :: cs)) = none := by
  refine findSome?_eq_none (by simp [all]) fun rule hrule => ?_
  refine opens_eq_false_of_isNameCharacter hc rule ?_
  rw [List.append_assoc (separators ++ punctuators)]
  exact List.mem_append_left _ hrule

theorem first?_of_isBlank (hc : Text.isBlank c) :
    first? (c :: cs) =
      some (⟨none, (c :: cs).takeWhile Text.isBlank⟩, (c :: cs).dropWhile Text.isBlank) := by
  have hblanks : (⟨.blanks, none⟩ : Rule).cut? (c :: cs) =
      some (⟨none, (c :: cs).takeWhile Text.isBlank⟩, (c :: cs).dropWhile Text.isBlank) := by
    simp [cut?, Pattern.split?, Pattern.splitRun?, hc]
  rw [first?, all, separators, List.cons_append, List.cons_append, List.cons_append,
    List.cons_append, List.cons_append, List.findSome?_cons, hblanks]

theorem first?_of_isDigit (hc : c.isDigit) :
    first? (c :: cs) =
      some (⟨some .number, (c :: cs).takeWhile Char.isDigit⟩,
        (c :: cs).dropWhile Char.isDigit) := by
  have hkeywords : keywords.findSome? (·.cut? (c :: cs)) = none :=
    findSome?_eq_none (fun rule hrule => by simp [all, hrule]) (opens_eq_false_of_isDigit hc)
  rw [first?_eq_or, findSome?_separators_punctuators (Text.isNameCharacter_of_isDigit hc),
    hkeywords, Option.none_or, Option.none_or]
  simp [words, cut?, Pattern.split?, Pattern.splitRun?, hc]

theorem first?_of_isNameCharacter (hc : Text.isNameCharacter c) (hdigit : c.isDigit = false) :
    first? (c :: cs) =
      some (⟨some (Text.wordKind (c :: cs)), (c :: cs).takeWhile Text.isNameCharacter⟩,
        (c :: cs).dropWhile Text.isNameCharacter) := by
  rw [first?_eq_or, findSome?_separators_punctuators hc, findSome?_keywords, Option.none_or]
  have hname : words.findSome? (·.cut? (c :: cs)) =
      some (⟨some .identifier, (c :: cs).takeWhile Text.isNameCharacter⟩,
        (c :: cs).dropWhile Text.isNameCharacter) := by
    simp [words, cut?, Pattern.split?, Pattern.splitRun?, hc, hdigit]
  rcases Text.wordKind_eq_identifier_or (c :: cs) with hkind | ⟨k, hkind⟩
  · rw [hkind, hname]
    rfl
  · rw [hkind]
    rfl

theorem first?_of_isWordCharacter (hc : Text.isWordCharacter c)
    (hname : Text.isNameCharacter c = false) : first? (c :: cs) = none := by
  obtain ⟨hle, hblank⟩ := Text.of_isWordCharacter hc hname
  exact findSome?_eq_none (List.Subset.refl _) (opens_eq_false_of_le hle hblank)

end Piece

end Letter
