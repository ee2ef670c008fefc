import Letter.Proofs.Token.Matching

namespace Letter

theorem Text.size_le_of_prefix {cs ds : List Char} (h : cs <+: ds) : size cs ≤ size ds := by
  obtain ⟨more, rfl⟩ := h
  rw [size_append]
  exact Nat.le_add_right _ _

namespace Pattern

/-- Whatever the second pattern matches at the front of a text, the first one, if it matches there,
matches as much. -/
def Outreaches (pattern pattern' : Pattern) : Prop :=
  ∀ {cs text rest text' rest'}, pattern.split? cs = some (text, rest) →
    pattern'.split? cs = some (text', rest') → text' <+: text

/-- The patterns that match all characters of a class. -/
def isClass : Pattern → Bool
  | blanks | digits | name => true
  | _ => false

/-- No character begins matches of both patterns, of which one has finitely many openers. -/
def isApart (pattern pattern' : Pattern) : Bool :=
  !pattern.isClass && pattern.openers.all (!pattern'.opens ·) ||
    !pattern'.isClass && pattern'.openers.all (!pattern.opens ·)

/-- A criterion on two patterns for the first to match whatever the second one does. -/
def isGreedier : Pattern → Pattern → Bool
  | blanks, digits | blanks, name => true
  | lineComment, blockComment => true
  | lineComment, spelled spellings | blockComment, spelled spellings =>
    spellings.all (·.toList.length ≤ 2)
  | spelled spellings, spelled spellings' =>
    spellings.all fun s => spellings'.all fun s' =>
      !s.toList.isPrefixOf s'.toList || s'.toList.isPrefixOf s.toList
  | word spelling, word spelling' =>
    spelling.toList.all Text.isNameCharacter && spelling'.toList.all Text.isNameCharacter
  | word spelling, name => spelling.toList.all Text.isNameCharacter
  | pattern, pattern' => pattern.isApart pattern'

variable {pattern pattern' : Pattern} {c : Char} {cs text rest : List Char}
  {spelling : String} {spellings spellings' : List String}

theorem opens_of_isClass_eq_false (h : pattern.isClass = false) :
    pattern.opens c = pattern.openers.contains c := by
  cases pattern with
  | blanks | digits | name => cases h
  | _ => rfl

theorem not_opens_of_isApart (h : pattern.isApart pattern') (hopens : pattern.opens c) :
    ¬ pattern'.opens c := by
  intro hopens'
  simp only [isApart, Bool.or_eq_true, Bool.and_eq_true, Bool.not_eq_true', List.all_eq_true] at h
  rcases h with ⟨hclass, hapart⟩ | ⟨hclass, hapart⟩
  · rw [opens_of_isClass_eq_false hclass] at hopens
    simp [hapart c (List.contains_iff_mem.mp hopens)] at hopens'
  · rw [opens_of_isClass_eq_false hclass] at hopens'
    simp [hapart c (List.contains_iff_mem.mp hopens')] at hopens

theorem eq_takeWhile_of_splitRun? {p : Char → Bool} (h : splitRun? p cs = some (text, rest)) :
    text = cs.takeWhile p ∧ rest = cs.dropWhile p := by
  rw [splitRun?] at h
  split at h
  · cases h
    exact ⟨rfl, rfl⟩
  · cases h

theorem eq_takeWhile_of_split?_name (h : name.split? cs = some (text, rest)) :
    text = cs.takeWhile Text.isNameCharacter := by
  have hrun : splitRun? Text.isNameCharacter cs = some (text, rest) := h
  exact (eq_takeWhile_of_splitRun? hrun).1

theorem eq_takeWhile_of_split?_word (hspelling : spelling.toList.all Text.isNameCharacter)
    (h : (word spelling).split? cs = some (text, rest)) :
    text = cs.takeWhile Text.isNameCharacter := by
  rw [split?_word (List.all_eq_true.mp hspelling)] at h
  split at h
  · rename_i htake
    cases h
    exact htake.1.symm
  · cases h

theorem exists_lineComment (h : lineComment.split? cs = some (text, rest)) :
    ∃ line, text = '/' :: '/' :: line := by
  obtain ⟨line, -, heq⟩ := Option.map_eq_some_iff.mp h
  cases heq
  exact ⟨_, rfl⟩

theorem exists_blockComment (h : blockComment.split? cs = some (text, rest)) :
    ∃ comment, text = '/' :: '*' :: comment := by
  obtain ⟨after, -, hmap⟩ := Option.bind_eq_some_iff.mp h
  obtain ⟨split, -, heq⟩ := Option.map_eq_some_iff.mp hmap
  cases heq
  exact ⟨_, rfl⟩

theorem prefix_of_length_le {text' rest' : List Char}
    (h : pattern.split? cs = some (text, rest)) (h' : pattern'.split? cs = some (text', rest'))
    (hle : text'.length ≤ text.length) : text' <+: text := by
  have hcs := append_of_split? h
  have hcs' := append_of_split? h'
  exact List.prefix_of_prefix_length_le ⟨rest', hcs'.symm⟩ ⟨rest, hcs.symm⟩ hle

theorem outreaches_of_not_opens (hproper : pattern.Proper) (hproper' : pattern'.Proper)
    (h : ∀ {c}, pattern.opens c → ¬ pattern'.opens c) : pattern.Outreaches pattern' := by
  intro cs text rest text' rest' hsplit hsplit'
  cases cs with
  | nil =>
      have hne := ne_nil_of_split? hproper hsplit
      exact absurd (List.append_eq_nil_iff.mp (append_of_split? hsplit).symm).1 hne
  | cons c cs =>
      exact absurd (opens_of_split? hproper' hsplit') (h (opens_of_split? hproper hsplit))

theorem outreaches_blanks (hproper : pattern.Proper)
    (h : ∀ {c}, pattern.opens c → Text.isNameCharacter c) : blanks.Outreaches pattern := by
  refine outreaches_of_not_opens (show Proper blanks from trivial) hproper ?_
  intro c hblank hopens
  have hnot := Text.isBlank_eq_false_of_isNameCharacter (h hopens)
  exact Bool.eq_false_iff.mp hnot hblank

theorem outreaches_spelled (h : isGreedier (spelled spellings) (spelled spellings')) :
    (spelled spellings).Outreaches (spelled spellings') := by
  intro cs text rest text' rest' hsplit hsplit'
  rcases Nat.le_total text'.length text.length with hle | hle
  · exact prefix_of_length_le hsplit hsplit' hle
  · have hprefix := prefix_of_length_le hsplit' hsplit hle
    obtain ⟨s, hs, rfl⟩ := mem_of_splitSpelled? hsplit
    obtain ⟨s', hs', rfl⟩ := mem_of_splitSpelled? hsplit'
    have hboth := List.all_eq_true.mp (List.all_eq_true.mp h s hs) s' hs'
    simpa [List.isPrefixOf_iff_prefix.mpr hprefix] using hboth

theorem outreaches_of_two_le (hlength : ∀ {cs text rest}, pattern.split? cs = some (text, rest) →
      2 ≤ text.length) (h : spellings.all (·.toList.length ≤ 2)) :
    pattern.Outreaches (spelled spellings) := by
  intro cs text rest text' rest' hsplit hsplit'
  obtain ⟨s, hs, rfl⟩ := mem_of_splitSpelled? hsplit'
  have hle : s.toList.length ≤ 2 := of_decide_eq_true (List.all_eq_true.mp h s hs)
  exact prefix_of_length_le hsplit hsplit' (Nat.le_trans hle (hlength hsplit))

theorem two_le_length_of_lineComment (h : lineComment.split? cs = some (text, rest)) :
    2 ≤ text.length := by
  obtain ⟨line, rfl⟩ := exists_lineComment h
  exact Nat.le_add_left 2 _

theorem two_le_length_of_blockComment (h : blockComment.split? cs = some (text, rest)) :
    2 ≤ text.length := by
  obtain ⟨comment, rfl⟩ := exists_blockComment h
  exact Nat.le_add_left 2 _

theorem outreaches_lineComment : lineComment.Outreaches blockComment := by
  intro cs text rest text' rest' hsplit hsplit'
  obtain ⟨line, rfl⟩ := exists_lineComment hsplit
  obtain ⟨comment, rfl⟩ := exists_blockComment hsplit'
  have hcs := (append_of_split? hsplit).symm.trans (append_of_split? hsplit')
  simp at hcs

theorem outreaches_word (hspelling : spelling.toList.all Text.isNameCharacter)
    (h : ∀ {cs text rest}, pattern.split? cs = some (text, rest) →
      text = cs.takeWhile Text.isNameCharacter) : (word spelling).Outreaches pattern := by
  intro cs text rest text' rest' hsplit hsplit'
  have hboth : text' = text :=
    (h hsplit').trans (eq_takeWhile_of_split?_word hspelling hsplit).symm
  exact hboth ▸ List.prefix_refl text

theorem outreaches_of_isGreedier (hproper : pattern.Proper) (hproper' : pattern'.Proper)
    (h : pattern.isGreedier pattern') : pattern.Outreaches pattern' := by
  unfold isGreedier at h
  split at h
  · exact outreaches_blanks hproper' Text.isNameCharacter_of_isDigit
  · exact outreaches_blanks hproper' id
  · exact outreaches_lineComment
  · exact outreaches_of_two_le two_le_length_of_lineComment h
  · exact outreaches_of_two_le two_le_length_of_blockComment h
  · exact outreaches_spelled h
  · obtain ⟨hspelling, hspelling'⟩ := Bool.and_eq_true_iff.mp h
    exact outreaches_word hspelling (eq_takeWhile_of_split?_word hspelling')
  · exact outreaches_word h eq_takeWhile_of_split?_name
  · exact outreaches_of_not_opens hproper hproper' (not_opens_of_isApart h)

theorem split?_name_of_digits (h : digits.split? cs = some (text, rest)) :
    name.split? cs = some (text ++ rest.takeWhile Text.isNameCharacter,
      rest.dropWhile Text.isNameCharacter) ∧ rest.head?.any Char.isDigit = false := by
  have hrun : splitRun? Char.isDigit cs = some (text, rest) := h
  have hne := ne_nil_of_splitRun? hrun
  have hcs := append_of_splitRun? hrun
  obtain ⟨htext, hrest⟩ := eq_takeWhile_of_splitRun? hrun
  have hdigits : ∀ c ∈ text, Text.isNameCharacter c := by
    intro c hc
    rw [htext] at hc
    exact Text.isNameCharacter_of_isDigit (List.all_eq_true.mp List.all_takeWhile c hc)
  constructor
  · rw [hcs, ← List.takeWhile_append_of_pos hdigits, ← List.dropWhile_append_of_pos hdigits]
    obtain ⟨c, digits, rfl⟩ := List.exists_cons_of_ne_nil hne
    exact if_pos (hdigits c List.mem_cons_self)
  · rw [hrest]
    exact Text.head?_dropWhile Char.isDigit cs

/-- A name reaches further than digits where a letter or an underscore follows them. -/
theorem exists_longer_name_iff (h : digits.split? cs = some (text, rest)) :
    (∃ text' rest', name.split? cs = some (text', rest') ∧ Text.size text < Text.size text') ↔
      ∃ c ∈ rest.head?, c.isAlpha ∨ c = '_' := by
  obtain ⟨hname, hstop⟩ := split?_name_of_digits h
  have hlonger : (∃ text' rest', name.split? cs = some (text', rest') ∧
      Text.size text < Text.size text') ↔
        0 < Text.size (rest.takeWhile Text.isNameCharacter) := by
    simp [hname]
  rw [hlonger]
  cases rest with
  | nil => simp [Text.size]
  | cons c rest =>
      have hdigit : c.isDigit = false := hstop
      have hletter : Text.isNameCharacter c ↔ c.isAlpha ∨ c = '_' := by
        simp [Text.isNameCharacter, Char.isAlphanum, hdigit]
      have hpos := c.utf8Size_pos
      cases hc : Text.isNameCharacter c with
      | true => simpa [hc, Text.size, ← hletter] using Nat.add_pos_left hpos _
      | false => simp [hc, Text.size, ← hletter]

end Pattern

namespace Rule

/-- Digits in front of a letter are a number, though a name would reach further. -/
theorem pairwise_isGreedier : all.Pairwise fun rule rule' =>
    rule.pattern.isGreedier rule'.pattern ∨
      rule.pattern = .digits ∧ rule'.pattern = .name := by
  decide +kernel

theorem pattern_eq_digits_iff :
    ∀ rule ∈ all, rule.pattern = .digits ↔ rule.kind? = some .number := by
  decide +kernel

theorem pattern_eq_name_iff :
    ∀ rule ∈ all, rule.pattern = .name ↔ rule.kind? = some .identifier := by
  decide +kernel

variable {before after : List Rule} {rule : Rule} {cs text rest : List Char}

theorem first?_of_split? (hall : all = before ++ rule :: after)
    (hbefore : ∀ rule' ∈ before, rule'.pattern.split? cs = none)
    (hsplit : rule.pattern.split? cs = some (text, rest)) :
    Piece.first? cs = some (⟨rule.kind?, text⟩, rest) := by
  have hnone : before.findSome? (·.cut? cs) = none :=
    List.findSome?_eq_none_iff.mpr fun rule' hrule' =>
      Option.map_eq_none_iff.mpr (hbefore rule' hrule')
  have hcut : rule.cut? cs = some (⟨rule.kind?, text⟩, rest) := by
    rw [cut?, hsplit]
    rfl
  rw [Piece.first?, hall, List.findSome?_append, hnone, Option.none_or, List.findSome?_cons, hcut]

theorem digits_name_of_size_lt {rule' : Rule} {text' rest' : List Char}
    (hall : all = before ++ rule :: after) (hrule' : rule' ∈ after)
    (hsplit : rule.pattern.split? cs = some (text, rest))
    (hsplit' : rule'.pattern.split? cs = some (text', rest'))
    (hlt : Text.size text < Text.size text') :
    rule.pattern = .digits ∧ rule'.pattern = .name := by
  have hrule : rule ∈ rule :: after := List.mem_cons_self
  have hmem : ∀ rule'' ∈ rule :: after, rule'' ∈ all :=
    fun rule'' h => hall ▸ List.mem_append_right before h
  have hpairwise := pairwise_isGreedier
  rw [hall, List.pairwise_append, List.pairwise_cons] at hpairwise
  refine (hpairwise.2.1.1 rule' hrule').resolve_left fun hgreedier => ?_
  have hprefix := Pattern.outreaches_of_isGreedier (proper_of_mem_all (hmem rule hrule))
    (proper_of_mem_all (hmem rule' (List.mem_cons_of_mem rule hrule'))) hgreedier hsplit hsplit'
  exact Nat.not_lt_of_le (Text.size_le_of_prefix hprefix) hlt

/-- The first rule that matches is the one that cuts off a piece, and the piece is as long as any
rule can make it. The only exception are digits directly in front of an ASCII letter or an
underscore: they are cut off as a number, and of all rules only that for names matches more. -/
theorem longest_of_first (hall : all = before ++ rule :: after)
    (hbefore : ∀ rule' ∈ before, rule'.pattern.split? cs = none)
    (hsplit : rule.pattern.split? cs = some (text, rest)) :
    Piece.first? cs = some (⟨rule.kind?, text⟩, rest) ∧
    ∀ rule' ∈ all,
      (∃ text' rest', rule'.pattern.split? cs = some (text', rest') ∧
        Text.size text < Text.size text') ↔
      rule.kind? = some .number ∧ rule'.kind? = some .identifier ∧
        ∃ c ∈ rest.head?, c.isAlpha ∨ c = '_' := by
  have hrule : rule ∈ all := by
    rw [hall]
    exact List.mem_append_right _ List.mem_cons_self
  refine ⟨first?_of_split? hall hbefore hsplit, fun rule' hrule' => ?_⟩
  rw [← pattern_eq_digits_iff rule hrule, ← pattern_eq_name_iff rule' hrule']
  constructor
  · rintro ⟨text', rest', hsplit', hlt⟩
    rw [hall] at hrule'
    rcases List.mem_append.mp hrule' with hmem | hmem
    · rw [hbefore rule' hmem] at hsplit'
      cases hsplit'
    rcases List.mem_cons.mp hmem with rfl | hmem
    · cases hsplit.symm.trans hsplit'
      exact absurd hlt (Nat.lt_irrefl _)
    · obtain ⟨hdigits, hname⟩ := digits_name_of_size_lt hall hmem hsplit hsplit' hlt
      rw [hdigits] at hsplit
      rw [hname] at hsplit'
      exact ⟨hdigits, hname,
        (Pattern.exists_longer_name_iff hsplit).mp ⟨text', rest', hsplit', hlt⟩⟩
  · rintro ⟨hdigits, hname, hletter⟩
    rw [hdigits] at hsplit
    rw [hname]
    exact (Pattern.exists_longer_name_iff hsplit).mpr hletter

theorem longest_of_digits_in_word :
    all = (separators ++ punctuators ++ keywords) ++ ⟨.digits, some .number⟩ ::
      (⟨.name, some .identifier⟩ :: (operators ++ strings)) ∧
    (∀ rule ∈ separators ++ punctuators ++ keywords,
      rule.pattern.split? ['1', '2', 'l', 'e', 't'] = none) ∧
    Pattern.digits.split? ['1', '2', 'l', 'e', 't'] = some (['1', '2'], ['l', 'e', 't']) ∧
    Piece.first? ['1', '2', 'l', 'e', 't'] = some (⟨some .number, ['1', '2']⟩, ['l', 'e', 't']) ∧
    ∃ text rest, Pattern.name.split? ['1', '2', 'l', 'e', 't'] = some (text, rest) ∧
      2 < Text.size text := by
  have hall : all = (separators ++ punctuators ++ keywords) ++ ⟨.digits, some .number⟩ ::
      (⟨.name, some .identifier⟩ :: (operators ++ strings)) := by
    decide +kernel
  have hbefore : ∀ rule ∈ separators ++ punctuators ++ keywords,
      rule.pattern.split? ['1', '2', 'l', 'e', 't'] = none := by
    decide +kernel
  have hdigits : Pattern.digits.split? ['1', '2', 'l', 'e', 't'] =
      some (['1', '2'], ['l', 'e', 't']) := by
    decide
  obtain ⟨hfirst, hlonger⟩ := longest_of_first hall hbefore hdigits
  refine ⟨hall, hbefore, hdigits, hfirst, ?_⟩
  exact (hlonger ⟨.name, some .identifier⟩ (by decide)).mpr ⟨rfl, rfl, 'l', rfl, .inl rfl⟩

end Rule

end Letter
