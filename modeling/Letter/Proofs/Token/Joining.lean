import Letter.Proofs.Text.Position
import Letter.Proofs.Token.Scanning
import Mathlib.Data.List.Chain
import Mathlib.Data.List.TakeWhile

namespace Letter

variable {cs text rest more : List Char} {p : Char → Bool}

theorem Text.takeWhile_append_of_stop (hstop : cs.dropWhile p ≠ [] ∨ rest.head?.any p = false) :
    (cs ++ rest).takeWhile p = cs.takeWhile p ∧
      (cs ++ rest).dropWhile p = cs.dropWhile p ++ rest := by
  have hrun : ∀ c ∈ cs.takeWhile p, p c := List.all_eq_true.mp List.all_takeWhile
  have hnext : (cs.dropWhile p ++ rest).head?.any p = false := by
    have hfirst := List.head?_dropWhile_not p cs
    cases hdrop : cs.dropWhile p with
    | nil => exact hstop.resolve_left (not_not_intro hdrop)
    | cons c after =>
        rw [hdrop] at hfirst
        simpa using hfirst
  have hparts := takeWhile_append_dropWhile_append hrun hnext
  rwa [← List.append_assoc, List.takeWhile_append_dropWhile] at hparts

namespace Pattern

theorem splitRun?_append (hstop : cs.dropWhile p ≠ [] ∨ rest.head?.any p = false) :
    splitRun? p (cs ++ rest) =
      (splitRun? p cs).map fun (run, after) => (run, after ++ rest) := by
  obtain ⟨htake, hdrop⟩ := Text.takeWhile_append_of_stop hstop
  rw [splitRun?, splitRun?, htake, hdrop]
  cases cs with
  | nil =>
      have hrest := hstop.resolve_left (not_not_intro rfl)
      rw [List.nil_append, hrest]
      rfl
  | cons c cs =>
      rw [List.cons_append, List.head?_cons, List.head?_cons]
      split <;> rfl

theorem splitClosed?_append (h : splitClosed? cs = some (text, rest)) :
    splitClosed? (cs ++ more) = some (text, rest ++ more) := by
  fun_induction splitClosed? cs generalizing text with
  | case1 =>
      cases h
      rfl
  | case2 c cs hnot ih =>
      obtain ⟨⟨text', rest'⟩, hsplit, heq⟩ := Option.map_eq_some_iff.mp h
      cases heq
      rw [List.cons_append, splitClosed?.eq_2, ih hsplit]
      · rfl
      · rintro after rfl hafter
        cases cs with
        | nil => cases hsplit
        | cons d cs =>
            obtain ⟨rfl, -⟩ := List.cons.inj hafter
            exact hnot cs rfl rfl
  | case3 => cases h

theorem splitQuoted?_append {quote : Char} (h : splitQuoted? quote cs = some (text, rest)) :
    splitQuoted? quote (cs ++ more) = some (text, rest ++ more) := by
  rw [splitQuoted?] at h
  split at h
  · cases h
  · rename_i close rest' hdrop
    cases h
    have hstop : cs.dropWhile (· != quote) ≠ [] ∨ more.head?.any (· != quote) = false :=
      .inl (hdrop ▸ List.cons_ne_nil _ _)
    obtain ⟨htake, hdrop'⟩ := Text.takeWhile_append_of_stop hstop
    rw [splitQuoted?, htake, hdrop', hdrop]
    rfl

/-- Whether all that a pattern asks of a text is in the text. A run of blanks may go on behind it,
a comment may not be closed yet, nor a string. -/
def Complete : Pattern → List Char → Prop
  | blanks, cs => cs.dropWhile Text.isBlank ≠ []
  | blockComment, cs =>
    ∀ text, Text.following? ['/', '*'] cs = some text → splitClosed? text ≠ none
  | quoted quote, cs =>
    ∀ text, Text.following? [quote] cs = some text → splitQuoted? quote text ≠ none
  | _, _ => True

/-- No spelling has blanks in it. -/
def Solid : Pattern → Prop
  | spelled spellings => ∀ s ∈ spellings, s.toList.any Text.isBlank = false
  | word spelling => spelling.toList.any Text.isBlank = false
  | quoted quote => Text.isBlank quote = false
  | _ => True

instance : DecidablePred Solid
  | spelled spellings =>
    inferInstanceAs (Decidable (∀ s ∈ spellings, s.toList.any Text.isBlank = false))
  | word spelling => inferInstanceAs (Decidable (spelling.toList.any Text.isBlank = false))
  | quoted quote => inferInstanceAs (Decidable (Text.isBlank quote = false))
  | blanks | lineComment | blockComment | digits | name => inferInstanceAs (Decidable True)

theorem bind_following?_append {front : List Char}
    {f : List Char → Option (List Char × List Char)} (hfront : front.any Text.isBlank = false)
    (hf : ∀ after, Text.following? front cs = some after →
      f (after ++ '\n' :: more) = (f after).map fun (text, rest) => (text, rest ++ '\n' :: more)) :
    (Text.following? front (cs ++ '\n' :: more)).bind f =
      ((Text.following? front cs).bind f).map fun (text, rest) => (text, rest ++ '\n' :: more) := by
  have hblank : ∀ c ∈ ('\n' :: more).head?, Text.isBlank c := by
    rintro _ ⟨⟩
    rfl
  cases hafter : Text.following? front cs with
  | none =>
      rw [Text.following?_append_eq_none hafter hfront hblank]
      rfl
  | some after =>
      have hjoined : Text.following? front (cs ++ '\n' :: more) = some (after ++ '\n' :: more) :=
        Text.following?_eq_some.mpr (by rw [Text.following?_eq_some.mp hafter, List.append_assoc])
      rw [hjoined]
      exact hf after hafter

theorem split?_lineComment_eq_bind (cs : List Char) :
    split? lineComment cs = (Text.following? ['/', '/'] cs).bind fun line =>
      some ('/' :: '/' :: line.takeWhile (· != '\n'), line.dropWhile (· != '\n')) :=
  Option.map_eq_bind

theorem split?_word_eq_bind (spelling : String) (cs : List Char) :
    split? (word spelling) cs = (Text.following? spelling.toList cs).bind fun rest =>
      if rest.head?.any Text.isWordCharacter then none else some (spelling.toList, rest) := by
  rw [split?]
  cases Text.following? spelling.toList cs <;> rfl

/-- A line feed ends whatever a pattern has begun to match, unless that is not complete. -/
theorem split?_append {pattern : Pattern} (hsolid : pattern.Solid)
    (hcomplete : pattern.Complete cs) : pattern.split? (cs ++ '\n' :: more) =
      (pattern.split? cs).map fun (text, rest) => (text, rest ++ '\n' :: more) := by
  cases pattern with
  | blanks => exact splitRun?_append (.inl hcomplete)
  | digits | name => exact splitRun?_append (.inr rfl)
  | spelled spellings =>
      refine splitSpelled?_append hsolid ?_
      rintro _ ⟨⟩
      rfl
  | lineComment =>
      have hslashes : ['/', '/'].any Text.isBlank = false := by decide
      rw [split?_lineComment_eq_bind, split?_lineComment_eq_bind]
      refine bind_following?_append hslashes fun line _ => ?_
      have hstop : line.dropWhile (· != '\n') ≠ [] ∨
          ('\n' :: more).head?.any (· != '\n') = false := .inr rfl
      obtain ⟨htake, hdrop⟩ := Text.takeWhile_append_of_stop hstop
      rw [htake, hdrop]
      rfl
  | blockComment =>
      have hopening : ['/', '*'].any Text.isBlank = false := by decide
      rw [split?, split?]
      refine bind_following?_append hopening fun text htext => ?_
      obtain ⟨⟨comment, rest⟩, hsplit⟩ := Option.ne_none_iff_exists'.mp (hcomplete text htext)
      rw [hsplit, splitClosed?_append hsplit]
      rfl
  | word spelling =>
      rw [split?_word_eq_bind, split?_word_eq_bind]
      refine bind_following?_append hsolid fun rest _ => ?_
      cases rest with
      | nil =>
          have hnext : Text.isWordCharacter '\n' = false :=
            Text.isWordCharacter_eq_false_of_isBlank rfl
          simp [hnext]
      | cons c rest =>
          rw [List.cons_append, List.head?_cons, List.head?_cons]
          split <;> rfl
  | quoted quote =>
      have hquote : [quote].any Text.isBlank = false := (Bool.or_false _).trans hsolid
      rw [split?, split?]
      refine bind_following?_append hquote fun text htext => ?_
      obtain ⟨⟨body, rest⟩, hsplit⟩ := Option.ne_none_iff_exists'.mp (hcomplete text htext)
      rw [hsplit, splitQuoted?_append hsplit]
      rfl

end Pattern

theorem Rule.solid_of_mem_all {rule : Rule} (h : rule ∈ all) : rule.pattern.Solid := by
  revert rule
  decide

theorem Rule.cut?_append_newline {rule : Rule} (hrule : rule ∈ all)
    (hcomplete : rule.pattern.Complete cs) : rule.cut? (cs ++ '\n' :: more) =
      (rule.cut? cs).map fun (piece, rest) => (piece, rest ++ '\n' :: more) := by
  rw [cut?, cut?, Pattern.split?_append (solid_of_mem_all hrule) hcomplete, Option.map_map,
    Option.map_map]
  rfl

theorem Rule.complete_of_mem_all {rule : Rule} (hrule : rule ∈ all)
    (hblanks : Pattern.Complete .blanks cs) (hcomment : Pattern.Complete .blockComment cs)
    (hquoted : ∀ quote, quote = '"' ∨ quote = '\'' → Pattern.Complete (.quoted quote) cs) :
    rule.pattern.Complete cs := by
  simp only [all, separators, words, operators, strings, List.mem_append, List.mem_cons,
    List.not_mem_nil, or_false] at hrule
  rcases hrule with (((((rfl | rfl | rfl) | hpunctuator) | hkeyword) | (rfl | rfl)) |
    (rfl | rfl | rfl | rfl | rfl | rfl | rfl | rfl | rfl)) | (rfl | rfl)
  case inl.inl.inl.inl.inl.inl => exact hblanks
  case inl.inl.inl.inl.inl.inr.inr => exact hcomment
  case inl.inl.inl.inl.inr =>
    obtain ⟨p, -, rfl⟩ := List.mem_map.mp hpunctuator
    trivial
  case inl.inl.inl.inr =>
    obtain ⟨k, -, rfl⟩ := List.mem_map.mp hkeyword
    trivial
  case inr.inl => exact hquoted _ (.inl rfl)
  case inr.inr => exact hquoted _ (.inr rfl)
  all_goals trivial

namespace Piece

variable {piece : Piece}

theorem complete_quoted_of_first? {quote : Char} (hquote : quote = '"' ∨ quote = '\'')
    (h : first? cs = some (piece, rest)) : Pattern.Complete (.quoted quote) cs := by
  intro text htext hnone
  obtain rfl := Text.following?_eq_some.mp htext
  obtain ⟨rule, hrule, hcut⟩ := List.exists_of_findSome?_eq_some h
  obtain ⟨split, hsplit, -⟩ := Option.map_eq_some_iff.mp hcut
  have hpattern := Rule.eq_quoted_of_opens hquote hrule
    (Pattern.opens_of_split? (Rule.proper_of_mem_all hrule) hsplit)
  rw [hpattern, Pattern.split?, htext, Option.bind_some, hnone] at hsplit
  cases hsplit

theorem first?_append_newline (hblanks : Pattern.Complete .blanks cs)
    (hcomment : Pattern.Complete .blockComment cs) (h : first? cs = some (piece, rest)) :
    first? (cs ++ '\n' :: more) = some (piece, rest ++ '\n' :: more) := by
  have hcomplete {rule : Rule} (hrule : rule ∈ Rule.all) : rule.pattern.Complete cs :=
    Rule.complete_of_mem_all hrule hblanks hcomment fun quote hquote =>
      complete_quoted_of_first? hquote h
  rw [first?_append_of_cut? fun rule hrule => Rule.cut?_append_newline hrule (hcomplete hrule), h]
  rfl

end Piece

/-- Whether two terminals, one directly behind the other, can be the beginning of a comment. -/
def Terminal.OpensComment (t t' : Terminal) : Prop :=
  t.kind = .multiplicativeOperator ∧
    (t'.kind = .multiplicativeOperator ∨ t'.kind = .complexAssign)

/-- Nowhere among some terminals can a comment have been begun and not closed. -/
def Terminal.Uncommented (ts : List Terminal) : Prop :=
  ts.IsChain fun t t' => ¬ t.OpensComment t'

namespace Piece

variable {piece : Piece}

theorem first?_slash (hnone : Pattern.splitClosed? text = none)
    (h : first? ('/' :: '*' :: text) = some (piece, rest)) :
    piece.kind? = some .multiplicativeOperator ∧ rest = '*' :: text := by
  have hopens : ∀ rule ∈ Rule.all, rule.pattern.opens '/' →
      rule ∈ [⟨.lineComment, none⟩, ⟨.blockComment, none⟩,
        ⟨.spelled ["*=", "/=", "+=", "-="], some .complexAssign⟩,
        ⟨.spelled ["*", "/"], some .multiplicativeOperator⟩] := by
    decide +kernel
  obtain ⟨rule, hrule, hcut⟩ := List.exists_of_findSome?_eq_some h
  obtain ⟨split, hsplit, heq⟩ := Option.map_eq_some_iff.mp hcut
  have hmem := hopens rule hrule (Pattern.opens_of_split? (Rule.proper_of_mem_all hrule) hsplit)
  simp only [List.mem_cons, List.not_mem_nil, or_false] at hmem
  rcases hmem with rfl | rfl | rfl | rfl
  · cases hsplit
  · rw [Pattern.split?] at hsplit
    obtain ⟨text', htext, hmap⟩ := Option.bind_eq_some_iff.mp hsplit
    obtain rfl : text = text' := Option.some.inj htext
    rw [hnone] at hmap
    cases hmap
  · cases hsplit
  · cases hsplit
    cases heq
    exact ⟨rfl, rfl⟩

theorem kind?_of_first?_asterisk (h : first? ('*' :: text) = some (piece, rest)) :
    piece.kind? = some .multiplicativeOperator ∨ piece.kind? = some .complexAssign := by
  have hopens : ∀ rule ∈ Rule.all, rule.pattern.opens '*' →
      rule.kind? = some .multiplicativeOperator ∨ rule.kind? = some .complexAssign := by
    decide +kernel
  obtain ⟨rule, hrule, hcut⟩ := List.exists_of_findSome?_eq_some h
  obtain ⟨split, hsplit, heq⟩ := Option.map_eq_some_iff.mp hcut
  cases heq
  exact hopens rule hrule (Pattern.opens_of_split? (Rule.proper_of_mem_all hrule) hsplit)

theorem exists_first?_of_cut (hcut : (cut cs).2 = []) (hcs : cs ≠ []) :
    ∃ piece rest, first? cs = some (piece, rest) := by
  cases hfirst : first? cs with
  | none =>
      rw [cut_of_first?_eq_none hfirst] at hcut
      exact absurd hcut hcs
  | some result => exact ⟨result.1, result.2, rfl⟩

theorem complete_blockComment_of_cut (hcut : (cut cs).2 = [])
    (hopen : Terminal.Uncommented ((cut cs).1.filterMap terminal?)) :
    Pattern.Complete .blockComment cs := by
  intro text htext hnone
  obtain rfl := Text.following?_eq_some.mp htext
  obtain ⟨piece, rest, hfirst⟩ := exists_first?_of_cut hcut (List.cons_ne_nil _ _)
  obtain ⟨hkind, rfl⟩ := first?_slash hnone hfirst
  rw [cut_of_first?_eq_some hfirst] at hcut hopen
  obtain ⟨piece', rest', hsecond⟩ := exists_first?_of_cut hcut (List.cons_ne_nil _ _)
  have hkind' := kind?_of_first?_asterisk hsecond
  rw [cut_of_first?_eq_some hsecond,
    List.filterMap_cons_some (terminal?_of_kind? hkind)] at hopen
  rcases hkind' with hkind' | hkind' <;>
    rw [List.filterMap_cons_some (terminal?_of_kind? hkind')] at hopen
  · exact (List.isChain_cons_cons.mp hopen).1 ⟨rfl, .inl rfl⟩
  · exact (List.isChain_cons_cons.mp hopen).1 ⟨rfl, .inr rfl⟩

theorem uncommented_of_cons {pieces : List Piece}
    (hopen : Terminal.Uncommented ((piece :: pieces).filterMap terminal?)) :
    Terminal.Uncommented (pieces.filterMap terminal?) := by
  rw [List.filterMap_cons] at hopen
  split at hopen
  · exact hopen
  · exact hopen.tail

/-- What a text is cut into in front of a line feed, if the line feed never makes another rule match
than where the text ends: the pieces of the text, and behind them those of what follows, or where
the text breaks off the same. -/
theorem cut_append_of_first? {P : List Char → Prop}
    (hjoined : ∀ {cs}, P cs → Pattern.Complete .blanks cs → first? (cs ++ '\n' :: more) =
      (first? cs).map fun (piece, rest) => (piece, rest ++ '\n' :: more))
    (hstep : ∀ {cs piece rest}, P cs → first? cs = some (piece, rest) → P rest) (hcs : P cs)
    (offset : Nat) :
    ((cut cs).2 = [] → Scan.tokensAt offset (cut (cs ++ '\n' :: more)).1 =
        Scan.tokensAt offset (cut cs).1 ++
          Scan.tokensAt (offset + (Text.size cs + 1)) (cut more).1 ∧
      (cut (cs ++ '\n' :: more)).2 = (cut more).2) ∧
    ((cut cs).2 ≠ [] → (cut (cs ++ '\n' :: more)).2 ≠ []) := by
  induction cs using cut_induction generalizing offset with
  | stuck cs hfirst =>
      rw [cut_of_first?_eq_none hfirst]
      refine ⟨?_, fun hne => ?_⟩
      · rintro rfl
        exact cut_blanks_append (List.forall_mem_singleton.mpr rfl) offset
      · have hblanks : Pattern.Complete .blanks cs := by
          intro hdrop
          obtain ⟨c, cs, rfl⟩ := List.exists_cons_of_ne_nil hne
          rw [first?_of_isBlank (List.dropWhile_eq_nil_iff.mp hdrop c List.mem_cons_self)] at hfirst
          cases hfirst
        have hnone := hjoined hcs hblanks
        rw [hfirst] at hnone
        rw [cut_of_first?_eq_none hnone]
        exact List.append_ne_nil_of_left_ne_nil hne _
  | piece cs piece rest hfirst ih =>
      have hsize : Text.size cs = piece.size + Text.size rest := by
        rw [append_of_first? hfirst, Text.size_append, Piece.size]
      by_cases hblanks : Pattern.Complete .blanks cs
      · have hnext := hjoined hcs hblanks
        rw [hfirst] at hnext
        obtain ⟨hend, hstuck⟩ := ih (hstep hcs hfirst) (offset + piece.size)
        rw [Nat.add_assoc, ← Nat.add_assoc piece.size, ← hsize] at hend
        rw [cut_of_first?_eq_some hfirst, cut_of_first?_eq_some hnext]
        refine ⟨fun hcut => ?_, hstuck⟩
        obtain ⟨htokens, hrest⟩ := hend hcut
        refine ⟨?_, hrest⟩
        rw [Scan.tokensAt, Scan.tokensAt, htokens]
        cases piece.kind? <;> rfl
      · -- the line feed goes on with the blanks in which the text ends
        have hdrop : cs.dropWhile Text.isBlank = [] := Decidable.not_not.mp hblanks
        have hrun : ∀ c ∈ cs ++ ['\n'], Text.isBlank c :=
          List.forall_mem_append.mpr
            ⟨List.dropWhile_eq_nil_iff.mp hdrop, List.forall_mem_singleton.mpr rfl⟩
        obtain ⟨hnone, hstuck⟩ := cut_dropWhile_isBlank cs offset
        rw [hdrop] at hnone hstuck
        have hjoined : Scan.tokensAt offset (cut (cs ++ ['\n'] ++ more)).1 = _ ∧ _ :=
          cut_blanks_append hrun offset
        rw [List.append_assoc, List.singleton_append, Text.size_append] at hjoined
        rw [hnone]
        exact ⟨fun _ => hjoined, fun hne => absurd hstuck hne⟩

/-- Two texts joined by a line feed have the tokens of the first, and behind them those of the
second, and break off where the second does. -/
theorem cut_append_newline (hcut : (cut cs).2 = [])
    (hopen : Terminal.Uncommented ((cut cs).1.filterMap terminal?)) (offset : Nat) :
    Scan.tokensAt offset (cut (cs ++ '\n' :: more)).1 =
        Scan.tokensAt offset (cut cs).1 ++
          Scan.tokensAt (offset + (Text.size cs + 1)) (cut more).1 ∧
      (cut (cs ++ '\n' :: more)).2 = (cut more).2 := by
  refine (cut_append_of_first? (P := fun cs => (cut cs).2 = [] ∧
    Terminal.Uncommented ((cut cs).1.filterMap terminal?)) ?_ ?_ ⟨hcut, hopen⟩ offset).1 hcut
  · rintro cs ⟨hcut, hopen⟩ hblanks
    obtain ⟨piece, rest, hfirst⟩ := exists_first?_of_cut hcut (by rintro rfl; exact hblanks rfl)
    rw [hfirst]
    exact first?_append_newline hblanks (complete_blockComment_of_cut hcut hopen) hfirst
  · rintro cs piece rest ⟨hcut, hopen⟩ hfirst
    rw [cut_of_first?_eq_some hfirst] at hcut hopen
    exact ⟨hcut, uncommented_of_cons hopen⟩

end Piece

/-- A token some bytes further on. -/
def Token.shift (distance : Nat) (token : Token) : Token :=
  { token with offset := token.offset + distance }

namespace Scan

variable {a : String}

theorem tokensAt_add (offset distance : Nat) (pieces : List Piece) :
    tokensAt (offset + distance) pieces = (tokensAt offset pieces).map (.shift distance) := by
  induction pieces generalizing offset with
  | nil => rfl
  | cons piece pieces ih =>
      rw [tokensAt, tokensAt, Nat.add_right_comm, ih]
      cases piece.kind? <;> rfl

theorem ofSource_append_newline (ha : (ofSource a).stuck? = none)
    (hopen : Terminal.Uncommented (ofSource a).terminals) (b : String) :
    (ofSource (a ++ "\n" ++ b)).tokens =
        (ofSource a).tokens ++ (ofSource b).tokens.map (.shift (a.utf8ByteSize + 1)) ∧
      (ofSource (a ++ "\n" ++ b)).stuck? = (ofSource b).stuck? ∧
      (ofSource (a ++ "\n" ++ b)).stop = (ofSource b).stop + (a.utf8ByteSize + 1) := by
  rw [ofSource, terminals_ofText] at hopen
  have hcut : (Piece.cut a.toList).2 = [] := List.head?_eq_none_iff.mp ha
  obtain ⟨htokens, hstuck⟩ :
      tokensAt 0 (Piece.cut (a.toList ++ '\n' :: b.toList)).1 = _ ∧ _ :=
    Piece.cut_append_newline hcut hopen 0
  rw [← Text.toList_append_newline, tokensAt_add, Text.size_toList] at htokens
  rw [← Text.toList_append_newline] at hstuck
  have hstop := stop_add_size (a ++ "\n" ++ b)
  have hstop' := stop_add_size b
  rw [hstuck, Text.utf8ByteSize_append_newline] at hstop
  exact ⟨htokens, congrArg List.head? hstuck, by omega⟩

end Scan

end Letter
