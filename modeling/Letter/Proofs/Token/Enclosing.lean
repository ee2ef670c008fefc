import Letter.Proofs.Token.Joining
import Letter.Proofs.Token.Unreadable

namespace Letter

/-- There is nothing in a text that closes a comment or a string. -/
def Text.ClosesNothing (cs : List Char) : Prop :=
  '/' ∉ cs ∧ '"' ∉ cs ∧ '\'' ∉ cs

instance : DecidablePred Text.ClosesNothing := fun _ => inferInstanceAs (Decidable (_ ∧ _ ∧ _))

namespace Pattern

variable {cs more : List Char}

theorem splitClosed?_eq_none (hcs : '/' ∉ cs) : splitClosed? cs = none := by
  refine Option.eq_none_iff_forall_ne_some.mpr fun ⟨comment, rest⟩ hsplit => hcs ?_
  obtain ⟨body, rfl, -⟩ := exists_body_of_splitClosed? hsplit
  rw [append_of_splitClosed? hsplit]
  simp

theorem splitClosed?_append_eq_none (hcs : splitClosed? cs = none) (hmore : '/' ∉ more) :
    splitClosed? (cs ++ more) = none := by
  fun_induction splitClosed? cs with
  | case1 rest => cases hcs
  | case2 c cs hnot ih =>
      rw [List.cons_append, splitClosed?.eq_2, ih (Option.map_eq_none_iff.mp hcs)]
      · rfl
      · rintro after rfl hafter
        cases cs with
        | nil =>
            rw [List.nil_append] at hafter
            rw [hafter] at hmore
            exact hmore List.mem_cons_self
        | cons d cs =>
            obtain ⟨rfl, -⟩ := List.cons.inj hafter
            exact hnot cs rfl rfl
  | case3 => exact splitClosed?_eq_none hmore

theorem splitQuoted?_eq_none_iff {quote : Char} : splitQuoted? quote cs = none ↔ quote ∉ cs := by
  rw [← isSome_splitQuoted?_iff, Bool.not_eq_true, Option.isSome_eq_false_iff,
    Option.isNone_iff_eq_none]

theorem split?_append_of_closesNothing {pattern : Pattern} (hsolid : pattern.Solid)
    (hblanks : Complete .blanks cs) (hquoted : ∀ quote, pattern = .quoted quote →
      quote = '"' ∨ quote = '\'')
    (hmore : Text.ClosesNothing more) :
    pattern.split? (cs ++ '\n' :: more) =
      (pattern.split? cs).map fun (text, rest) => (text, rest ++ '\n' :: more) := by
  have hnext {c : Char} (hc : c ∉ more) (hne : c ≠ '\n') : c ∉ '\n' :: more :=
    List.not_mem_cons_of_ne_of_not_mem hne hc
  cases pattern with
  | blanks => exact split?_append trivial hblanks
  | blockComment =>
      have hopening : ['/', '*'].any Text.isBlank = false := by decide
      rw [split?, split?]
      refine bind_following?_append hopening fun text _ => ?_
      cases hsplit : splitClosed? text with
      | none =>
          rw [splitClosed?_append_eq_none hsplit (hnext hmore.1 (by decide))]
          rfl
      | some split =>
          obtain ⟨comment, rest⟩ := split
          rw [splitClosed?_append hsplit]
          rfl
  | quoted quote =>
      have hopen : quote ∉ '\n' :: more := by
        rcases hquoted quote rfl with rfl | rfl
        · exact hnext hmore.2.1 (by decide)
        · exact hnext hmore.2.2 (by decide)
      have hquote : [quote].any Text.isBlank = false := (Bool.or_false _).trans hsolid
      rw [split?, split?]
      refine bind_following?_append hquote fun text _ => ?_
      cases hsplit : splitQuoted? quote text with
      | none =>
          have hmem := splitQuoted?_eq_none_iff.mp hsplit
          rw [splitQuoted?_eq_none_iff.mpr (List.not_mem_append hmem hopen)]
          rfl
      | some split =>
          obtain ⟨body, rest⟩ := split
          rw [splitQuoted?_append hsplit]
          rfl
  | _ => exact split?_append hsolid trivial

end Pattern

theorem Rule.eq_quote_of_mem_all {rule : Rule} (hrule : rule ∈ all) {quote : Char}
    (hpattern : rule.pattern = .quoted quote) : quote = '"' ∨ quote = '\'' := by
  have hall : ∀ rule ∈ all, match rule.pattern with
      | .quoted quote => quote = '"' ∨ quote = '\''
      | _ => True := by
    simp only [all, punctuators, keywords, List.forall_mem_append, List.forall_mem_map]
    refine ⟨⟨⟨⟨⟨?_, fun _ _ => trivial⟩, fun _ _ => trivial⟩, ?_⟩, ?_⟩, ?_⟩
    all_goals simp [separators, words, operators, strings]
  have hform := hall rule hrule
  rwa [hpattern] at hform

namespace Piece

variable {cs more : List Char}

theorem first?_append_of_closesNothing (hmore : Text.ClosesNothing more)
    (hblanks : Pattern.Complete .blanks cs) : first? (cs ++ '\n' :: more) =
      (first? cs).map fun (piece, rest) => (piece, rest ++ '\n' :: more) := by
  refine first?_append_of_cut? fun rule hrule => ?_
  rw [Rule.cut?, Rule.cut?, Pattern.split?_append_of_closesNothing (Rule.solid_of_mem_all hrule)
    hblanks (fun quote => Rule.eq_quote_of_mem_all hrule) hmore, Option.map_map, Option.map_map]
  rfl

theorem cut_append_of_closesNothing (cs : List Char) (hmore : Text.ClosesNothing more) :
    ((cut cs).2 = [] → (cut (cs ++ '\n' :: more)).1.filterMap terminal? =
        (cut cs).1.filterMap terminal? ++ (cut more).1.filterMap terminal? ∧
      (cut (cs ++ '\n' :: more)).2 = (cut more).2) ∧
    ((cut cs).2 ≠ [] → (cut (cs ++ '\n' :: more)).2 ≠ []) := by
  obtain ⟨hend, hstuck⟩ := @cut_append_of_first? cs more (fun _ => True)
    (fun _ => first?_append_of_closesNothing hmore) (fun _ _ => trivial) trivial 0
  refine ⟨fun hcut => ?_, hstuck⟩
  obtain ⟨htokens, hrest⟩ := hend hcut
  refine ⟨?_, hrest⟩
  have hterminals := congrArg (List.map (·.toTerminal)) htokens
  rwa [List.map_append, Scan.map_tokensAt, Scan.map_tokensAt, Scan.map_tokensAt] at hterminals

theorem first?_punctuator (p : Punctuator) (cs : List Char) :
    first? (p.spelling.toList ++ cs) = some (⟨some p, p.spelling.toList⟩, cs) := by
  cases p <;> rfl

end Piece

namespace Scan

/-- The text of a source with signs in a line behind it is read as the source and then the
signs. -/
theorem ofSource_append_closing {a b : String} (hb : Text.ClosesNothing b.toList) :
    ((ofSource a).stuck? = none →
      (ofSource (a ++ "\n" ++ b)).terminals = (ofSource a).terminals ++ (ofSource b).terminals ∧
      (ofSource (a ++ "\n" ++ b)).stuck? = (ofSource b).stuck?) ∧
    ((ofSource (a ++ "\n" ++ b)).stuck? = none → (ofSource a).stuck? = none) := by
  obtain ⟨hend, hstuck⟩ := Piece.cut_append_of_closesNothing a.toList hb
  rw [← Text.toList_append_newline] at hend hstuck
  simp only [ofSource, terminals_ofText, stuck?_ofText, List.head?_eq_none_iff]
  refine ⟨fun ha => ?_, Function.mtr hstuck⟩
  obtain ⟨hterminals, hrest⟩ := hend ha
  exact ⟨hterminals, congrArg List.head? hrest⟩

theorem ofSource_punctuator_append (p : Punctuator) (s : String) :
    (ofSource (p.spelling ++ s)).terminals = p.terminal :: (ofSource s).terminals ∧
      (ofSource (p.spelling ++ s)).stuck? = (ofSource s).stuck? := by
  have hfirst := Piece.first?_punctuator p s.toList
  simp only [ofSource, terminals_ofText, stuck?_ofText, String.toList_append,
    Piece.cut_of_first?_eq_some hfirst]
  refine ⟨?_, trivial⟩
  rw [List.filterMap_cons_some (Piece.terminal?_of_kind? rfl), String.ofList_toList]
  rfl

end Scan

end Letter
