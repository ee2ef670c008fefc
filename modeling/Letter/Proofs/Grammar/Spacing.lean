import Letter.Proofs.Grammar.Acceptance
import Letter.Proofs.Grammar.Report
import Letter.Proofs.Token.Joining
import Letter.Proofs.Token.Stream

namespace Letter

/-- A choice of the blanks around some terminals. -/
structure Spacing (ts : List Terminal) where
  /-- What stands in front of the first terminal. -/
  lead : String
  /-- What stands behind each terminal. -/
  gaps : List String
  length_gaps : gaps.length = ts.length
  isBlank_lead : lead.toList.all Text.isBlank
  isBlank_gaps : ∀ gap ∈ gaps, gap.toList.all Text.isBlank
  /-- Only behind the last terminal there may be nothing. -/
  ne_empty : ∀ gap ∈ gaps.dropLast, gap ≠ ""

/-- The lexemes of some terminals, with the blanks that are chosen. -/
def Spacing.text {ts : List Terminal} (spacing : Spacing ts) : String :=
  spacing.lead ++ String.join (List.zipWith (fun t gap => t.lexeme ++ gap) ts spacing.gaps)

namespace Piece

variable {ts : List Terminal} {gaps : List String}

theorem cut_join_gaps (hts : ∀ t ∈ ts, t.Genuine) (hlength : gaps.length = ts.length)
    (hblank : ∀ gap ∈ gaps, gap.toList.all Text.isBlank)
    (hne : ∀ gap ∈ gaps.dropLast, gap ≠ "") :
    (cut (String.join (List.zipWith (fun t gap => t.lexeme ++ gap) ts gaps)).toList).1.filterMap
        terminal? = ts ∧
      (cut (String.join (List.zipWith (fun t gap => t.lexeme ++ gap) ts gaps)).toList).2 = [] := by
  induction ts generalizing gaps with
  | nil => exact ⟨rfl, rfl⟩
  | cons t ts ih =>
      cases gaps with
      | nil => cases hlength
      | cons gap gaps =>
          obtain ⟨hterminals, hstuck⟩ := ih
            (fun t' ht' => hts t' (List.mem_cons_of_mem _ ht')) (Nat.succ.inj hlength)
            (fun gap' hgap' => hblank gap' (List.mem_cons_of_mem _ hgap'))
            (fun gap' hgap' => hne gap' (List.mem_of_mem_tail (by
              rwa [List.tail_dropLast, List.tail_cons])))
          have hmore : gap.toList ≠ [] ∨
              (String.join (List.zipWith (fun t gap => t.lexeme ++ gap) ts gaps)).toList = [] := by
            cases gaps with
            | nil =>
                rw [List.zipWith_nil_right]
                exact .inr rfl
            | cons gap' gaps =>
                exact .inl (String.toList_eq_nil_iff.not.mpr (hne gap List.mem_cons_self))
          obtain ⟨hterminals', hstuck'⟩ := cut_lexeme_blanks_append (hts t List.mem_cons_self)
            (List.all_eq_true.mp (hblank gap List.mem_cons_self)) hmore
          rw [List.zipWith_cons_cons, String.toList_join, List.flatMap_cons, String.toList_append,
            List.append_assoc, ← String.toList_join, hterminals', hterminals, hstuck']
          exact ⟨rfl, hstuck⟩

end Piece

namespace Scan

/-- All terminals are read again, and nothing else. -/
theorem ofSource_text {ts : List Terminal} (hts : ∀ t ∈ ts, t.Genuine) (spacing : Spacing ts) :
    (ofSource spacing.text).terminals = ts ∧ (ofSource spacing.text).stuck? = none := by
  obtain ⟨hterminals, hstuck⟩ := Piece.cut_join_gaps hts spacing.length_gaps spacing.isBlank_gaps
    spacing.ne_empty
  have hlead := List.all_eq_true.mp spacing.isBlank_lead
  rw [ofSource, terminals_ofText, stuck?_ofText, Spacing.text, String.toList_append,
    Piece.filterMap_cut_blanks_append hlead, (Piece.cut_blanks_append hlead 0).2, hterminals,
    hstuck]
  exact ⟨rfl, rfl⟩

theorem toTerminal_tokenBefore (scan : Scan) (unread : Nat) :
    (scan.tokenBefore unread).toTerminal =
      (scan.terminals.drop (scan.terminals.length - unread)).headD .endOfInput := by
  rw [tokenBefore, terminals, List.length_map, ← List.map_drop]
  exact List.headD_map.symm

end Scan

theorem Tokenizer.toList_eq_map_ok_iff {source : String} {tokens : List Token} :
    (ofSource source).toList.1 = tokens.map .ok ↔
      (Scan.ofSource source).stuck? = none ∧ (Scan.ofSource source).tokens = tokens := by
  have hinj : ∀ ts ts' : List Token,
      ts.map (.ok : Token → Except SourceError Token) = ts'.map .ok ↔ ts = ts' :=
    fun _ _ => List.map_inj_right fun _ _ => Except.ok.inj
  rw [toList_ofSource]
  cases (Scan.ofSource source).stuck? with
  | none => simp [hinj]
  | some character =>
      refine iff_of_false (fun h => ?_) (by simp)
      have hmem : Except.error (.lexical source (Scan.ofSource source).stop character) ∈
          tokens.map (.ok : Token → Except SourceError Token) := by
        rw [← h]
        simp
      obtain ⟨token, -, heq⟩ := List.mem_map.mp hmem
      cases heq

namespace Program

variable {source source' : String}

theorem mapError_fault_congr
    (hstuck : (Scan.ofSource source').stuck? = (Scan.ofSource source).stuck?)
    (hterminals : (Scan.ofSource source').terminals = (Scan.ofSource source).terminals)
    (limit : Nat) :
    (parseWithin limit source').mapError (·.fault) =
      (parseWithin limit source).mapError (·.fault) := by
  rw [parseWithin, parseWithin, hstuck, hterminals]
  cases ofTerminals limit (Scan.ofSource source).stuck? (Scan.ofSource source).terminals with
  | ok p => rfl
  | error failure =>
      simp only [Except.mapError, Objection.fault_report, Scan.toTerminal_tokenBefore, hterminals]

/-- In a source that is read without an error, the blanks around the lexemes may be replaced. The
kinds and lexemes stay, and so does the program or what is wrong. -/
theorem parseWithin_spacing {tokens : List Token}
    (hsource : (Tokenizer.ofSource source).toList.1 = tokens.map .ok)
    (spacing : Spacing (tokens.map (·.toTerminal))) :
    (∃ tokens' : List Token, (Tokenizer.ofSource spacing.text).toList.1 = tokens'.map .ok ∧
      tokens'.map (·.toTerminal) = tokens.map (·.toTerminal)) ∧
    ∀ limit, (parseWithin limit spacing.text).mapError (·.fault) =
      (parseWithin limit source).mapError (·.fault) := by
  obtain ⟨hstuck, rfl⟩ := Tokenizer.toList_eq_map_ok_iff.mp hsource
  obtain ⟨hterminals', hstuck'⟩ :=
    Scan.ofSource_text (Scan.genuine_of_mem_terminals hstuck) spacing
  exact ⟨⟨_, Tokenizer.toList_eq_map_ok_iff.mpr ⟨hstuck', rfl⟩, hterminals'⟩,
    mapError_fault_congr (hstuck'.trans hstuck.symm) hterminals'⟩

theorem parseWithin_spacing_slashes :
    let tokens : List Token := [⟨⟨.identifier, "x"⟩, 0⟩, ⟨⟨.multiplicativeOperator, "/"⟩, 1⟩,
      ⟨⟨.multiplicativeOperator, "*"⟩, 2⟩, ⟨⟨.string, "'//'"⟩, 3⟩, ⟨⟨Punctuator.semicolon, ";"⟩, 7⟩]
    (Tokenizer.ofSource "x/*'//';").toList.1 = tokens.map .ok ∧
      (∃ tokens' : List Token,
        (Tokenizer.ofSource "\u2028x\n/\u00a0*\t'//'  ;").toList.1 = tokens'.map .ok ∧
          tokens'.map (·.toTerminal) = tokens.map (·.toTerminal)) ∧
      ∀ limit, (parseWithin limit "\u2028x\n/\u00a0*\t'//'  ;").mapError (·.fault) =
        (parseWithin limit "x/*'//';").mapError (·.fault) := by
  intro tokens
  have hsource : (Tokenizer.ofSource "x/*'//';").toList.1 = tokens.map .ok := by decide +kernel
  let spacing : Spacing (tokens.map (·.toTerminal)) :=
    { lead := "\u2028"
      gaps := ["\n", "\u00a0", "\t", "  ", ""]
      length_gaps := rfl
      isBlank_lead := by decide
      isBlank_gaps := by decide
      ne_empty := by decide }
  have htext : spacing.text = "\u2028x\n/\u00a0*\t'//'  ;" := by decide
  exact ⟨hsource, htext ▸ parseWithin_spacing hsource spacing⟩

end Program

end Letter
