import Letter.Proofs.Grammar.Blame

namespace Letter

namespace Fault

/-- What can be missed at a token, and at the end of input. -/
def expectable : List String :=
  ["IDENTIFIER", "SIMPLE_ASSIGN", ";", "(", ")", .ofList ['{'], "]", "while"]

/-- The faults that there are. A right brace is missed at the end of input only. -/
def IsForeseen : Fault → Prop
  | lexical _ | invalidAssignmentTarget | nestingTooDeep _ => True
  | unexpectedProduction production _ => production = "PrimaryExpression"
  | unexpectedToken _ expected => expected ∈ expectable
  | unexpectedEndOfInput expected =>
    expected ∈ expectable ∨ expected = .ofList ['}'] ∨ expected = "PrimaryExpression"

instance : DecidablePred IsForeseen
  | lexical _ | invalidAssignmentTarget | nestingTooDeep _ => inferInstanceAs (Decidable True)
  | unexpectedProduction production _ =>
    inferInstanceAs (Decidable (production = "PrimaryExpression"))
  | unexpectedToken _ expected => inferInstanceAs (Decidable (expected ∈ expectable))
  | unexpectedEndOfInput expected =>
    inferInstanceAs (Decidable
      (expected ∈ expectable ∨ expected = .ofList ['}'] ∨ expected = "PrimaryExpression"))

theorem label_mem_expectable {kind : TokenKind} (h : kind ∈ Objection.missable) :
    kind.label ∈ expectable := by
  revert kind
  decide

end Fault

theorem Failure.IsForeseen.fault {failure : Failure} {t : Terminal} (h : failure.IsForeseen)
    (hend : failure.unread = [] → t.isEnd) : (failure.objection.fault t).IsForeseen := by
  obtain ⟨objection, unread⟩ := failure
  cases objection with
  | lexical character | nesting limit | assignmentTarget => trivial
  | noAlternative production =>
      obtain rfl : production = "PrimaryExpression" := h
      rw [Objection.fault]
      split
      · exact .inr (.inr rfl)
      · rfl
  | expected what =>
      rw [Objection.fault]
      rcases h with ⟨kind, hkind, rfl⟩ | ⟨rfl, hunread⟩
      · split
        · exact .inl (Fault.label_mem_expectable hkind)
        · exact Fault.label_mem_expectable hkind
      · rw [if_pos (hend hunread)]
        exact .inr (.inl rfl)

section Tables

variable {t : Terminal}

/-- A table of signs holds all terminals of certain kinds. -/
structure IsTable {α : Type} [Spelled α] (terminal : α → Terminal) (kinds : List TokenKind) :
    Prop where
  genuine : ∀ sign, (terminal sign).Genuine
  lexeme_eq : ∀ sign, (terminal sign).lexeme = Spelled.spelling sign
  kind_mem : ∀ sign, (terminal sign).kind ∈ kinds
  exists_eq : ∀ {t : Terminal}, t.Genuine → t.kind ∈ kinds → ∃ sign, t = terminal sign
  keyword_notMem : ∀ k : Keyword, TokenKind.keyword k ∉ kinds
  identifier_notMem : TokenKind.identifier ∉ kinds

theorem IsTable.isSome_ofSpelling?_iff {α : Type} [Spelled α] {terminal : α → Terminal}
    {kinds : List TokenKind} (h : IsTable terminal kinds)
    (ht : t.Genuine ∨ t.kind = .identifier ∧ ∃ k : Keyword, t.lexeme = k.spelling) :
    (Spelled.ofSpelling? t.lexeme : Option α).isSome ↔ t.kind ∈ kinds := by
  constructor
  · intro hsome
    obtain ⟨sign, hsign⟩ := Option.isSome_iff_exists.mp hsome
    have hspelling : Spelled.spelling sign = t.lexeme := Spelled.ofSpelling?_eq_some_iff.mp hsign
    have hkeyword : ∀ k : Keyword, (terminal sign).kind ≠ k := fun k hk =>
      h.keyword_notMem k (hk ▸ h.kind_mem sign)
    rw [Terminal.eq_of_lexeme_eq ht (h.genuine sign) hkeyword
      (hspelling.symm.trans (h.lexeme_eq sign).symm)]
    exact h.kind_mem sign
  · intro hkind
    have hgenuine : t.Genuine := ht.resolve_right fun ⟨hidentifier, _⟩ =>
      h.identifier_notMem (hidentifier ▸ hkind)
    obtain ⟨sign, rfl⟩ := h.exists_eq hgenuine hkind
    rw [h.lexeme_eq, Spelled.ofSpelling?_eq_some_iff.mpr rfl]
    rfl

open Grammar

theorem AssignmentOperator.isTable :
    IsTable AssignmentOperator.terminal [.simpleAssign, .complexAssign] where
  genuine := .assignment
  lexeme_eq _ := rfl
  kind_mem o := by cases o <;> decide
  exists_eq ht hkind := exists_assignmentOperator (.inl ht) (by simpa [isAssignment] using hkind)
  keyword_notMem := nofun
  identifier_notMem := by decide

theorem UnaryOperator.isTable :
    IsTable UnaryOperator.terminal [.additiveOperator, .logicalNot] where
  genuine := .prefixed
  lexeme_eq _ := rfl
  kind_mem o := by cases o <;> decide
  exists_eq {t} ht hkind := by
    have hstarts : startsOperation t.kind := by simpa [startsOperation] using hkind
    have hform := ht.form
    rcases Bool.or_eq_true_iff.mp hstarts with hadditive | hnot
    · rw [eq_of_beq hadditive] at hform
      exact hform.2
    · rw [eq_of_beq hnot] at hform
      exact hform
  keyword_notMem := nofun
  identifier_notMem := by decide

theorem BinaryOperator.isTable :
    IsTable (fun o => (Connective.binary o).terminal)
      [.equalityOperator, .relationalOperator, .additiveOperator, .multiplicativeOperator] where
  genuine _ := .connective _
  lexeme_eq _ := rfl
  kind_mem o := by cases o <;> decide
  exists_eq ht hkind := by
    have hprecedence : [TokenKind.equalityOperator, .relationalOperator, .additiveOperator,
        .multiplicativeOperator] ⊆ precedence := by decide
    obtain ⟨o | o, rfl⟩ := exists_connective ht (hprecedence hkind)
    · exact ⟨o, rfl⟩
    · cases o <;> exact absurd hkind (by decide)
  keyword_notMem := nofun
  identifier_notMem := by decide

theorem LogicalOperator.isTable :
    IsTable (fun o => (Connective.logical o).terminal) [.logicalAnd, .logicalOr] where
  genuine _ := .connective _
  lexeme_eq _ := rfl
  kind_mem o := by cases o <;> decide
  exists_eq ht hkind := by
    have hprecedence : [TokenKind.logicalAnd, .logicalOr] ⊆ precedence := by decide
    obtain ⟨o | o, rfl⟩ := exists_connective ht (hprecedence hkind)
    · cases o <;> exact absurd hkind (by decide)
    · exact ⟨o, rfl⟩
  keyword_notMem := nofun
  identifier_notMem := by decide

theorem Terminal.isSome_ofDigits?_iff
    (ht : t.Genuine ∨ t.kind = .identifier ∧ ∃ k : Keyword, t.lexeme = k.spelling) :
    (Double.ofDigits? t.lexeme.toList).isSome ↔ t.kind = .number := by
  have hdigits : (Double.ofDigits? t.lexeme.toList).isSome ↔
      t.lexeme.toList ≠ [] ∧ t.lexeme.toList.all Char.isDigit := by
    rw [Double.ofDigits?]
    split <;> simp_all
  rw [hdigits]
  constructor
  · rintro ⟨hne, hall⟩
    have hnumber : (ofDigits t.lexeme.toList).Genuine := .number hne (List.all_eq_true.mp hall)
    have hkeyword : ∀ k : Keyword, (ofDigits t.lexeme.toList).kind ≠ k := by
      intro k hk
      cases hk
    rw [eq_of_lexeme_eq ht hnumber hkeyword String.ofList_toList.symm]
    rfl
  · intro hkind
    have hgenuine : t.Genuine := ht.resolve_right fun hname => by
      have hidentifier := hkind.symm.trans hname.1
      cases hidentifier
    have hform := hgenuine.form
    rw [hkind] at hform
    obtain ⟨digits, hne, hall, rfl⟩ := hform
    rw [ofDigits, String.toList_ofList]
    exact ⟨hne, List.all_eq_true.mpr hall⟩

/-- The kind of a terminal agrees with the tables that have its lexeme. -/
structure Terminal.Tabled (t : Terminal) : Prop where
  assignment : (Spelled.ofSpelling? t.lexeme : Option AssignmentOperator).isSome ↔
    t.kind ∈ [TokenKind.simpleAssign, .complexAssign]
  logical : (Spelled.ofSpelling? t.lexeme : Option LogicalOperator).isSome ↔
    t.kind ∈ [TokenKind.logicalAnd, .logicalOr]
  binary : (Spelled.ofSpelling? t.lexeme : Option BinaryOperator).isSome ↔
    t.kind ∈ [TokenKind.equalityOperator, .relationalOperator, .additiveOperator,
      .multiplicativeOperator]
  prefixed : (Spelled.ofSpelling? t.lexeme : Option UnaryOperator).isSome ↔
    t.kind ∈ [TokenKind.additiveOperator, .logicalNot]
  number : (Double.ofDigits? t.lexeme.toList).isSome ↔ t.kind = .number

theorem Scan.tabled_of_mem_terminals {source : String} (h : t ∈ (ofSource source).terminals) :
    t.Tabled :=
  have ht := genuine_or_spells_of_mem_terminals t h
  ⟨AssignmentOperator.isTable.isSome_ofSpelling?_iff ht,
    LogicalOperator.isTable.isSome_ofSpelling?_iff ht,
    BinaryOperator.isTable.isSome_ofSpelling?_iff ht,
    UnaryOperator.isTable.isSome_ofSpelling?_iff ht, Terminal.isSome_ofDigits?_iff ht⟩

end Tables

namespace Program

variable {limit : Nat} {source : String} {e : SourceError}

theorem isForeseen_of_ofTerminals_eq_error {failure : Failure}
    (h : ofTerminals limit (Scan.ofSource source).stuck? (Scan.ofSource source).terminals =
      .error failure) : failure.IsForeseen := by
  rcases program_of_ofTerminals_eq_error h with hprogram | ⟨-, character, -, rfl⟩
  · exact (Grammar.foresees_program limit).of_error rfl Scan.lexed_of_mem_terminals hprogram
  · trivial

theorem isForeseen_of_parseWithin_eq_error (he : parseWithin limit source = .error e) :
    e.fault.IsForeseen := by
  obtain ⟨failure, hfailure, rfl⟩ := parseWithin_eq_error_iff.mp he
  rw [Objection.fault_report]
  refine (isForeseen_of_ofTerminals_eq_error hfailure).fault fun hunread => ?_
  rw [hunread]
  simp [Scan.tokenBefore, Token.endOfInput, Terminal.endOfInput, Terminal.isEnd]

theorem position_of_unexpectedEndOfInput {expected : String}
    (he : parseWithin limit source = .error e) (hfault : e.fault = .unexpectedEndOfInput expected) :
    e.position = .ofOffset source source.utf8ByteSize := by
  obtain ⟨offset, -, -, hposition, hholds⟩ := holdsAt_of_parseWithin_eq_error he
  rw [hfault] at hholds
  obtain rfl : offset = source.utf8ByteSize := hholds
  exact hposition

/-- The errors are closed, and the kinds of tokens agree with the tables. Every fault is one of
those foreseen, nothing falls back on an objection to the spelling of an operator or a literal, and
of each token the tables that have its lexeme are those for its kind. -/
theorem errors_closed (limit : Nat) (source : String) :
    (∀ e, parseWithin limit source = .error e → e.fault.IsForeseen ∧
      ∀ expected, e.fault = .unexpectedEndOfInput expected →
        e.position = .ofOffset source source.utf8ByteSize) ∧
    (∀ failure, ofTerminals limit (Scan.ofSource source).stuck? (Scan.ofSource source).terminals =
      .error failure → failure.objection ∉ Objection.fallbacks) ∧
    ∀ token, Tokenizer.Yields source token → token.toTerminal.Tabled := by
  refine ⟨fun e he => ?_, fun failure hfailure => ?_, fun token htoken => ?_⟩
  · exact ⟨isForeseen_of_parseWithin_eq_error he, fun _ => position_of_unexpectedEndOfInput he⟩
  · exact (isForeseen_of_ofTerminals_eq_error hfailure).notMem_fallbacks
  · exact Scan.tabled_of_mem_terminals (List.mem_map_of_mem (Tokenizer.yields_iff.mp htoken))

/-- A block that is not closed, in which a sign stands as a prefix operator. -/
theorem errors_closed_of_open_block :
    parseWithin 4 (.ofList ['{', '-', 'a', ';']) =
        .error ⟨.unexpectedEndOfInput (.ofList ['}']), ⟨1, 5, 4⟩⟩ ∧
      (Fault.unexpectedEndOfInput (.ofList ['}'])).IsForeseen ∧
      (⟨1, 5, 4⟩ : Position) = .ofOffset (.ofList ['{', '-', 'a', ';']) 4 ∧
      Objection.expected (.ofList ['}']) ∉ Objection.fallbacks ∧
      Tokenizer.Yields (.ofList ['{', '-', 'a', ';']) ⟨⟨.additiveOperator, "-"⟩, 1⟩ ∧
      Terminal.Tabled ⟨.additiveOperator, "-"⟩ := by
  have he : parseWithin 4 (.ofList ['{', '-', 'a', ';']) =
      .error ⟨.unexpectedEndOfInput (.ofList ['}']), ⟨1, 5, 4⟩⟩ := by decide +kernel
  have hfailure : ofTerminals 4 (Scan.ofSource (.ofList ['{', '-', 'a', ';'])).stuck?
      (Scan.ofSource (.ofList ['{', '-', 'a', ';'])).terminals =
        .error ⟨.expected (.ofList ['}']), []⟩ := by decide +kernel
  have htoken : Tokenizer.Yields (.ofList ['{', '-', 'a', ';']) ⟨⟨.additiveOperator, "-"⟩, 1⟩ :=
    Tokenizer.yields_of_mem_tokens (by decide +kernel)
  obtain ⟨herrors, hfallbacks, htables⟩ := errors_closed 4 (.ofList ['{', '-', 'a', ';'])
  obtain ⟨hforeseen, hend⟩ := herrors _ he
  exact ⟨he, hforeseen, hend _ rfl, hfallbacks _ hfailure, htoken, htables _ htoken⟩

/-- A brace that closes is not missed where something else stands. -/
example : ¬ (Fault.unexpectedToken ")" (.ofList ['}'])).IsForeseen := by decide

end Program

end Letter
