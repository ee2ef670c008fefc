import Letter.Proofs.Descent.Following
import Letter.Proofs.Machine.Run
import Letter.Proofs.Machine.Simulation

namespace Letter

namespace Machine

open Grammar

variable {setting : Setting} {depth : Nat}

section Judging

variable (hsetting : setting.Admissible)

include hsetting

theorem judges_prefixOf :
    Judges setting (fun token => operatorOf token "unary operator") prefixOf := by
  intro token s _
  change operatorOf token "unary operator" setting s = _
  rw [operatorOf_eq hsetting, prefixOf]
  cases (Spelled.ofSpelling? token.lexeme : Option UnaryOperator) <;> rfl

theorem judges_assignmentTo (left : Expression) :
    Judges setting (assigned left) (assignmentTo left) := by
  intro token s _
  have hoperator : (operatorOf token "assignment operator" : Machine AssignmentOperator) setting s =
      _ := operatorOf_eq hsetting
  rw [assigned, assignmentTo]
  cases hspelled : (Spelled.ofSpelling? token.lexeme : Option AssignmentOperator) with
  | none =>
      rw [hspelled] at hoperator
      exact bind_of_error hoperator
  | some operator =>
      rw [hspelled] at hoperator
      rw [bind_of_value hoperator]
      cases AssignmentTarget.ofExpression? left with
      | none => exact invalidAssignmentTarget_eq hsetting
      | some target => rfl

theorem judges_literalOf : Judges setting literalOf Grammar.literalOf := by
  intro token s htoken
  have hgenuine (hkind : token.kind = .number ∨ token.kind = .string) : token.Genuine := by
    rcases htoken with htoken | hend
    · refine htoken.genuine ?_
      rcases hkind with hkind | hkind <;> rw [hkind] <;> decide
    · rcases hkind with hkind | hkind <;> cases hend.symm.trans hkind
  rw [literalOf, Grammar.literalOf]
  cases hkind : token.kind with
  | number =>
      have hform := (hgenuine (.inl hkind)).form
      rw [hkind] at hform
      obtain ⟨digits, hne, hdigits, heq⟩ := hform
      have hall : digits.all Char.isDigit = true := List.all_eq_true.mpr hdigits
      have hvalue : Double.ofDigits? token.lexeme.toList =
          some (.ofNat (Double.decimalValue digits)) := by
        rw [heq]
        simp [Terminal.ofDigits, Double.ofDigits?, hne, hall]
      rw [hvalue]
      rfl
  | string =>
      have hform := (hgenuine (.inr hkind)).form
      rw [hkind] at hform
      obtain ⟨quote, text, hquote, -, heq⟩ := hform
      have hinner : Text.inner? token.lexeme.toList = some text := by
        rw [heq, Terminal.quoted, String.toList_ofList]
        exact Text.inner?_quoted hquote text
      have hunquoted : unquoted token.lexeme = .ofList text := by
        rw [heq]
        exact unquoted_quoted quote text
      rw [hinner, hunquoted]
      rfl
  | keyword k => cases k <;> first | rfl | exact unexpectedProduction_eq hsetting
  | _ => exact unexpectedProduction_eq hsetting

end Judging

section Operands

theorem connectiveOf_eq {token : Token} {connective : Connective}
    (h : token.lexeme = connective.spelling) : connectiveOf token = pure connective := by
  cases connective with
  | logical operator =>
      have hspelled : (Spelled.ofSpelling? token.lexeme : Option LogicalOperator) =
          some operator := Spelled.ofSpelling?_eq_some_iff.mpr h.symm
      rw [connectiveOf, hspelled]
  | binary operator =>
      have hspelled : (Spelled.ofSpelling? token.lexeme : Option BinaryOperator) =
          some operator := Spelled.ofSpelling?_eq_some_iff.mpr h.symm
      have hother : (Spelled.ofSpelling? token.lexeme : Option LogicalOperator) = none := by
        rw [h]
        cases operator <;> decide
      rw [connectiveOf, hother, operatorOf, hspelled]
      rfl

theorem simulates_rightOperand {kind : TokenKind} (hkind : kind ∈ precedence)
    (hsetting : setting.Admissible) {m : Machine Expression} {operand : Production Expression}
    (h : Simulates setting depth m operand) :
    SimulatesFrom setting depth (fun token => token.kind == kind) id (rightOperand m)
      (Grammar.rightOperand operand) := by
  -- the operator is known before it is read, and with it how the operands are joined
  constructor
  intro unread s hs hahead
  have hprecedence : s.lookahead.kind ∈ precedence := eq_of_beq hahead ▸ hkind
  have hlexed := hs.lexed.resolve_right (ne_endOfInput_of_mem_precedence hprecedence)
  have hname : s.lookahead.kind ≠ .identifier := by
    intro hname
    rw [hname] at hprecedence
    revert hprecedence
    decide
  obtain ⟨connective, hconnective⟩ := exists_connective (hlexed.genuine hname) hprecedence
  have hlexeme : s.lookahead.lexeme = connective.spelling := congrArg (·.lexeme) hconnective
  have hspelled : Spelled.ofSpelling? s.lookahead.lexeme = some connective :=
    Spelled.ofSpelling?_eq_some_iff.mpr hlexeme.symm
  have hadvance : SimulatesFrom setting depth (fun _ => True) Token.toTerminal advance
      Production.advance := simulates_advance hsetting
  have hread := hadvance.results hs trivial
  change Matches setting depth id _ ((Production.advance >>= fun t => operand >>= fun right =>
    (Production.require (Spelled.ofSpelling? t.lexeme) (unread.map (·.toTerminal))
      (.expected "binary operator") : Production Connective) >>= fun connective =>
        pure (connective, right) : Production (Connective × Expression)) _ _)
  rw [rightOperand]
  simp only [Bind.bind]
  generalize hm : advance setting s = result, Production.advance _ _ = result' at hread
  cases hread with
  | error failure hdepth => exact .error failure hdepth
  | value hs' =>
      obtain rfl := eq_lookahead_of_advance hm
      dsimp only
      rw [hspelled, connectiveOf_eq hlexeme]
      have hpaired : Simulates setting depth (m >>= fun right => pure (connective, right))
          (operand >>= fun right => pure (connective, right)) := h.map
      exact hpaired.results hs' trivial

end Operands

theorem following (hsetting : setting.Admissible) (depth : Nat) :
    Descent.Following Machine fun starts m p =>
      SimulatesFrom setting depth (fun token => starts token.kind) id m p where
  mono h hstarts := h.mono fun token => hstarts token.kind
  pure a := simulates_pure (f := id) a
  bind h hf := h.bind hf
  lookahead_bind hf := by
    refine simulates_lookahead_bind fun token _ => (hf token.toTerminal).mono ?_
    rintro _ rfl
    rfl
  next _ := simulates_next hsetting
  skip _ := simulates_skip hsetting _
  identifier := (simulates_expect hsetting .identifier).bind fun _ => simulates_pure (f := id) _
  literal := by
    rw [literal_eq]
    exact simulates_judge hsetting (judges_literalOf hsetting)
  prefixOperator := by
    rw [prefixOperator_eq]
    exact simulates_judge hsetting (judges_prefixOf hsetting)
  assignmentOperator left := by
    rw [assignmentOperator_eq]
    exact simulates_judge hsetting (judges_assignmentTo hsetting left)
  noAlternative := simulates_object fun _ => unexpectedProduction_eq hsetting
  operands {kind _ _} hkind hoperand h := by
    have hend : (TokenKind.endOfInput == kind) = false :=
      beq_eq_false_iff_ne.mpr (ne_endOfInput_of_mem_precedence hkind).symm
    exact simulates_many hend hoperand.rightOperand (simulates_rightOperand hkind hsetting h)
  many hend hitem h := simulates_many hend hitem h
  commaSeparated hitem h := simulates_commaSeparated hsetting h hitem

/-- The machine does with each procedure what the grammar does, as long as the budget lasts for the
levels that are left to open. -/
theorem simulates_run {setting : Setting} (hsetting : setting.Admissible)
    {depth levels budget : Nat} {q : Procedure} (hlimit : depth + levels = setting.limit)
    (hbudget : q.rank + 32 * levels ≤ budget) :
    SimulatesFrom setting depth (fun token => q.Ahead token.kind) id (run budget q)
      (q.production (.within setting.limit levels)) :=
  Descent.follows_run (following hsetting) (simulates_tooDeep hsetting rfl)
    (simulates_nested hsetting) id hlimit hbudget

end Machine

end Letter
