import Letter.Grammar.Statement
import Letter.Proofs.Production.Steady
import Letter.Proofs.Token.Genuine

/-!
Where a production judges a terminal that it has read. The blame for what is wrong with the
terminal is kept from before the reading, so reading and judging are taken as one step.
-/

namespace Letter

namespace Grammar

open Production

/-- The value of a literal. -/
def literalOf (t : Terminal) : Except Objection Expression :=
  match t.kind with
  | .number =>
    match Double.ofDigits? t.lexeme.toList with
    | some value => .ok (.number value)
    | none => .error (.noAlternative "NumericLiteral")
  | .string => .ok (.string (unquoted t.lexeme))
  | .keyword .true_ => .ok (.boolean true)
  | .keyword .false_ => .ok (.boolean false)
  | .keyword .null_ => .ok .null
  | _ => .error (.noAlternative "Literal")

theorem literal_eq : literal = judge literalOf := by
  refine congrArg (unread >>= ·) (funext fun start => ?_)
  refine congrArg (advance >>= ·) (funext fun token => ?_)
  rcases token with ⟨kind, lexeme⟩
  cases kind with
  | number =>
      simp only [literalOf]
      cases Double.ofDigits? lexeme.toList <;> rfl
  | keyword k => cases k <;> rfl
  | _ => rfl

theorem unquoted_quoted (quote : Char) (text : List Char) :
    unquoted (Terminal.quoted quote text).lexeme = .ofList text := by
  simp [unquoted, Terminal.quoted]

theorem literalOf_ofDigits {digits : List Char} (hne : digits ≠ [])
    (hdigits : ∀ c ∈ digits, c.isDigit) :
    literalOf (.ofDigits digits) = .ok (.number (.ofNat (Double.decimalValue digits))) := by
  have hall : digits.all Char.isDigit = true := List.all_eq_true.mpr hdigits
  simp [literalOf, Terminal.ofDigits, Double.ofDigits?, hne, hall]

theorem literalOf_quoted (quote : Char) (text : List Char) :
    literalOf (.quoted quote text) = .ok (.string (.ofList text)) := by
  rw [← unquoted_quoted quote text]
  rfl

/-- The operator that a terminal spells in front of an operand. -/
def prefixOf (t : Terminal) : Except Objection UnaryOperator :=
  match Spelled.ofSpelling? t.lexeme with
  | some operator => .ok operator
  | none => .error (.expected "unary operator")

theorem prefixOf_eq_ok {t : Terminal} {operator : UnaryOperator} :
    prefixOf t = .ok operator ↔ operator.spelling = t.lexeme := by
  have hoperator := Spelled.ofSpelling?_eq_some_iff (s := t.lexeme) (a := operator)
  unfold prefixOf
  constructor
  · intro h
    split at h
    · rename_i operator' hspelled
      cases h
      exact hoperator.mp hspelled
    · cases h
  · intro hspelled
    rw [hoperator.mpr hspelled]

theorem prefixOperator_eq : prefixOperator = judge prefixOf := by
  refine congrArg (unread >>= ·) (funext fun start => ?_)
  refine congrArg (advance >>= ·) (funext fun token => ?_)
  unfold prefixOf
  cases (Spelled.ofSpelling? token.lexeme : Option UnaryOperator) <;> rfl

theorem operation_eq (nested : Nested) :
    operation nested = judge prefixOf >>= fun operator =>
      unary nested >>= fun argument => pure (.unary operator argument) := by
  rw [← prefixOperator_eq]
  rfl

/-- The operator and the target of an assignment to what stands to the left of a terminal. -/
def assignmentTo (left : Expression) (t : Terminal) :
    Except Objection (AssignmentOperator × AssignmentTarget) :=
  match Spelled.ofSpelling? t.lexeme with
  | none => .error (.expected "assignment operator")
  | some operator =>
    match AssignmentTarget.ofExpression? left with
    | some target => .ok (operator, target)
    | none => .error .assignmentTarget

theorem assignmentTo_eq_ok {left : Expression} {t : Terminal} {operator : AssignmentOperator}
    {target : AssignmentTarget} :
    assignmentTo left t = .ok (operator, target) ↔
      operator.spelling = t.lexeme ∧ target.toExpression = left := by
  have hoperator := Spelled.ofSpelling?_eq_some_iff (s := t.lexeme) (a := operator)
  unfold assignmentTo
  constructor
  · intro h
    split at h
    · cases h
    · rename_i operator' hspelled
      split at h
      · rename_i target' htarget
        cases h
        exact ⟨hoperator.mp hspelled, AssignmentTarget.toExpression_of_ofExpression? htarget⟩
      · cases h
  · rintro ⟨hspelled, rfl⟩
    rw [hoperator.mpr hspelled]
    simp

theorem assignmentOperator_eq (left : Expression) :
    assignmentOperator left = judge (assignmentTo left) := by
  refine congrArg (unread >>= ·) (funext fun start => ?_)
  refine congrArg (advance >>= ·) (funext fun token => ?_)
  unfold assignmentTo
  cases (Spelled.ofSpelling? token.lexeme : Option AssignmentOperator) with
  | none => rfl
  | some operator => cases AssignmentTarget.ofExpression? left <;> rfl

/-- What follows the left side, if it is one, of an assignment. -/
def assignmentRest (nested : Nested) (left : Expression) : Production Expression := do
  if isAssignment (← lookahead).kind then
    let (operator, target) ← judge (assignmentTo left)
    let value ← nested.expression
    return .assignment operator target value
  else return left

theorem assignment_eq (nested : Nested) :
    assignment nested = logicalOr nested >>= assignmentRest nested := by
  refine congrArg (logicalOr nested >>= ·) (funext fun left => ?_)
  rw [assignmentRest, ← assignmentOperator_eq]
  rfl

theorem literalOf_late {t : Terminal} {objection : Objection}
    (h : literalOf t = .error objection) : objection.IsLate := by
  unfold literalOf at h
  split at h
  · split at h <;> cases h
    exact .inr (by decide)
  all_goals cases h
  exact .inr (by decide)

theorem prefixOf_late {t : Terminal} {objection : Objection}
    (h : prefixOf t = .error objection) : objection.IsLate := by
  unfold prefixOf at h
  split at h <;> cases h
  exact .inr (by decide)

theorem assignmentTo_late {left : Expression} {t : Terminal} {objection : Objection}
    (h : assignmentTo left t = .error objection) : objection.IsLate := by
  unfold assignmentTo at h
  split at h
  · cases h
    exact .inr (by decide)
  · split at h <;> cases h
    exact .inl rfl

theorem exists_connective {t : Terminal} (ht : t.Genuine) (hkind : t.kind ∈ precedence) :
    ∃ connective : Connective, t = connective.terminal := by
  have hform := ht.form
  generalize t.kind = kind at hkind hform
  simp only [precedence, List.mem_cons, List.not_mem_nil, or_false] at hkind
  rcases hkind with rfl | rfl | rfl | rfl | rfl | rfl
  case inr.inr.inr.inr.inl => exact hform.1
  all_goals exact hform

theorem ne_endOfInput_of_mem_precedence {kind : TokenKind} (hkind : kind ∈ precedence) :
    kind ≠ .endOfInput := by
  rintro rfl
  revert hkind
  decide

theorem leftAssociative_eq (kind : TokenKind) (operand : Production Expression) :
    leftAssociative kind operand = operand >>= fun first =>
      many (· == kind) (rightOperand operand) >>= fun others =>
        pure (others.foldl (fun left (connective, right) => connective.join left right) first) :=
  rfl

theorem rightOperand_eq_ok {operand : Production Expression} {stuck? : Option Char}
    {input rest : List Terminal} {connective : Connective} {right : Expression} :
    rightOperand operand stuck? input = .ok ((connective, right), rest) ↔
      ∃ token middle, advance stuck? input = .ok (token, middle) ∧
        operand stuck? middle = .ok (right, rest) ∧
        Spelled.ofSpelling? token.lexeme = some connective := by
  change (advance >>= fun token => operand >>= fun right =>
    require (Spelled.ofSpelling? token.lexeme) input (.expected "binary operator") >>=
      fun connective => pure (connective, right) : Production (Connective × Expression))
    stuck? input = _ ↔ _
  simp only [bind_eq_ok]
  refine exists₂_congr fun token middle => and_congr_right fun _ => ?_
  constructor
  · rintro ⟨right', rest', hright, connective', rest'', h, hpure⟩
    cases hspelled : (Spelled.ofSpelling? token.lexeme : Option Connective) with
    | none =>
        rw [hspelled] at h
        cases h
    | some connective'' =>
        rw [hspelled] at h
        cases h
        cases hpure
        exact ⟨hright, rfl⟩
  · rintro ⟨hright, hspelled⟩
    refine ⟨right, rest, hright, connective, rest, ?_, rfl⟩
    rw [hspelled]
    rfl

theorem rightOperand_eq_error {operand : Production Expression} {stuck? : Option Char}
    {input : List Terminal} {failure : Failure} :
    rightOperand operand stuck? input = .error failure ↔
      advance stuck? input = .error failure ∨
        ∃ token middle, advance stuck? input = .ok (token, middle) ∧
          (operand stuck? middle = .error failure ∨
            ∃ right rest, operand stuck? middle = .ok (right, rest) ∧
              (Spelled.ofSpelling? token.lexeme : Option Connective) = none ∧
              failure = ⟨.expected "binary operator", input⟩) := by
  change (advance >>= fun token => operand >>= fun right =>
    require (Spelled.ofSpelling? token.lexeme) input (.expected "binary operator") >>=
      fun connective => pure (connective, right) : Production (Connective × Expression))
    stuck? input = _ ↔ _
  simp only [bind_eq_error]
  refine or_congr_right (exists₂_congr fun token middle => and_congr_right fun _ =>
    or_congr_right (exists₂_congr fun right rest => and_congr_right fun _ => ?_))
  cases hspelled : (Spelled.ofSpelling? token.lexeme : Option Connective) with
  | none => simp [require, objectAt, eq_comm]
  | some connective => simp [require, pure]

end Grammar

namespace Production

open Grammar

theorem Steady.rightOperand {operand : Production Expression} (hoperand : operand.Steady) :
    (rightOperand operand).Steady where
  of_ok {stuck?} {input} {a} {rest} h := by
    obtain ⟨token, middle, hadvance, hright, -⟩ := rightOperand_eq_ok.mp h
    exact (hoperand.of_ok hright).trans (steady_advance.of_ok hadvance)
  of_error {stuck?} {input} {failure} h := by
    rcases rightOperand_eq_error.mp h with
      hadvance | ⟨token, middle, hadvance, hright | ⟨right, rest, -, -, rfl⟩⟩
    · exact steady_advance.of_error hadvance
    · exact (hoperand.of_error hright).trans (steady_advance.of_ok hadvance)
    · exact List.suffix_refl _
  of_ok_nil {character} {input} {a} h := by
    obtain ⟨token, middle, hadvance, hright, -⟩ := rightOperand_eq_ok.mp h
    obtain rfl := hoperand.of_ok_nil hright
    exact steady_advance.of_ok_nil hadvance
  of_lexical {stuck?} {input} {character} {unread} h := by
    rcases rightOperand_eq_error.mp h with
      hadvance | ⟨token, middle, -, hright | ⟨right, rest, -, -, heq⟩⟩
    · exact steady_advance.of_lexical hadvance
    · exact hoperand.of_lexical hright
    · cases heq
  of_error_nil {character} {input} {objection} h := by
    rcases rightOperand_eq_error.mp h with
      hadvance | ⟨token, middle, hadvance, hright | ⟨right, rest, -, -, heq⟩⟩
    · exact steady_advance.of_error_nil hadvance
    · rcases hoperand.of_error_nil hright with rfl | hlexical
      · exact .inl (steady_advance.of_ok_nil hadvance)
      · exact .inr hlexical
    · cases heq
      exact .inl rfl

theorem Progresses.rightOperand {operand : Production Expression}
    (hoperand : operand.Progresses) : (Grammar.rightOperand operand).Progresses := by
  intro stuck? input ⟨connective, right⟩ rest h
  obtain ⟨token, middle, hadvance, hright, -⟩ := rightOperand_eq_ok.mp h
  exact Nat.lt_of_lt_of_le (hoperand _ _ _ _ hright) (steady_advance.of_ok hadvance).length_le

end Production

end Letter
