import Letter.Proofs.Descent.Procedure
import Letter.Proofs.Machine.Basic

namespace Letter

namespace Machine

section Judgements

/-- Digits have to denote a number, and a string has to have a quote at either end. -/
def literalOf (token : Token) : Machine Expression := do
  match token.kind with
  | .number => return .number (← require (Double.ofDigits? token.lexeme.toList))
  | .string => return .string (.ofList (← require (Text.inner? token.lexeme.toList)))
  | .keyword .true_ => return .boolean true
  | .keyword .false_ => return .boolean false
  | .keyword .null_ => return .null
  | _ => unexpectedProduction token "Literal"

def assigned (left : Expression) (token : Token) :
    Machine (AssignmentOperator × AssignmentTarget) := do
  let operator ← operatorOf token "assignment operator"
  match AssignmentTarget.ofExpression? left with
  | none => invalidAssignmentTarget token
  | some target => return (operator, target)

def connectiveOf (token : Token) : Machine Connective :=
  match (Spelled.ofSpelling? token.lexeme : Option LogicalOperator) with
  | some operator => return .logical operator
  | none => do return .binary (← operatorOf token "binary operator")

end Judgements

def rightOperand (operand : Machine Expression) : Machine (Connective × Expression) := do
  let token ← advance
  let right ← operand
  return (← connectiveOf token, right)

instance : Descent Machine where
  lookahead := do return (← lookahead).toTerminal
  next _ := next
  skip := skip
  identifier := do
    let token ← expect .identifier
    return ⟨token.lexeme⟩
  literal := do literalOf (← advance)
  prefixOperator := do operatorOf (← advance) "unary operator"
  assignmentOperator left := do assigned left (← advance)
  rightOperand := rightOperand
  noAlternative production := do unexpectedProduction (← lookahead) production
  many := many
  commaSeparated := commaSeparated

/-- Runs a procedure with a budget for calls within calls. -/
def run : (budget : Nat) → (q : Procedure) → Machine q.Result
  | 0, _ => breach
  | budget + 1, q => q.body (run budget) fun o => nested (run budget o.procedure)

/-- Reads a whole source: looks at its first token and runs the procedure for programs. -/
def parse (setting : Setting) (budget : Nat) : Outcome Program :=
  (do
    look
    run budget .program : Machine Program) setting .start |>.1

end Machine

end Letter
