import Letter.Grammar.Descent
import Letter.Grammar.Production

/-!
The productions of expressions. A production that opens a nesting level is not called directly
but taken from `Nested`, which holds these productions one level further in.
-/

namespace Letter

/-- The productions that open a nesting level, as the level around them sees them. -/
structure Nested where
  statement : Production Statement
  expression : Production Expression
  /-- A prefix operator and its argument. -/
  operation : Production Expression
  /-- A `new` expression. -/
  construction : Production Expression

namespace Grammar

section Steps

open Production

def identifier : Production Identifier := do
  let token ← expect .identifier
  return ⟨token.lexeme⟩

/-- The text between the quotes of a string. -/
def unquoted (lexeme : String) : String :=
  String.ofList lexeme.toList.tail.dropLast

def literal : Production Expression := do
  let start ← unread
  let token ← advance
  match token.kind with
  | .number =>
    let value ← require (Double.ofDigits? token.lexeme.toList) start
      (.noAlternative "NumericLiteral")
    return .number value
  | .string => return .string (unquoted token.lexeme)
  | .keyword .true_ => return .boolean true
  | .keyword .false_ => return .boolean false
  | .keyword .null_ => return .null
  | _ => objectAt start (.noAlternative "Literal")

def prefixOperator : Production UnaryOperator := do
  let start ← unread
  let token ← advance
  require (Spelled.ofSpelling? token.lexeme) start (.expected "unary operator")

/-- Whether the left side can be assigned to is known only behind it, and the assignment operator
is blamed if it cannot. -/
def assignmentOperator (left : Expression) :
    Production (AssignmentOperator × AssignmentTarget) := do
  let start ← unread
  let token ← advance
  let operator ← require (Spelled.ofSpelling? token.lexeme) start
    (.expected "assignment operator")
  let target ← require (AssignmentTarget.ofExpression? left) start .assignmentTarget
  return (operator, target)

/-- A connective and the operand to its right. -/
def rightOperand (operand : Production Expression) : Production (Connective × Expression) := do
  let start ← unread
  let token ← advance
  let right ← operand
  let connective : Connective ← require (Spelled.ofSpelling? token.lexeme) start
    (.expected "binary operator")
  return (connective, right)

instance : Descent Production where
  lookahead := lookahead
  next := skip
  skip := skip
  identifier := identifier
  literal := literal
  prefixOperator := prefixOperator
  assignmentOperator := assignmentOperator
  rightOperand := rightOperand
  noAlternative production := object (.noAlternative production)
  many := many
  commaSeparated := commaSeparated

end Steps

def parenthesized (nested : Nested) : Production Expression :=
  Descent.parenthesized nested.expression

def primary (nested : Nested) : Production Expression :=
  Descent.primary literal (parenthesized nested) identifier nested.construction

def property (nested : Nested) : Production (Bool × Expression) :=
  Descent.property identifier nested.expression

def member (nested : Nested) : Production Expression :=
  Descent.member (primary nested) (property nested)

def arguments (nested : Nested) : Production (List Expression) :=
  Descent.arguments nested.expression

def leftHandSide (nested : Nested) : Production Expression :=
  Descent.leftHandSide (member nested) (arguments nested)

def unary (nested : Nested) : Production Expression :=
  Descent.operand nested.operation (leftHandSide nested)

def leftAssociative : (kind : TokenKind) → (operand : Production Expression) →
    Production Expression :=
  Descent.leftAssociative

/-- The levels of precedence, from the loosest to the tightest. -/
def precedence : List TokenKind :=
  [.logicalOr, .logicalAnd, .equalityOperator, .relationalOperator, .additiveOperator,
   .multiplicativeOperator]

def logicalOr (nested : Nested) : Production Expression :=
  precedence.foldr leftAssociative (unary nested)

def assignment (nested : Nested) : Production Expression :=
  Descent.assignment (logicalOr nested) nested.expression

def operation (nested : Nested) : Production Expression :=
  Descent.operation (unary nested)

def construction (nested : Nested) : Production Expression :=
  Descent.construction (member nested) (arguments nested)

end Grammar

end Letter
