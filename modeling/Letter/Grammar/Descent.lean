import Letter.Token.Basic
import Letter.Tree.Statement

/-!
The grammar as recursive descent. Each procedure takes a few steps and the procedures that it calls;
who takes the steps, and how a call is made, is left open.
-/

namespace Letter

/-- The steps of those who read by recursive descent. -/
class Descent (m : Type → Type) extends Monad m where
  /-- Looks at the next terminal. -/
  lookahead : m Terminal
  /-- Reads a terminal that has been seen to be of a kind. -/
  next (kind : TokenKind) : m Unit
  /-- Reads a terminal that has to be of a kind. -/
  skip (kind : TokenKind) : m Unit
  identifier : m Identifier
  literal : m Expression
  prefixOperator : m UnaryOperator
  /-- Reads the operator of an assignment to what has been read to its left. -/
  assignmentOperator (left : Expression) : m (AssignmentOperator × AssignmentTarget)
  /-- Reads a connective and the operand to its right. -/
  rightOperand (operand : m Expression) : m (Connective × Expression)
  noAlternative {α : Type} (production : String) : m α
  /-- Reads items as long as the next terminal is one with which they start. -/
  many {α : Type} (starts : TokenKind → Bool) (item : m α) : m (List α)
  /-- Reads one or more items with commas between them. -/
  commaSeparated {α : Type} (item : m α) : m (List α)

namespace Grammar

def startsProperty (kind : TokenKind) : Bool :=
  kind == Punctuator.dot || kind == Punctuator.leftBracket

def startsOperation (kind : TokenKind) : Bool :=
  kind == .additiveOperator || kind == .logicalNot

def isAssignment (kind : TokenKind) : Bool :=
  kind == .simpleAssign || kind == .complexAssign

def endsDeclaration (kind : TokenKind) : Bool :=
  kind == Punctuator.semicolon || kind == Punctuator.comma

end Grammar

namespace Descent

variable {m : Type → Type} [Descent m]

/-- An item, if the next terminal is one with which it starts. -/
def optional {α : Type} (starts : TokenKind → Bool) (item : m α) : m (Option α) := do
  if starts (← lookahead).kind then return some (← item) else return none

section Expressions

def parenthesized (expression : m Expression) : m Expression := do
  skip Punctuator.leftParen
  let e ← expression
  skip Punctuator.rightParen
  return e

def primary (literal parenthesized : m Expression) (identifier : m Identifier)
    (construction : m Expression) : m Expression := do
  match (← lookahead).kind with
  | .number | .string | .keyword .true_ | .keyword .false_ | .keyword .null_ => literal
  | .punctuator .leftParen => parenthesized
  | .identifier => return .identifier (← identifier)
  | .keyword .this_ =>
    next Keyword.this_
    return .this
  | .keyword .super_ =>
    next Keyword.super_
    return .super
  | .keyword .new_ => construction
  | _ => noAlternative "PrimaryExpression"

/-- A dot and a name, or an expression in brackets, which is a computed property. -/
def property (identifier : m Identifier) (expression : m Expression) :
    m (Bool × Expression) := do
  if (← lookahead).kind = Punctuator.dot then
    next Punctuator.dot
    return (false, .identifier (← identifier))
  else
    skip Punctuator.leftBracket
    let e ← expression
    skip Punctuator.rightBracket
    return (true, e)

def member (primary : m Expression) (property : m (Bool × Expression)) : m Expression := do
  let object ← primary
  let properties ← many Grammar.startsProperty property
  return properties.foldl (fun e (computed, property) => .member computed e property) object

def arguments (assignment : m Expression) : m (List Expression) := do
  skip Punctuator.leftParen
  let items ← optional (· != Punctuator.rightParen) (commaSeparated assignment)
  skip Punctuator.rightParen
  return items.getD []

/-- A member and the arguments of any calls. A call has no members. -/
def leftHandSide (member : m Expression) (arguments : m (List Expression)) : m Expression := do
  let callee ← member
  let calls ← many (· == Punctuator.leftParen) arguments
  return calls.foldl .call callee

def operand (operation leftHandSide : m Expression) : m Expression := do
  if Grammar.startsOperation (← lookahead).kind then operation else leftHandSide

/-- Operands of one level of precedence, which group to the left. -/
def leftAssociative (kind : TokenKind) (operand : m Expression) : m Expression := do
  let first ← operand
  let others ← many (· == kind) (rightOperand operand)
  return others.foldl (fun left (connective, right) => connective.join left right) first

def assignment (operands assignment : m Expression) : m Expression := do
  let left ← operands
  if Grammar.isAssignment (← lookahead).kind then
    let (operator, target) ← assignmentOperator left
    let value ← assignment
    return .assignment operator target value
  else return left

def operation (operand : m Expression) : m Expression := do
  let operator ← prefixOperator
  let argument ← operand
  return .unary operator argument

def construction (member : m Expression) (arguments : m (List Expression)) : m Expression := do
  skip Keyword.new_
  let callee ← member
  let arguments ← arguments
  return .new callee arguments

end Expressions

section Statements

/-- Statements up to a terminal of a given kind or the end of input. -/
def statements (statement : m Statement) (stop : TokenKind) : m (List Statement) :=
  many (fun kind => kind != stop && kind != .endOfInput) statement

def block (statements : TokenKind → m (List Statement)) : m (List Statement) := do
  skip Punctuator.leftBrace
  let body ← statements Punctuator.rightBrace
  skip Punctuator.rightBrace
  return body

/-- A name, and an initializer unless the declaration ends with the name. -/
def declaration (identifier : m Identifier) (assignment : m Expression) :
    m VariableDeclaration := do
  let id ← identifier
  let init ← optional (!Grammar.endsDeclaration ·) do
    skip .simpleAssign
    assignment
  return ⟨id, init⟩

def declarations (declaration : m VariableDeclaration) : m (List VariableDeclaration) := do
  let first ← declaration
  let others ← many (· == Punctuator.comma) do
    next Punctuator.comma
    declaration
  return first :: others

def variableStatement (declarations : m (List VariableDeclaration)) : m Statement := do
  skip Keyword.let_
  let declarations ← declarations
  skip Punctuator.semicolon
  return .variables declarations

/-- An `else` belongs to the innermost `if` that is still open. -/
def conditional (expression : m Expression) (statement : m Statement) : m Statement := do
  skip Keyword.if_
  let test ← parenthesized expression
  let consequent ← statement
  let alternate ← optional (· == Keyword.else_) do
    next Keyword.else_
    statement
  return .conditional test consequent alternate

def whileLoop (expression : m Expression) (statement : m Statement) : m Statement := do
  skip Keyword.while_
  let test ← parenthesized expression
  let body ← statement
  return .whileLoop test body

def doWhileLoop (expression : m Expression) (statement : m Statement) : m Statement := do
  skip Keyword.do_
  let body ← statement
  skip Keyword.while_
  let test ← parenthesized expression
  skip Punctuator.semicolon
  return .doWhileLoop body test

/-- Declarations here end with the semicolon of the header and have none of their own. -/
def forInit (declarations : m (List VariableDeclaration)) (expression : m Expression) :
    m ForInit := do
  if (← lookahead).kind = Keyword.let_ then
    next Keyword.let_
    return .variables (← declarations)
  else return .expression (← expression)

def forLoop (forInit : m ForInit) (expression : m Expression) (statement : m Statement) :
    m Statement := do
  skip Keyword.for_
  skip Punctuator.leftParen
  let init ← optional (· != Punctuator.semicolon) forInit
  skip Punctuator.semicolon
  let test ← optional (· != Punctuator.semicolon) expression
  skip Punctuator.semicolon
  let update ← optional (· != Punctuator.rightParen) expression
  skip Punctuator.rightParen
  let body ← statement
  return .forLoop init test update body

def functionDeclaration (identifier : m Identifier) (parameters : m (List Identifier))
    (block : m (List Statement)) : m Statement := do
  skip Keyword.def_
  let name ← identifier
  skip Punctuator.leftParen
  let parameters ← optional (· != Punctuator.rightParen) parameters
  skip Punctuator.rightParen
  let body ← block
  return .functionDeclaration name (parameters.getD []) body

def returnStatement (expression : m Expression) : m Statement := do
  skip Keyword.return_
  let argument ← optional (· != Punctuator.semicolon) expression
  skip Punctuator.semicolon
  return .return_ argument

def classDeclaration (identifier : m Identifier) (block : m (List Statement)) :
    m Statement := do
  skip Keyword.class_
  let id ← identifier
  let superclass ← optional (· == Keyword.extends_) do
    next Keyword.extends_
    identifier
  let body ← block
  return .classDeclaration id superclass body

def expressionStatement (expression : m Expression) : m Statement := do
  let e ← expression
  skip Punctuator.semicolon
  return .expression e

/-- How statements are read that begin with a keyword, a brace or an expression. -/
structure Forms (m : Type → Type) where
  block : m (List Statement)
  variableStatement : m Statement
  conditional : m Statement
  whileLoop : m Statement
  doWhileLoop : m Statement
  forLoop : m Statement
  function : m Statement
  return_ : m Statement
  class_ : m Statement
  expression : m Statement

def statement (forms : Forms m) : m Statement := do
  match (← lookahead).kind with
  | .punctuator .semicolon =>
    next Punctuator.semicolon
    return .empty
  | .punctuator .leftBrace => return .block (← forms.block)
  | .keyword .let_ => forms.variableStatement
  | .keyword .if_ => forms.conditional
  | .keyword .while_ => forms.whileLoop
  | .keyword .do_ => forms.doWhileLoop
  | .keyword .for_ => forms.forLoop
  | .keyword .def_ => forms.function
  | .keyword .return_ => forms.return_
  | .keyword .class_ => forms.class_
  | _ => forms.expression

def program (statements : TokenKind → m (List Statement)) : m Program := do
  return ⟨← statements .endOfInput⟩

end Statements

end Descent

end Letter
