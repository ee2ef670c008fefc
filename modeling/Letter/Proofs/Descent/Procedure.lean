import Letter.Grammar.Program

namespace Letter

inductive Procedure where
  | program
  | statements (stop : TokenKind)
  | statement
  | statementKind
  | block
  | variableStatement
  | declarations
  | declaration
  | conditional
  | whileLoop
  | doWhileLoop
  | forLoop
  | forInit
  | functionDeclaration
  | parameters
  | returnStatement
  | classDeclaration
  | expressionStatement
  | expression
  | assignment
  | assignmentKind
  /-- Operands and connectives of some kinds, of which the first binds the loosest. If there are
  none, this is an operand by itself. -/
  | operands (kinds : List TokenKind) (hkinds : kinds ⊆ Grammar.precedence)
  | operation
  | leftHandSide
  | member
  | arguments
  | primary
  | parenthesized
  | construction
  | literal
  | identifier

/-- What is read one level further in. -/
inductive Opening where
  | statement
  | expression
  | operation
  | construction

namespace Procedure

/-- What a procedure makes of the terminals that it reads. -/
@[reducible] def Result : Procedure → Type
  | program => Program
  | statements _ | block => List Statement
  | statement | statementKind | variableStatement | conditional | whileLoop | doWhileLoop
  | forLoop | functionDeclaration | returnStatement | classDeclaration | expressionStatement =>
    Statement
  | declarations => List VariableDeclaration
  | declaration => VariableDeclaration
  | forInit => ForInit
  | parameters => List Identifier
  | arguments => List Expression
  | expression | assignment | assignmentKind | operands _ _ | operation | leftHandSide
  | member | primary | parenthesized | construction | literal => Expression
  | identifier => Identifier

/-- Whether it is a list of statements that is read, which can be empty. -/
def isList : Procedure → Bool
  | program | statements _ => true
  | _ => false

/-- What a procedure relies on to have been looked at. -/
def Ahead : Procedure → TokenKind → Prop
  | literal | operation => (· ≠ .endOfInput)
  | _ => fun _ => True

/-- How many calls a procedure needs at most, one within the other, before a level is opened. -/
def rank : Procedure → Nat
  | literal | identifier | statement | assignment => 1
  | statements _ | declaration | parameters | expression | arguments => 2
  | program | block | declarations | conditional | whileLoop | doWhileLoop | returnStatement
  | expressionStatement | parenthesized => 3
  | variableStatement | forInit | functionDeclaration | classDeclaration | primary => 4
  | forLoop | member => 5
  | statementKind | leftHandSide | construction => 6
  | operands kinds _ => kinds.length + 7
  | operation => 8
  | assignmentKind => 14

theorem rank_pos (q : Procedure) : 0 < q.rank := by
  cases q <;> simp [rank]

end Procedure

@[reducible] def Opening.procedure : Opening → Procedure
  | statement => .statementKind
  | expression => .assignmentKind
  | operation => .operation
  | construction => .construction

theorem Opening.rank_le (o : Opening) : o.procedure.rank ≤ 14 := by
  cases o <;> decide

namespace Procedure

section Bodies

variable {m : Type → Type} [Descent m]

/-- What a procedure does, given what the procedures do that it calls, and those for which it opens
a level. -/
def body (call : (q : Procedure) → m q.Result) (deeper : (o : Opening) → m o.procedure.Result) :
    (q : Procedure) → m q.Result
  | program => Descent.program fun stop => call (statements stop)
  | statements stop => Descent.statements (call statement) stop
  | statement => deeper .statement
  | statementKind => Descent.statement
      { block := call block
        variableStatement := call variableStatement
        conditional := call conditional
        whileLoop := call whileLoop
        doWhileLoop := call doWhileLoop
        forLoop := call forLoop
        function := call functionDeclaration
        return_ := call returnStatement
        class_ := call classDeclaration
        expression := call expressionStatement }
  | block => Descent.block fun stop => call (statements stop)
  | variableStatement => Descent.variableStatement (call declarations)
  | declarations => Descent.declarations (call declaration)
  | declaration => Descent.declaration (call identifier) (call assignment)
  | conditional => Descent.conditional (call expression) (call statement)
  | whileLoop => Descent.whileLoop (call expression) (call statement)
  | doWhileLoop => Descent.doWhileLoop (call expression) (call statement)
  | forLoop => Descent.forLoop (call forInit) (call expression) (call statement)
  | forInit => Descent.forInit (call declarations) (call expression)
  | functionDeclaration =>
    Descent.functionDeclaration (call identifier) (call parameters) (call block)
  | parameters => Descent.commaSeparated (call identifier)
  | returnStatement => Descent.returnStatement (call expression)
  | classDeclaration => Descent.classDeclaration (call identifier) (call block)
  | expressionStatement => Descent.expressionStatement (call expression)
  | expression => call assignment
  | assignment => deeper .expression
  | assignmentKind =>
    Descent.assignment (call (operands Grammar.precedence (List.Subset.refl _))) (call assignment)
  | operands [] _ => Descent.operand (deeper .operation) (call leftHandSide)
  | operands (kind :: tighter) hkinds =>
    Descent.leftAssociative kind (call (operands tighter (List.subset_of_cons_subset hkinds)))
  | operation => Descent.operation (call (operands [] (List.nil_subset _)))
  | leftHandSide => Descent.leftHandSide (call member) (call arguments)
  | member => Descent.member (call primary) (Descent.property (call identifier) (call expression))
  | arguments => Descent.arguments (call assignment)
  | primary =>
    Descent.primary (call literal) (call parenthesized) (call identifier) (deeper .construction)
  | parenthesized => Descent.parenthesized (call expression)
  | construction => Descent.construction (call member) (call arguments)
  | literal => Descent.literal
  | identifier => Descent.identifier

end Bodies

/-- The production that a procedure carries out, where it has some nested productions. -/
def production (n : Nested) : (q : Procedure) → Production q.Result
  | program => Descent.program (Grammar.statements n)
  | statements stop => Grammar.statements n stop
  | statement => n.statement
  | statementKind => Grammar.statement n
  | block => Grammar.block n
  | variableStatement => Grammar.variableStatement n
  | declarations => Grammar.variableDeclarations n
  | declaration => Grammar.variableDeclaration n
  | conditional => Grammar.conditional n
  | whileLoop => Grammar.whileLoop n
  | doWhileLoop => Grammar.doWhileLoop n
  | forLoop => Grammar.forLoop n
  | forInit => Grammar.forInit n
  | functionDeclaration => Grammar.functionDeclaration n
  | parameters => .commaSeparated Grammar.identifier
  | returnStatement => Grammar.returnStatement n
  | classDeclaration => Grammar.classDeclaration n
  | expressionStatement => Grammar.expressionStatement n
  | expression | assignment => n.expression
  | assignmentKind => Grammar.assignment n
  | operands kinds _ => kinds.foldr Grammar.leftAssociative (Grammar.unary n)
  | operation => Grammar.operation n
  | leftHandSide => Grammar.leftHandSide n
  | member => Grammar.member n
  | arguments => Grammar.arguments n
  | primary => Grammar.primary n
  | parenthesized => Grammar.parenthesized n
  | construction => Grammar.construction n
  | literal => Grammar.literal
  | identifier => Grammar.identifier

end Procedure

def Nested.opening (n : Nested) : (o : Opening) → Production o.procedure.Result
  | .statement => n.statement
  | .expression => n.expression
  | .operation => n.operation
  | .construction => n.construction

theorem Nested.opening_within_succ (limit levels : Nat) (o : Opening) :
    (Nested.within limit (levels + 1)).opening o =
      o.procedure.production (.within limit levels) := by
  cases o <;> rfl

theorem Procedure.body_production (n : Nested) (q : Procedure) :
    body (fun q => q.production n) n.opening q = q.production n := by
  cases q with
  | operands kinds hkinds => cases kinds <;> rfl
  | _ => rfl

end Letter
