import Letter.Grammar.Expression

namespace Letter.Grammar

def statements (nested : Nested) : (stop : TokenKind) → Production (List Statement) :=
  Descent.statements nested.statement

def block (nested : Nested) : Production (List Statement) :=
  Descent.block (statements nested)

def variableDeclaration (nested : Nested) : Production VariableDeclaration :=
  Descent.declaration identifier nested.expression

def variableDeclarations (nested : Nested) : Production (List VariableDeclaration) :=
  Descent.declarations (variableDeclaration nested)

def variableStatement (nested : Nested) : Production Statement :=
  Descent.variableStatement (variableDeclarations nested)

def conditional (nested : Nested) : Production Statement :=
  Descent.conditional nested.expression nested.statement

def whileLoop (nested : Nested) : Production Statement :=
  Descent.whileLoop nested.expression nested.statement

def doWhileLoop (nested : Nested) : Production Statement :=
  Descent.doWhileLoop nested.expression nested.statement

def forInit (nested : Nested) : Production ForInit :=
  Descent.forInit (variableDeclarations nested) nested.expression

def forLoop (nested : Nested) : Production Statement :=
  Descent.forLoop (forInit nested) nested.expression nested.statement

def functionDeclaration (nested : Nested) : Production Statement :=
  Descent.functionDeclaration identifier (.commaSeparated identifier) (block nested)

def returnStatement (nested : Nested) : Production Statement :=
  Descent.returnStatement nested.expression

def classDeclaration (nested : Nested) : Production Statement :=
  Descent.classDeclaration identifier (block nested)

def expressionStatement (nested : Nested) : Production Statement :=
  Descent.expressionStatement nested.expression

def statement (nested : Nested) : Production Statement :=
  Descent.statement
    { block := block nested
      variableStatement := variableStatement nested
      conditional := conditional nested
      whileLoop := whileLoop nested
      doWhileLoop := doWhileLoop nested
      forLoop := forLoop nested
      function := functionDeclaration nested
      return_ := returnStatement nested
      class_ := classDeclaration nested
      expression := expressionStatement nested }

end Letter.Grammar
