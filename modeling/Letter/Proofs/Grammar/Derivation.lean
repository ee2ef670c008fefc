import Letter.Proofs.Grammar.Language

/-!
The grammar of programs. Its nonterminals are the phrases, the parts of statements and what is
optional, repeated or listed of these; a derivation says which terminals a nonterminal stands for
and which value they build. The height of a derivation counts the statements, assignments, prefix
operations and `new` expressions along its longest path.
-/

namespace Letter

/-- The nonterminals of expressions, from the loosest to the tightest. -/
inductive Phrase where
  | assignment
  | logicalOr
  | logicalAnd
  | equality
  | relational
  | additive
  | multiplicative
  | unary
  | leftHandSide
  | member
  | primary
deriving DecidableEq, Repr

/-- Which operators join which operands to a phrase. -/
inductive Phrase.Joins : Phrase → TokenKind → Phrase → Prop
  | logicalOr : Joins .logicalOr .logicalOr .logicalAnd
  | logicalAnd : Joins .logicalAnd .logicalAnd .equality
  | equality : Joins .equality .equalityOperator .relational
  | relational : Joins .relational .relationalOperator .additive
  | additive : Joins .additive .additiveOperator .multiplicative
  | multiplicative : Joins .multiplicative .multiplicativeOperator .unary

inductive Symbol where
  | expression (phrase : Phrase)
  | identifier
  | arguments
  | initializer
  | declaration
  | forInit
  | superclass
  | block
  | statement
  | optional (s : Symbol)
  | many (s : Symbol)
  | commaSeparated (s : Symbol)
deriving DecidableEq, Repr

/-- What the sentences of a nonterminal denote. -/
def Symbol.Value : Symbol → Type
  | expression _ | initializer => Expression
  | identifier | superclass => Identifier
  | arguments => List Expression
  | declaration => VariableDeclaration
  | forInit => ForInit
  | block => List Statement
  | statement => Statement
  | optional s => Option s.Value
  | many s | commaSeparated s => List s.Value

/-- The derivations of the grammar, with their heights. -/
inductive Derives : (s : Symbol) → Language s.Value
  /- Expressions -/
  | simple {h ts e} (he : Derives (.expression .logicalOr) h ts e) :
      Derives (.expression .assignment) (h + 1) ts e
  | assigned {h h' ts ts' value} {target : AssignmentTarget} (operator : AssignmentOperator)
      (htarget : Derives (.expression .logicalOr) h ts target.toExpression)
      (hvalue : Derives (.expression .assignment) h' ts' value) :
      Derives (.expression .assignment) (max h h' + 1) (ts ++ operator.terminal :: ts')
        (.assignment operator target value)
  | operand {h ts e phrase kind tighter} (hjoins : Phrase.Joins phrase kind tighter)
      (he : Derives (.expression tighter) h ts e) : Derives (.expression phrase) h ts e
  | joined {h h' ts ts' left right phrase tighter} (connective : Connective)
      (hjoins : Phrase.Joins phrase connective.kind tighter)
      (hleft : Derives (.expression phrase) h ts left)
      (hright : Derives (.expression tighter) h' ts' right) :
      Derives (.expression phrase) (max h h') (ts ++ connective.terminal :: ts')
        (connective.join left right)
  | unprefixed {h ts e} (he : Derives (.expression .leftHandSide) h ts e) :
      Derives (.expression .unary) h ts e
  | prefixed {h ts argument} (operator : UnaryOperator)
      (hargument : Derives (.expression .unary) h ts argument) :
      Derives (.expression .unary) (h + 1) (operator.terminal :: ts) (.unary operator argument)
  | uncalled {h ts e} (he : Derives (.expression .member) h ts e) :
      Derives (.expression .leftHandSide) h ts e
  | call {h h' ts ts' callee arguments}
      (hcallee : Derives (.expression .leftHandSide) h ts callee)
      (harguments : Derives .arguments h' ts' arguments) :
      Derives (.expression .leftHandSide) (max h h') (ts ++ ts') (.call callee arguments)
  | bare {h ts e} (he : Derives (.expression .primary) h ts e) :
      Derives (.expression .member) h ts e
  | dotted {h h' ts ts' object} {id : Identifier}
      (hobject : Derives (.expression .member) h ts object)
      (hid : Derives .identifier h' ts' id) :
      Derives (.expression .member) (max h h') (ts ++ Punctuator.dot.terminal :: ts')
        (.member false object (.identifier id))
  | computed {h h' ts ts' object property}
      (hobject : Derives (.expression .member) h ts object)
      (hproperty : Derives (.expression .assignment) h' ts' property) :
      Derives (.expression .member) (max h h')
        (ts ++ Punctuator.leftBracket.terminal :: (ts' ++ [Punctuator.rightBracket.terminal]))
        (.member true object property)
  | number {digits : List Char} (hne : digits ≠ []) (hdigits : ∀ c ∈ digits, c.isDigit) :
      Derives (.expression .primary) 0 [.ofDigits digits]
        (.number (.ofNat (Double.decimalValue digits)))
  | string {quote : Char} {text : List Char} (hquote : quote = '"' ∨ quote = '\'')
      (htext : quote ∉ text) :
      Derives (.expression .primary) 0 [.quoted quote text] (.string (.ofList text))
  | true_ : Derives (.expression .primary) 0 [Keyword.true_.terminal] (.boolean true)
  | false_ : Derives (.expression .primary) 0 [Keyword.false_.terminal] (.boolean false)
  | null : Derives (.expression .primary) 0 [Keyword.null_.terminal] .null
  | this : Derives (.expression .primary) 0 [Keyword.this_.terminal] .this
  | super : Derives (.expression .primary) 0 [Keyword.super_.terminal] .super
  | named {h ts} {id : Identifier} (hid : Derives .identifier h ts id) :
      Derives (.expression .primary) h ts (.identifier id)
  | parenthesized {h ts e} (he : Derives (.expression .assignment) h ts e) :
      Derives (.expression .primary) h
        (Punctuator.leftParen.terminal :: (ts ++ [Punctuator.rightParen.terminal])) e
  | new {h h' ts ts' callee arguments}
      (hcallee : Derives (.expression .member) h ts callee)
      (harguments : Derives .arguments h' ts' arguments) :
      Derives (.expression .primary) (max h h' + 1) (Keyword.new_.terminal :: (ts ++ ts'))
        (.new callee arguments)
  | identifier {id : Identifier} (hid : id.WellFormed) : Derives .identifier 0 [id.terminal] id
  | arguments {h ts} {items : Option (List Expression)}
      (hitems : Derives (.optional (.commaSeparated (.expression .assignment))) h ts items) :
      Derives .arguments h
        (Punctuator.leftParen.terminal :: (ts ++ [Punctuator.rightParen.terminal]))
        (items.getD [])
  /- Parts of statements -/
  | initializer {h ts e} (he : Derives (.expression .assignment) h ts e) :
      Derives .initializer h (AssignmentOperator.assign.terminal :: ts) e
  | declaration {h h' ts ts' id init} (hid : Derives .identifier h ts id)
      (hinit : Derives (.optional .initializer) h' ts' init) :
      Derives .declaration (max h h') (ts ++ ts') ⟨id, init⟩
  | forVariables {h ts declarations}
      (hdeclarations : Derives (.commaSeparated .declaration) h ts declarations) :
      Derives .forInit h (Keyword.let_.terminal :: ts) (.variables declarations)
  | forExpression {h ts e} (he : Derives (.expression .assignment) h ts e) :
      Derives .forInit h ts (.expression e)
  | superclass {h ts} {id : Identifier} (hid : Derives .identifier h ts id) :
      Derives .superclass h (Keyword.extends_.terminal :: ts) id
  | block {h ts body} (hbody : Derives (.many .statement) h ts body) :
      Derives .block h
        (Punctuator.leftBrace.terminal :: (ts ++ [Punctuator.rightBrace.terminal])) body
  /- Statements -/
  | empty : Derives .statement 1 [Punctuator.semicolon.terminal] .empty
  | blockStatement {h ts body} (hbody : Derives .block h ts body) :
      Derives .statement (h + 1) ts (.block body)
  | variables {h ts declarations}
      (hdeclarations : Derives (.commaSeparated .declaration) h ts declarations) :
      Derives .statement (h + 1) (Keyword.let_.terminal :: (ts ++ [Punctuator.semicolon.terminal]))
        (.variables declarations)
  | conditional {h h' ts ts' test consequent}
      (htest : Derives (.expression .assignment) h ts test)
      (hconsequent : Derives .statement h' ts' consequent) :
      Derives .statement (max h h' + 1)
        (Keyword.if_.terminal :: Punctuator.leftParen.terminal ::
          (ts ++ Punctuator.rightParen.terminal :: ts'))
        (.conditional test consequent none)
  /-- An `else` belongs to the nearest `if` without one, so none is left open before it. -/
  | conditionalElse {h h' h'' ts ts' ts'' test alternate} {consequent : Statement}
      (htest : Derives (.expression .assignment) h ts test)
      (hconsequent : Derives .statement h' ts' consequent)
      (hclosed : consequent.endsOpen = false)
      (halternate : Derives .statement h'' ts'' alternate) :
      Derives .statement (max h (max h' h'') + 1)
        (Keyword.if_.terminal :: Punctuator.leftParen.terminal ::
          (ts ++ Punctuator.rightParen.terminal :: (ts' ++ Keyword.else_.terminal :: ts'')))
        (.conditional test consequent (some alternate))
  | whileLoop {h h' ts ts' test body} (htest : Derives (.expression .assignment) h ts test)
      (hbody : Derives .statement h' ts' body) :
      Derives .statement (max h h' + 1)
        (Keyword.while_.terminal :: Punctuator.leftParen.terminal ::
          (ts ++ Punctuator.rightParen.terminal :: ts'))
        (.whileLoop test body)
  | doWhileLoop {h h' ts ts' test body} (hbody : Derives .statement h ts body)
      (htest : Derives (.expression .assignment) h' ts' test) :
      Derives .statement (max h h' + 1)
        (Keyword.do_.terminal :: (ts ++ Keyword.while_.terminal :: Punctuator.leftParen.terminal ::
          (ts' ++ [Punctuator.rightParen.terminal, Punctuator.semicolon.terminal])))
        (.doWhileLoop body test)
  | forLoop {h₁ h₂ h₃ h₄ ts₁ ts₂ ts₃ ts₄ init test update body}
      (hinit : Derives (.optional .forInit) h₁ ts₁ init)
      (htest : Derives (.optional (.expression .assignment)) h₂ ts₂ test)
      (hupdate : Derives (.optional (.expression .assignment)) h₃ ts₃ update)
      (hbody : Derives .statement h₄ ts₄ body) :
      Derives .statement (max (max h₁ h₂) (max h₃ h₄) + 1)
        (Keyword.for_.terminal :: Punctuator.leftParen.terminal ::
          (ts₁ ++ Punctuator.semicolon.terminal :: (ts₂ ++ Punctuator.semicolon.terminal ::
            (ts₃ ++ Punctuator.rightParen.terminal :: ts₄))))
        (.forLoop init test update body)
  | functionDeclaration {h h' h'' ts ts' ts'' name body} {parameters : Option (List Identifier)}
      (hname : Derives .identifier h ts name)
      (hparameters : Derives (.optional (.commaSeparated .identifier)) h' ts' parameters)
      (hbody : Derives .block h'' ts'' body) :
      Derives .statement (max h (max h' h'') + 1)
        (Keyword.def_.terminal :: (ts ++ Punctuator.leftParen.terminal ::
          (ts' ++ Punctuator.rightParen.terminal :: ts'')))
        (.functionDeclaration name (parameters.getD []) body)
  | returnStatement {h ts argument}
      (hargument : Derives (.optional (.expression .assignment)) h ts argument) :
      Derives .statement (h + 1)
        (Keyword.return_.terminal :: (ts ++ [Punctuator.semicolon.terminal])) (.return_ argument)
  | classDeclaration {h h' h'' ts ts' ts'' id superclass body}
      (hid : Derives .identifier h ts id)
      (hsuperclass : Derives (.optional .superclass) h' ts' superclass)
      (hbody : Derives .block h'' ts'' body) :
      Derives .statement (max h (max h' h'') + 1) (Keyword.class_.terminal :: (ts ++ (ts' ++ ts'')))
        (.classDeclaration id superclass body)
  | expressionStatement {h ts e} (he : Derives (.expression .assignment) h ts e) :
      Derives .statement (h + 1) (ts ++ [Punctuator.semicolon.terminal]) (.expression e)
  /- Options, repetitions and lists -/
  | absent {s} : Derives (.optional s) 0 [] none
  | present {s h ts v} (hv : Derives s h ts v) : Derives (.optional s) h ts (some v)
  | nil {s} : Derives (.many s) 0 [] []
  | cons {s h h' ts ts' v vs} (hv : Derives s h ts v) (hvs : Derives (.many s) h' ts' vs) :
      Derives (.many s) (max h h') (ts ++ ts') (v :: vs)
  | single {s h ts v} (hv : Derives s h ts v) : Derives (.commaSeparated s) h ts [v]
  | more {s h h' ts ts' v vs} (hv : Derives s h ts v)
      (hvs : Derives (.commaSeparated s) h' ts' vs) :
      Derives (.commaSeparated s) (max h h') (ts ++ Punctuator.comma.terminal :: ts') (v :: vs)

end Letter
