import Letter.Text.Spelled

namespace Letter

inductive Punctuator where
  | semicolon
  | leftBrace
  | rightBrace
  | leftParen
  | rightParen
  | comma
  | dot
  | leftBracket
  | rightBracket
deriving DecidableEq, Repr

namespace Punctuator

def all : List Punctuator :=
  [semicolon, leftBrace, rightBrace, leftParen, rightParen, comma, dot, leftBracket, rightBracket]

def spelling : Punctuator → String
  | semicolon => ";"
  | leftBrace => .ofList ['{']
  | rightBrace => .ofList ['}']
  | leftParen => "("
  | rightParen => ")"
  | comma => ","
  | dot => "."
  | leftBracket => "["
  | rightBracket => "]"

instance : Spelled Punctuator where
  all := all
  spelling := spelling
  mem_all p := by cases p <;> decide
  spelling_injective a b := by cases a <;> cases b <;> decide

end Punctuator

/-- The reserved words. -/
inductive Keyword where
  | let_
  | if_
  | else_
  | true_
  | false_
  | null_
  | while_
  | do_
  | for_
  | def_
  | return_
  | class_
  | extends_
  | super_
  | new_
  | this_
deriving DecidableEq, Repr

namespace Keyword

def all : List Keyword :=
  [let_, if_, else_, true_, false_, null_, while_, do_, for_, def_, return_, class_, extends_,
   super_, new_, this_]

def spelling : Keyword → String
  | let_ => "let"
  | if_ => "if"
  | else_ => "else"
  | true_ => "true"
  | false_ => "false"
  | null_ => "null"
  | while_ => "while"
  | do_ => "do"
  | for_ => "for"
  | def_ => "def"
  | return_ => "return"
  | class_ => "class"
  | extends_ => "extends"
  | super_ => "super"
  | new_ => "new"
  | this_ => "this"

instance : Spelled Keyword where
  all := all
  spelling := spelling
  mem_all k := by cases k <;> decide
  spelling_injective a b := by cases a <;> cases b <;> decide

end Keyword

/-- The classes into which the grammar sorts tokens. -/
inductive TokenKind where
  | punctuator (p : Punctuator)
  | keyword (k : Keyword)
  | number
  | identifier
  | string
  | simpleAssign
  | complexAssign
  | additiveOperator
  | multiplicativeOperator
  | relationalOperator
  | equalityOperator
  | logicalAnd
  | logicalOr
  | logicalNot
  | endOfInput
deriving DecidableEq, Repr

namespace TokenKind

instance : Coe Punctuator TokenKind := ⟨punctuator⟩

instance : Coe Keyword TokenKind := ⟨keyword⟩

def all : List TokenKind :=
  Punctuator.all.map punctuator ++ Keyword.all.map keyword ++
    [number, identifier, string, simpleAssign, complexAssign, additiveOperator,
     multiplicativeOperator, relationalOperator, equalityOperator, logicalAnd, logicalOr,
     logicalNot, endOfInput]

/-- The name by which messages call a kind of token. -/
def label : TokenKind → String
  | punctuator p => p.spelling
  | keyword k => k.spelling
  | number => "NUMBER"
  | identifier => "IDENTIFIER"
  | string => "STRING"
  | simpleAssign => "SIMPLE_ASSIGN"
  | complexAssign => "COMPLEX_ASSIGN"
  | additiveOperator => "ADDITIVE_OPERATOR"
  | multiplicativeOperator => "MULTIPLICATIVE_OPERATOR"
  | relationalOperator => "RELATIONAL_OPERATOR"
  | equalityOperator => "EQUALITY_OPERATOR"
  | logicalAnd => "LOGICAL_AND"
  | logicalOr => "LOGICAL_OR"
  | logicalNot => "LOGICAL_NOT"
  | endOfInput => "EOF"

theorem mem_all (kind : TokenKind) : kind ∈ all := by
  cases kind with
  | punctuator p => simp [all, show p ∈ Punctuator.all from Spelled.mem_all p]
  | keyword k => simp [all, show k ∈ Keyword.all from Spelled.mem_all k]
  | _ => simp [all]

instance {p : TokenKind → Prop} [DecidablePred p] : Decidable (∀ kind, p kind) :=
  decidable_of_iff (∀ kind ∈ all, p kind)
    ⟨fun h kind => h kind (mem_all kind), fun h kind _ => h kind⟩

end TokenKind

end Letter
