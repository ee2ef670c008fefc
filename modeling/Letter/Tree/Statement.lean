import Letter.Tree.Expression

namespace Letter

structure VariableDeclaration where
  id : Identifier
  init : Option Expression
deriving DecidableEq

/-- What may open the header of a `for` loop. -/
inductive ForInit where
  | variables (declarations : List VariableDeclaration)
  | expression (e : Expression)
deriving DecidableEq

inductive Statement where
  | expression (e : Expression)
  | block (body : List Statement)
  | empty
  | variables (declarations : List VariableDeclaration)
  | conditional (test : Expression) (consequent : Statement) (alternate : Option Statement)
  | whileLoop (test : Expression) (body : Statement)
  | doWhileLoop (body : Statement) (test : Expression)
  | forLoop (init : Option ForInit) (test update : Option Expression) (body : Statement)
  | functionDeclaration (name : Identifier) (parameters : List Identifier) (body : List Statement)
  | return_ (argument : Option Expression)
  | classDeclaration (id : Identifier) (superclass : Option Identifier) (body : List Statement)

structure Program where
  body : List Statement

namespace Statement

mutual

def beq : Statement → Statement → Bool
  | .expression e, .expression e' => e == e'
  | .block body, .block body' => beqList body body'
  | .empty, .empty => true
  | .variables declarations, .variables declarations' => declarations == declarations'
  | .conditional test consequent alternate, .conditional test' consequent' alternate' =>
    test == test' && consequent.beq consequent' && beqOption alternate alternate'
  | .whileLoop test body, .whileLoop test' body' => test == test' && body.beq body'
  | .doWhileLoop body test, .doWhileLoop body' test' => body.beq body' && test == test'
  | .forLoop init test update body, .forLoop init' test' update' body' =>
    init == init' && test == test' && update == update' && body.beq body'
  | .functionDeclaration name parameters body, .functionDeclaration name' parameters' body' =>
    name == name' && parameters == parameters' && beqList body body'
  | .return_ argument, .return_ argument' => argument == argument'
  | .classDeclaration id superclass body, .classDeclaration id' superclass' body' =>
    id == id' && superclass == superclass' && beqList body body'
  | _, _ => false

def beqOption : Option Statement → Option Statement → Bool
  | none, none => true
  | some s, some s' => s.beq s'
  | _, _ => false

def beqList : List Statement → List Statement → Bool
  | [], [] => true
  | s :: ss, s' :: ss' => s.beq s' && beqList ss ss'
  | _, _ => false

end

mutual

theorem beq_iff : ∀ s s' : Statement, s.beq s' = true ↔ s = s'
  | .expression _, s' | .empty, s' | .variables _, s' | .return_ _, s' => by
    cases s' <;> simp [beq]
  | .block body, s' => by
    cases s' <;> simp [beq, beqList_iff body]
  | .conditional _ consequent alternate, s' => by
    cases s' <;> simp [beq, consequent.beq_iff, beqOption_iff alternate, and_assoc]
  | .whileLoop _ body, s' => by
    cases s' <;> simp [beq, body.beq_iff]
  | .doWhileLoop body _, s' => by
    cases s' <;> simp [beq, body.beq_iff]
  | .forLoop _ _ _ body, s' => by
    cases s' <;> simp [beq, body.beq_iff, and_assoc]
  | .functionDeclaration _ _ body, s' => by
    cases s' <;> simp [beq, beqList_iff body, and_assoc]
  | .classDeclaration _ _ body, s' => by
    cases s' <;> simp [beq, beqList_iff body, and_assoc]

theorem beqOption_iff : ∀ s s' : Option Statement, beqOption s s' = true ↔ s = s'
  | none, s' => by
    cases s' <;> simp [beqOption]
  | some s, s' => by
    cases s' <;> simp [beqOption, s.beq_iff]

theorem beqList_iff : ∀ ss ss' : List Statement, beqList ss ss' = true ↔ ss = ss'
  | [], ss' => by
    cases ss' <;> simp [beqList]
  | s :: ss, ss' => by
    cases ss' <;> simp [beqList, s.beq_iff, beqList_iff ss]

end

instance : DecidableEq Statement := fun s s' => decidable_of_iff _ (s.beq_iff s')

end Statement

instance : DecidableEq Program := fun p p' =>
  decidable_of_iff (p.body = p'.body) (by cases p; cases p'; simp)

end Letter
