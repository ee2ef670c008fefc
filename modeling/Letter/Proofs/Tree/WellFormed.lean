import Letter.Text.WordCharacter
import Letter.Token.Kind
import Letter.Tree.Statement

namespace Letter

/-- A letter or underscore, then letters, digits and underscores, and no reserved word. -/
def Identifier.WellFormed (id : Identifier) : Prop :=
  (∃ c cs, id.name.toList = c :: cs ∧ (c.isAlpha ∨ c = '_') ∧
    ∀ c' ∈ cs, Text.isNameCharacter c') ∧
  ∀ k : Keyword, k.spelling ≠ id.name

/-- The values of digit strings: the non-negative whole numbers and, for too many digits,
infinity. Zero has no sign. -/
def Double.IsWhole : Double → Prop
  | .finite negative rank => negative = false ∧ unitsPerOne ∣ units rank
  | .infinite negative => negative = false
  | .nan => False

mutual

def Expression.WellFormed : Expression → Prop
  | .identifier id => id.WellFormed
  | .number value => value.IsWhole
  | .string value => ¬('"' ∈ value.toList ∧ '\'' ∈ value.toList)
  | .boolean _ | .null | .this | .super => True
  | .assignment _ target value => target.WellFormed ∧ value.WellFormed
  | .binary _ left right | .logical _ left right => left.WellFormed ∧ right.WellFormed
  | .unary _ argument => argument.WellFormed
  | .member computed object property =>
    object.WellFormed ∧ property.WellFormed ∧
      (computed = false → ∃ id, property = .identifier id)
  | .call callee arguments | .new callee arguments =>
    callee.WellFormed ∧ Expression.AllWellFormed arguments

def AssignmentTarget.WellFormed : AssignmentTarget → Prop
  | .identifier id => id.WellFormed
  | .member computed object property =>
    object.WellFormed ∧ property.WellFormed ∧
      (computed = false → ∃ id, property = .identifier id)

def Expression.AllWellFormed : List Expression → Prop
  | [] => True
  | e :: es => e.WellFormed ∧ Expression.AllWellFormed es

end

theorem AssignmentTarget.wellFormed_toExpression (target : AssignmentTarget) :
    target.toExpression.WellFormed ↔ target.WellFormed := by
  cases target <;>
    simp only [toExpression, Expression.WellFormed, AssignmentTarget.WellFormed]

theorem Expression.allWellFormed_iff {es : List Expression} :
    Expression.AllWellFormed es ↔ ∀ e ∈ es, e.WellFormed := by
  induction es with
  | nil => simp [Expression.AllWellFormed]
  | cons e es ih => simp [Expression.AllWellFormed, ih]

def VariableDeclaration.WellFormed (declaration : VariableDeclaration) : Prop :=
  declaration.id.WellFormed ∧ ∀ e ∈ declaration.init, e.WellFormed

def ForInit.WellFormed : ForInit → Prop
  | .variables declarations => declarations ≠ [] ∧ ∀ d ∈ declarations, d.WellFormed
  | .expression e => e.WellFormed

namespace Statement

/-- Whether a statement has an `if` without alternate at its end, to which an `else` behind the
statement would belong. -/
def endsOpen : Statement → Bool
  | .conditional _ _ none => true
  | .conditional _ _ (some alternate) => alternate.endsOpen
  | .whileLoop _ body | .forLoop _ _ _ body => body.endsOpen
  | _ => false

mutual

def WellFormed : Statement → Prop
  | .expression e => e.WellFormed
  | .block body => AllWellFormed body
  | .empty => True
  | .variables declarations => declarations ≠ [] ∧ ∀ d ∈ declarations, d.WellFormed
  | .conditional test consequent none => test.WellFormed ∧ consequent.WellFormed
  | .conditional test consequent (some alternate) =>
    test.WellFormed ∧ consequent.WellFormed ∧ consequent.endsOpen = false ∧
      alternate.WellFormed
  | .whileLoop test body | .doWhileLoop body test => test.WellFormed ∧ body.WellFormed
  | .forLoop init test update body =>
    (∀ i ∈ init, i.WellFormed) ∧ (∀ e ∈ test, e.WellFormed) ∧ (∀ e ∈ update, e.WellFormed) ∧
      body.WellFormed
  | .functionDeclaration name parameters body =>
    name.WellFormed ∧ (∀ id ∈ parameters, id.WellFormed) ∧ AllWellFormed body
  | .return_ argument => ∀ e ∈ argument, e.WellFormed
  | .classDeclaration id superclass body =>
    id.WellFormed ∧ (∀ id' ∈ superclass, id'.WellFormed) ∧ AllWellFormed body

def AllWellFormed : List Statement → Prop
  | [] => True
  | s :: ss => s.WellFormed ∧ AllWellFormed ss

end

theorem allWellFormed_iff {ss : List Statement} : AllWellFormed ss ↔ ∀ s ∈ ss, s.WellFormed := by
  induction ss with
  | nil => simp [AllWellFormed]
  | cons s ss ih => simp [AllWellFormed, ih]

end Statement

/-- What the text of a program guarantees of its tree. -/
def Program.WellFormed (program : Program) : Prop :=
  ∀ s ∈ program.body, s.WellFormed

end Letter
