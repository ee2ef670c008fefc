import Letter.Number.Double
import Letter.Tree.Operator

namespace Letter

structure Identifier where
  name : String
deriving DecidableEq, Repr

mutual

inductive Expression where
  | identifier (id : Identifier)
  | number (value : Double)
  /-- The value is the text between the quotes, in which nothing is escaped. -/
  | string (value : String)
  | boolean (value : Bool)
  | null
  | assignment (operator : AssignmentOperator) (target : AssignmentTarget) (value : Expression)
  | binary (operator : BinaryOperator) (left right : Expression)
  | logical (operator : LogicalOperator) (left right : Expression)
  | unary (operator : UnaryOperator) (argument : Expression)
  /-- A property of an object, in brackets if computed and else a name behind a dot. -/
  | member (computed : Bool) (object property : Expression)
  | call (callee : Expression) (arguments : List Expression)
  | this
  | new (callee : Expression) (arguments : List Expression)
  | super

/-- The expressions to which a value can be assigned. -/
inductive AssignmentTarget where
  | identifier (id : Identifier)
  | member (computed : Bool) (object property : Expression)

end

namespace AssignmentTarget

def ofExpression? : Expression → Option AssignmentTarget
  | .identifier id => some (identifier id)
  | .member computed object property => some (member computed object property)
  | _ => none

def toExpression : AssignmentTarget → Expression
  | identifier id => .identifier id
  | member computed object property => .member computed object property

@[simp] theorem ofExpression?_toExpression (t : AssignmentTarget) :
    ofExpression? t.toExpression = some t := by
  cases t <;> rfl

theorem toExpression_of_ofExpression? {e : Expression} {t : AssignmentTarget}
    (h : ofExpression? e = some t) : t.toExpression = e := by
  cases e <;> simp [ofExpression?] at h <;> subst h <;> rfl

end AssignmentTarget

/-- Joins two operands by a connective. -/
def Connective.join : Connective → Expression → Expression → Expression
  | binary operator, left, right => .binary operator left right
  | logical operator, left, right => .logical operator left right

mutual

def Expression.beq : Expression → Expression → Bool
  | .identifier id, .identifier id' => id == id'
  | .number value, .number value' => value == value'
  | .string value, .string value' => value == value'
  | .boolean value, .boolean value' => value == value'
  | .null, .null => true
  | .assignment operator target value, .assignment operator' target' value' =>
    operator == operator' && target.beq target' && value.beq value'
  | .binary operator left right, .binary operator' left' right' =>
    operator == operator' && left.beq left' && right.beq right'
  | .logical operator left right, .logical operator' left' right' =>
    operator == operator' && left.beq left' && right.beq right'
  | .unary operator argument, .unary operator' argument' =>
    operator == operator' && argument.beq argument'
  | .member computed object property, .member computed' object' property' =>
    computed == computed' && object.beq object' && property.beq property'
  | .call callee arguments, .call callee' arguments' =>
    callee.beq callee' && Expression.beqList arguments arguments'
  | .this, .this => true
  | .new callee arguments, .new callee' arguments' =>
    callee.beq callee' && Expression.beqList arguments arguments'
  | .super, .super => true
  | _, _ => false

def AssignmentTarget.beq : AssignmentTarget → AssignmentTarget → Bool
  | .identifier id, .identifier id' => id == id'
  | .member computed object property, .member computed' object' property' =>
    computed == computed' && object.beq object' && property.beq property'
  | _, _ => false

def Expression.beqList : List Expression → List Expression → Bool
  | [], [] => true
  | e :: es, e' :: es' => e.beq e' && Expression.beqList es es'
  | _, _ => false

end

mutual

theorem Expression.beq_iff : ∀ e e' : Expression, e.beq e' = true ↔ e = e'
  | .identifier _, e' | .number _, e' | .string _, e' | .boolean _, e' | .null, e' | .this, e'
  | .super, e' => by
    cases e' <;> simp [Expression.beq]
  | .assignment _ target value, e' => by
    cases e' <;> simp [Expression.beq, target.beq_iff, value.beq_iff, and_assoc]
  | .binary _ left right, e' => by
    cases e' <;> simp [Expression.beq, left.beq_iff, right.beq_iff, and_assoc]
  | .logical _ left right, e' => by
    cases e' <;> simp [Expression.beq, left.beq_iff, right.beq_iff, and_assoc]
  | .unary _ argument, e' => by
    cases e' <;> simp [Expression.beq, argument.beq_iff]
  | .member _ object property, e' => by
    cases e' <;> simp [Expression.beq, object.beq_iff, property.beq_iff, and_assoc]
  | .call callee arguments, e' => by
    cases e' <;> simp [Expression.beq, callee.beq_iff, Expression.beqList_iff arguments]
  | .new callee arguments, e' => by
    cases e' <;> simp [Expression.beq, callee.beq_iff, Expression.beqList_iff arguments]

theorem AssignmentTarget.beq_iff : ∀ t t' : AssignmentTarget, t.beq t' = true ↔ t = t'
  | .identifier _, t' => by
    cases t' <;> simp [AssignmentTarget.beq]
  | .member _ object property, t' => by
    cases t' <;> simp [AssignmentTarget.beq, object.beq_iff, property.beq_iff, and_assoc]

theorem Expression.beqList_iff : ∀ es es' : List Expression,
    Expression.beqList es es' = true ↔ es = es'
  | [], es' => by
    cases es' <;> simp [Expression.beqList]
  | e :: es, es' => by
    cases es' <;> simp [Expression.beqList, e.beq_iff, Expression.beqList_iff es]

end

instance : DecidableEq Expression := fun e e' => decidable_of_iff _ (e.beq_iff e')

instance : DecidableEq AssignmentTarget := fun t t' => decidable_of_iff _ (t.beq_iff t')

end Letter
