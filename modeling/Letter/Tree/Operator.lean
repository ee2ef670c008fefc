import Letter.Text.Spelled

namespace Letter

inductive AssignmentOperator where
  | assign
  | addAssign
  | subtractAssign
  | multiplyAssign
  | divideAssign
deriving DecidableEq, Repr

namespace AssignmentOperator

def all : List AssignmentOperator :=
  [assign, addAssign, subtractAssign, multiplyAssign, divideAssign]

def spelling : AssignmentOperator → String
  | assign => "="
  | addAssign => "+="
  | subtractAssign => "-="
  | multiplyAssign => "*="
  | divideAssign => "/="

instance : Spelled AssignmentOperator where
  all := all
  spelling := spelling
  mem_all o := by cases o <;> decide
  spelling_injective a b := by cases a <;> cases b <;> decide

end AssignmentOperator

/-- The arithmetic operators and the comparisons. -/
inductive BinaryOperator where
  | add
  | subtract
  | multiply
  | divide
  | greater
  | greaterOrEqual
  | less
  | lessOrEqual
  | equal
  | notEqual
deriving DecidableEq, Repr

namespace BinaryOperator

def all : List BinaryOperator :=
  [add, subtract, multiply, divide, greater, greaterOrEqual, less, lessOrEqual, equal, notEqual]

def spelling : BinaryOperator → String
  | add => "+"
  | subtract => "-"
  | multiply => "*"
  | divide => "/"
  | greater => ">"
  | greaterOrEqual => ">="
  | less => "<"
  | lessOrEqual => "<="
  | equal => "=="
  | notEqual => "!="

instance : Spelled BinaryOperator where
  all := all
  spelling := spelling
  mem_all o := by cases o <;> decide
  spelling_injective a b := by cases a <;> cases b <;> decide

end BinaryOperator

/-- The operators that may leave their right operand unevaluated. -/
inductive LogicalOperator where
  | and
  | or
deriving DecidableEq, Repr

namespace LogicalOperator

def all : List LogicalOperator :=
  [and, or]

def spelling : LogicalOperator → String
  | and => "&&"
  | or => "||"

instance : Spelled LogicalOperator where
  all := all
  spelling := spelling
  mem_all o := by cases o <;> decide
  spelling_injective a b := by cases a <;> cases b <;> decide

end LogicalOperator

inductive UnaryOperator where
  | plus
  | minus
  | not
deriving DecidableEq, Repr

namespace UnaryOperator

def all : List UnaryOperator :=
  [plus, minus, not]

def spelling : UnaryOperator → String
  | plus => "+"
  | minus => "-"
  | not => "!"

instance : Spelled UnaryOperator where
  all := all
  spelling := spelling
  mem_all o := by cases o <;> decide
  spelling_injective a b := by cases a <;> cases b <;> decide

end UnaryOperator

/-- What may stand between two operands. -/
inductive Connective where
  | binary (operator : BinaryOperator)
  | logical (operator : LogicalOperator)
deriving DecidableEq, Repr

namespace Connective

def spelling : Connective → String
  | binary operator => operator.spelling
  | logical operator => operator.spelling

def all : List Connective :=
  BinaryOperator.all.map binary ++ LogicalOperator.all.map logical

instance : Spelled Connective where
  all := all
  spelling := spelling
  mem_all
    | binary o => by cases o <;> decide
    | logical o => by cases o <;> decide
  spelling_injective
    | binary o, binary o' => by cases o <;> cases o' <;> decide
    | binary o, logical o' => by cases o <;> cases o' <;> decide
    | logical o, binary o' => by cases o <;> cases o' <;> decide
    | logical o, logical o' => by cases o <;> cases o' <;> decide

end Connective

end Letter
