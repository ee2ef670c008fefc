import Letter.Json.Basic
import Letter.Number.Decimal
import Letter.Tree.Statement

namespace Letter

namespace Double

/-- Numbers with a leading digit from `10 ^ -5` to `10 ^ 15` are written without an exponent. -/
def jsonStyle : Decimal.Style := ⟨-5, 15⟩

/-- The fewest digits that read back as a number; there is no JSON number for what is not finite. -/
def shortestJson : Double → Json
  | finite negative rank =>
    let text := (Decimal.shortest rank).write jsonStyle
    .number (if negative then '-' :: text else text)
  | infinite _ => .null
  | nan => .null

/-- Integers that fit into 64 bits, with or without a sign, are written digit by digit. -/
def toJson (v : Double) : Json :=
  match v.toInt? with
  | some i =>
    if -0x8000000000000000 ≤ i ∧ i < 0x10000000000000000 then .ofInt i else shortestJson v
  | none => shortestJson v

end Double

namespace Json

/-- A node of the tree: an object that opens with its type. -/
def node (type : String) (fields : List (String × Json)) : Json :=
  .object (("type", .string type) :: fields)

end Json

def Identifier.toJson (id : Identifier) : Json :=
  .node "Identifier" [("name", .string id.name)]

mutual

def Expression.toJson : Expression → Json
  | .identifier id => id.toJson
  | .number value => .node "NumericLiteral" [("value", value.toJson)]
  | .string value => .node "StringLiteral" [("value", .string value)]
  | .boolean value => .node "BooleanLiteral" [("value", .boolean value)]
  | .null => .node "NullLiteral" []
  | .assignment operator target value =>
    .node "AssignmentExpression"
      [("operator", .string operator.spelling), ("left", target.toJson), ("right", value.toJson)]
  | .binary operator left right =>
    .node "BinaryExpression"
      [("operator", .string operator.spelling), ("left", left.toJson), ("right", right.toJson)]
  | .logical operator left right =>
    .node "LogicalExpression"
      [("operator", .string operator.spelling), ("left", left.toJson), ("right", right.toJson)]
  | .unary operator argument =>
    .node "UnaryExpression"
      [("operator", .string operator.spelling), ("argument", argument.toJson)]
  | .member computed object property =>
    .node "MemberExpression"
      [("computed", .boolean computed), ("object", object.toJson), ("property", property.toJson)]
  | .call callee arguments =>
    .node "CallExpression"
      [("callee", callee.toJson), ("arguments", .array (Expression.listToJson arguments))]
  | .this => .node "ThisExpression" []
  | .new callee arguments =>
    .node "NewExpression"
      [("callee", callee.toJson), ("arguments", .array (Expression.listToJson arguments))]
  | .super => .node "Super" []

def AssignmentTarget.toJson : AssignmentTarget → Json
  | .identifier id => id.toJson
  | .member computed object property =>
    .node "MemberExpression"
      [("computed", .boolean computed), ("object", object.toJson), ("property", property.toJson)]

def Expression.listToJson : List Expression → List Json
  | [] => []
  | e :: es => e.toJson :: Expression.listToJson es

end

/-- The JSON form of what may be absent. -/
def Json.ofOption {α : Type} (toJson : α → Json) : Option α → Json
  | none => .null
  | some a => toJson a

def VariableDeclaration.toJson (declaration : VariableDeclaration) : Json :=
  .node "VariableDeclaration"
    [("id", declaration.id.toJson), ("init", .ofOption Expression.toJson declaration.init)]

namespace Statement

def variablesToJson (declarations : List VariableDeclaration) : Json :=
  .node "VariableStatement" [("declarations", .array (declarations.map (·.toJson)))]

def forInitToJson : ForInit → Json
  | .variables declarations => variablesToJson declarations
  | .expression e => e.toJson

def blockToJson (body : List Json) : Json :=
  .node "BlockStatement" [("body", .array body)]

mutual

def toJson : Statement → Json
  | .expression e => .node "ExpressionStatement" [("expression", e.toJson)]
  | .block body => blockToJson (listToJson body)
  | .empty => .node "EmptyStatement" []
  | .variables declarations => variablesToJson declarations
  | .conditional test consequent alternate =>
    .node "IfStatement"
      [("test", test.toJson), ("consequent", consequent.toJson),
       ("alternate", optionToJson alternate)]
  | .whileLoop test body =>
    .node "WhileStatement" [("test", test.toJson), ("body", body.toJson)]
  | .doWhileLoop body test =>
    .node "DoWhileStatement" [("body", body.toJson), ("test", test.toJson)]
  | .forLoop init test update body =>
    .node "ForStatement"
      [("init", .ofOption forInitToJson init), ("test", .ofOption Expression.toJson test),
       ("update", .ofOption Expression.toJson update), ("body", body.toJson)]
  | .functionDeclaration name parameters body =>
    .node "FunctionDeclaration"
      [("name", name.toJson), ("params", .array (parameters.map (·.toJson))),
       ("body", blockToJson (listToJson body))]
  | .return_ argument =>
    .node "ReturnStatement" [("argument", .ofOption Expression.toJson argument)]
  | .classDeclaration id superclass body =>
    .node "ClassDeclaration"
      [("id", id.toJson), ("superClass", .ofOption Identifier.toJson superclass),
       ("body", blockToJson (listToJson body))]

def optionToJson : Option Statement → Json
  | none => .null
  | some s => s.toJson

def listToJson : List Statement → List Json
  | [] => []
  | s :: ss => s.toJson :: listToJson ss

end

end Statement

def Program.toJson (program : Program) : Json :=
  .node "Program" [("body", .array (Statement.listToJson program.body))]

end Letter
