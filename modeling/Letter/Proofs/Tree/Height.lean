import Letter.Tree.Json

/-!
How high trees are. An operator is to the left operand what a member is to its object and a call to
its callee: the next link of a chain. What such a step counts for is left open, so that a chain is
as high as it is long or no higher than the highest that hangs on it.
-/

namespace Letter

/-- The greatest of some heights, or zero if there are none. -/
def highest {α : Type} (height : α → Nat) : List α → Nat
  | [] => 0
  | a :: as => max (height a) (highest height as)

mutual

/-- The number of nodes on the longest path down from an expression, with the steps to left
operands, objects of members and callees counted by `link`. -/
def Expression.heightBy (link : Nat) : Expression → Nat
  | .identifier _ | .number _ | .string _ | .boolean _ | .null | .this | .super => 1
  | .assignment _ target value => max (target.heightBy link) (value.heightBy link) + 1
  | .binary _ left right | .logical _ left right =>
    max (left.heightBy link + link) (right.heightBy link + 1)
  | .unary _ argument => argument.heightBy link + 1
  | .member _ object property => max (object.heightBy link + link) (property.heightBy link + 1)
  | .call callee arguments =>
    max (callee.heightBy link + link) (Expression.listHeightBy link arguments + 1)
  | .new callee arguments =>
    max (callee.heightBy link) (Expression.listHeightBy link arguments) + 1

def AssignmentTarget.heightBy (link : Nat) : AssignmentTarget → Nat
  | .identifier _ => 1
  | .member _ object property => max (object.heightBy link + link) (property.heightBy link + 1)

def Expression.listHeightBy (link : Nat) : List Expression → Nat
  | [] => 0
  | e :: es => max (e.heightBy link) (Expression.listHeightBy link es)

end

def Expression.optionHeightBy (link : Nat) (e? : Option Expression) : Nat :=
  e?.elim 0 (heightBy link)

/-- A declaration has a name, which is a node. -/
def VariableDeclaration.heightBy (link : Nat) (declaration : VariableDeclaration) : Nat :=
  max 1 (Expression.optionHeightBy link declaration.init) + 1

def ForInit.heightBy (link : Nat) : ForInit → Nat
  | .variables declarations => highest (VariableDeclaration.heightBy link) declarations + 1
  | .expression e => e.heightBy link

namespace Statement

mutual

/-- The body of a function or a class is a block, which is a node. -/
def heightBy (link : Nat) : Statement → Nat
  | .expression e => e.heightBy link + 1
  | .block body => listHeightBy link body + 1
  | .empty => 1
  | .variables declarations => highest (VariableDeclaration.heightBy link) declarations + 1
  | .conditional test consequent alternate =>
    max (test.heightBy link)
      (max (consequent.heightBy link) (optionHeightBy link alternate)) + 1
  | .whileLoop test body | .doWhileLoop body test =>
    max (test.heightBy link) (body.heightBy link) + 1
  | .forLoop init test update body =>
    max (max (init.elim 0 (ForInit.heightBy link)) (Expression.optionHeightBy link test))
      (max (Expression.optionHeightBy link update) (body.heightBy link)) + 1
  | .functionDeclaration _ _ body | .classDeclaration _ _ body => listHeightBy link body + 2
  | .return_ argument => Expression.optionHeightBy link argument + 1

def optionHeightBy (link : Nat) : Option Statement → Nat
  | none => 0
  | some s => s.heightBy link

def listHeightBy (link : Nat) : List Statement → Nat
  | [] => 0
  | s :: ss => max (s.heightBy link) (listHeightBy link ss)

end

theorem listHeightBy_eq (link : Nat) (ss : List Statement) :
    listHeightBy link ss = highest (heightBy link) ss := by
  induction ss with
  | nil => rfl
  | cons s ss ih => rw [listHeightBy, highest, ih]

end Statement

theorem Expression.listHeightBy_eq (link : Nat) (es : List Expression) :
    listHeightBy link es = highest (heightBy link) es := by
  induction es with
  | nil => rfl
  | cons e es ih => rw [listHeightBy, highest, ih]

def Program.heightBy (link : Nat) (p : Program) : Nat :=
  Statement.listHeightBy link p.body + 1

/-- The number of nodes on the longest path down from the program itself. -/
def Program.height (p : Program) : Nat :=
  p.heightBy 1

section Json

mutual

/-- How deep objects stand within each other. -/
def Json.height : Json → Nat
  | .null | .boolean _ | .number _ | .string _ => 0
  | .array items => Json.listHeight items
  | .object fields => Json.fieldsHeight fields + 1

def Json.listHeight : List Json → Nat
  | [] => 0
  | v :: vs => max v.height (Json.listHeight vs)

def Json.fieldsHeight : List (String × Json) → Nat
  | [] => 0
  | (_, v) :: fields => max v.height (Json.fieldsHeight fields)

end

@[simp] theorem Json.height_node (type : String) (fields : List (String × Json)) :
    (node type fields).height = fieldsHeight fields + 1 := by
  simp [node, height, fieldsHeight]

theorem Json.listHeight_map {α : Type} {toJson : α → Json} {height : α → Nat}
    (h : ∀ a, (toJson a).height = height a) (as : List α) :
    listHeight (as.map toJson) = highest height as := by
  induction as with
  | nil => rfl
  | cons a as ih => rw [List.map_cons, listHeight, highest, h, ih]

theorem Json.height_ofOption {α : Type} {toJson : α → Json} {height : α → Nat}
    (h : ∀ a, (toJson a).height = height a) (a? : Option α) :
    (ofOption toJson a?).height = a?.elim 0 height := by
  cases a? with
  | none => rfl
  | some a => exact h a

@[simp] theorem Identifier.height_toJson (id : Identifier) : id.toJson.height = 1 := by
  simp [Identifier.toJson, Json.fieldsHeight, Json.height]

theorem Identifier.listHeight_map_toJson_le (ids : List Identifier) :
    Json.listHeight (ids.map (·.toJson)) ≤ 1 := by
  induction ids with
  | nil => exact Nat.zero_le _
  | cons id ids ih =>
      rw [List.map_cons, Json.listHeight, height_toJson]
      exact Nat.max_le.mpr ⟨Nat.le_refl _, ih⟩

theorem Identifier.height_ofOption_toJson_le (id? : Option Identifier) :
    (Json.ofOption toJson id?).height ≤ 1 := by
  cases id? with
  | none => exact Nat.zero_le _
  | some id => exact Nat.le_of_eq id.height_toJson

theorem Double.height_toJson (v : Double) : v.toJson.height = 0 := by
  have hshortest : v.shortestJson.height = 0 := by
    cases v <;> rfl
  rw [toJson]
  split
  · split
    · rfl
    · exact hshortest
  · exact hshortest

mutual

theorem Expression.height_toJson : ∀ e : Expression, e.toJson.height = e.heightBy 1
  | .identifier _ | .string _ | .boolean _ | .null | .this | .super => by
    simp [Expression.toJson, Expression.heightBy, Json.fieldsHeight, Json.height]
  | .number value => by
    simp [Expression.toJson, Expression.heightBy, Json.fieldsHeight, value.height_toJson]
  | .assignment _ target value => by
    simp [Expression.toJson, Expression.heightBy, Json.fieldsHeight, Json.height,
      target.height_toJson, value.height_toJson]
  | .binary _ left right | .logical _ left right => by
    simp [Expression.toJson, Expression.heightBy, Json.fieldsHeight, Json.height,
      left.height_toJson, right.height_toJson]
  | .unary _ argument => by
    simp [Expression.toJson, Expression.heightBy, Json.fieldsHeight, Json.height,
      argument.height_toJson]
  | .member _ object property => by
    simp [Expression.toJson, Expression.heightBy, Json.fieldsHeight, Json.height,
      object.height_toJson, property.height_toJson]
  | .call callee arguments => by
    simp [Expression.toJson, Expression.heightBy, Json.fieldsHeight, Json.height,
      callee.height_toJson, Expression.listHeight_listToJson arguments]
  | .new callee arguments => by
    simp [Expression.toJson, Expression.heightBy, Json.fieldsHeight, Json.height,
      callee.height_toJson, Expression.listHeight_listToJson arguments]

theorem AssignmentTarget.height_toJson : ∀ t : AssignmentTarget, t.toJson.height = t.heightBy 1
  | .identifier id => id.height_toJson
  | .member _ object property => by
    simp [AssignmentTarget.toJson, AssignmentTarget.heightBy, Json.fieldsHeight, Json.height,
      object.height_toJson, property.height_toJson]

theorem Expression.listHeight_listToJson : ∀ es : List Expression,
    Json.listHeight (Expression.listToJson es) = Expression.listHeightBy 1 es
  | [] => rfl
  | e :: es => by
    rw [Expression.listToJson, Json.listHeight, Expression.listHeightBy, e.height_toJson,
      Expression.listHeight_listToJson es]

end

theorem Expression.height_ofOption_toJson (e? : Option Expression) :
    (Json.ofOption Expression.toJson e?).height = Expression.optionHeightBy 1 e? :=
  Json.height_ofOption Expression.height_toJson e?

theorem VariableDeclaration.height_toJson (d : VariableDeclaration) :
    d.toJson.height = d.heightBy 1 := by
  simp [VariableDeclaration.toJson, heightBy, Json.fieldsHeight,
    Expression.height_ofOption_toJson]

namespace Statement

theorem height_variablesToJson (declarations : List VariableDeclaration) :
    (variablesToJson declarations).height =
      highest (VariableDeclaration.heightBy 1) declarations + 1 := by
  simp [variablesToJson, Json.fieldsHeight, Json.height,
    Json.listHeight_map VariableDeclaration.height_toJson]

theorem height_forInitToJson (i : ForInit) : (forInitToJson i).height = i.heightBy 1 := by
  cases i with
  | «variables» declarations => exact height_variablesToJson declarations
  | expression e => exact e.height_toJson

@[simp] theorem height_blockToJson (items : List Json) :
    (blockToJson items).height = Json.listHeight items + 1 := by
  simp [blockToJson, Json.fieldsHeight, Json.height]

mutual

theorem height_toJson : ∀ s : Statement, s.toJson.height = s.heightBy 1
  | .expression e => by simp [toJson, heightBy, Json.fieldsHeight, e.height_toJson]
  | .empty => by simp [toJson, heightBy, Json.fieldsHeight]
  | .variables declarations => height_variablesToJson declarations
  | .block body => by simp [toJson, heightBy, listHeight_listToJson body]
  | .conditional test consequent alternate => by
    simp [toJson, heightBy, Json.fieldsHeight, test.height_toJson, consequent.height_toJson,
      height_optionToJson alternate]
  | .whileLoop test body => by
    simp [toJson, heightBy, Json.fieldsHeight, test.height_toJson, body.height_toJson]
  | .doWhileLoop body test => by
    simp [toJson, heightBy, Json.fieldsHeight, test.height_toJson, body.height_toJson,
      Nat.max_comm]
  | .forLoop _ _ _ body => by
    simp [toJson, heightBy, Json.fieldsHeight, body.height_toJson,
      Json.height_ofOption height_forInitToJson, Expression.height_ofOption_toJson]
  | .functionDeclaration _ parameters body => by
    have hparameters := Identifier.listHeight_map_toJson_le parameters
    simp only [toJson, heightBy, Json.height_node, Json.fieldsHeight, Json.height,
      Identifier.height_toJson, height_blockToJson, listHeight_listToJson body]
    omega
  | .return_ _ => by
    simp [toJson, heightBy, Json.fieldsHeight, Expression.height_ofOption_toJson]
  | .classDeclaration _ superclass body => by
    have hsuperclass := Identifier.height_ofOption_toJson_le superclass
    simp only [toJson, heightBy, Json.height_node, Json.fieldsHeight, Identifier.height_toJson,
      height_blockToJson, listHeight_listToJson body]
    omega

theorem height_optionToJson : ∀ s? : Option Statement,
    (optionToJson s?).height = optionHeightBy 1 s?
  | none => rfl
  | some s => s.height_toJson

theorem listHeight_listToJson : ∀ ss : List Statement,
    Json.listHeight (listToJson ss) = listHeightBy 1 ss
  | [] => rfl
  | s :: ss => by
    rw [listToJson, Json.listHeight, listHeightBy, s.height_toJson, listHeight_listToJson ss]

end

end Statement

theorem Program.height_toJson (p : Program) : p.toJson.height = p.height := by
  simp [Program.toJson, height, heightBy, Json.fieldsHeight, Json.height,
    Statement.listHeight_listToJson]

end Json

end Letter
