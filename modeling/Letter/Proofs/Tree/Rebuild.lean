import Letter.Proofs.Json.Reader
import Letter.Proofs.Tree.Numbers

namespace Letter

/-- What a JSON value stands for in a tree. -/
inductive Part where
  | null
  | boolean (value : Bool)
  | number (value : Double)
  | string (value : String)
  | list (parts : List Part)
  | expression (e : Expression)
  | declaration (d : VariableDeclaration)
  | statement (s : Statement)
  | program (p : Program)

namespace Part

section Reading

variable {α : Type}

@[simp] def boolean? : Part → Option Bool
  | boolean value => some value
  | _ => none

/-- Infinity is written as `null`. -/
def number? : Part → Option Double
  | number value => some value
  | null => some (.infinite false)
  | _ => none

@[simp] def string? : Part → Option String
  | string value => some value
  | _ => none

def spelled? [Spelled α] : Part → Option α
  | string value => Spelled.ofSpelling? value
  | _ => none

def list? (item? : Part → Option α) : Part → Option (List α)
  | list parts => parts.mapM item?
  | _ => none

/-- What may be absent. -/
def option? (some? : Part → Option α) : Part → Option (Option α)
  | null => some none
  | part => (some? part).map some

@[simp] def expression? : Part → Option Expression
  | expression e => some e
  | _ => none

@[simp] def identifier? : Part → Option Identifier
  | expression (.identifier id) => some id
  | _ => none

@[simp] def target? : Part → Option AssignmentTarget
  | expression e => AssignmentTarget.ofExpression? e
  | _ => none

@[simp] def declaration? : Part → Option VariableDeclaration
  | declaration d => some d
  | _ => none

@[simp] def statement? : Part → Option Statement
  | statement s => some s
  | _ => none

/-- The statements of a block. -/
@[simp] def block? : Part → Option (List Statement)
  | statement (.block body) => some body
  | _ => none

@[simp] def forInit? : Part → Option ForInit
  | statement (.variables declarations) => some (.variables declarations)
  | expression e => some (.expression e)
  | _ => none

@[simp] def program? : Part → Option Program
  | program p => some p
  | _ => none

/-- A field of a node, found by its name. -/
def field? (fields : List (String × Part)) (name : String) (read? : Part → Option α) : Option α :=
  (fields.lookup name).bind read?

end Reading

/-- The node that an object stands for. -/
def node? (fields : List (String × Part)) : Option Part := do
  match ← field? fields "type" string? with
  | "Program" => return program ⟨← field? fields "body" (list? statement?)⟩
  | "ExpressionStatement" =>
    return statement (.expression (← field? fields "expression" expression?))
  | "BlockStatement" => return statement (.block (← field? fields "body" (list? statement?)))
  | "EmptyStatement" => return statement .empty
  | "VariableStatement" =>
    return statement (.variables (← field? fields "declarations" (list? declaration?)))
  | "VariableDeclaration" =>
    return declaration ⟨← field? fields "id" identifier?,
      ← field? fields "init" (option? expression?)⟩
  | "IfStatement" =>
    return statement (.conditional (← field? fields "test" expression?)
      (← field? fields "consequent" statement?) (← field? fields "alternate" (option? statement?)))
  | "WhileStatement" =>
    return statement (.whileLoop (← field? fields "test" expression?)
      (← field? fields "body" statement?))
  | "DoWhileStatement" =>
    return statement (.doWhileLoop (← field? fields "body" statement?)
      (← field? fields "test" expression?))
  | "ForStatement" =>
    return statement (.forLoop (← field? fields "init" (option? forInit?))
      (← field? fields "test" (option? expression?))
      (← field? fields "update" (option? expression?)) (← field? fields "body" statement?))
  | "FunctionDeclaration" =>
    return statement (.functionDeclaration (← field? fields "name" identifier?)
      (← field? fields "params" (list? identifier?)) (← field? fields "body" block?))
  | "ReturnStatement" =>
    return statement (.return_ (← field? fields "argument" (option? expression?)))
  | "ClassDeclaration" =>
    return statement (.classDeclaration (← field? fields "id" identifier?)
      (← field? fields "superClass" (option? identifier?)) (← field? fields "body" block?))
  | "Identifier" => return expression (.identifier ⟨← field? fields "name" string?⟩)
  | "NumericLiteral" => return expression (.number (← field? fields "value" number?))
  | "StringLiteral" => return expression (.string (← field? fields "value" string?))
  | "BooleanLiteral" => return expression (.boolean (← field? fields "value" boolean?))
  | "NullLiteral" => return expression .null
  | "AssignmentExpression" =>
    return expression (.assignment (← field? fields "operator" spelled?)
      (← field? fields "left" target?) (← field? fields "right" expression?))
  | "BinaryExpression" =>
    return expression (.binary (← field? fields "operator" spelled?)
      (← field? fields "left" expression?) (← field? fields "right" expression?))
  | "LogicalExpression" =>
    return expression (.logical (← field? fields "operator" spelled?)
      (← field? fields "left" expression?) (← field? fields "right" expression?))
  | "UnaryExpression" =>
    return expression (.unary (← field? fields "operator" spelled?)
      (← field? fields "argument" expression?))
  | "MemberExpression" =>
    return expression (.member (← field? fields "computed" boolean?)
      (← field? fields "object" expression?) (← field? fields "property" expression?))
  | "CallExpression" =>
    return expression (.call (← field? fields "callee" expression?)
      (← field? fields "arguments" (list? expression?)))
  | "ThisExpression" => return expression .this
  | "NewExpression" =>
    return expression (.new (← field? fields "callee" expression?)
      (← field? fields "arguments" (list? expression?)))
  | "Super" => return expression .super
  | _ => none

mutual

def ofJson? : Json → Option Part
  | .null => some null
  | .boolean value => some (boolean value)
  | .number text => (Double.ofJson? (.number text)).map number
  | .string value => some (string value)
  | .array items => (itemsOfJson? items).map list
  | .object fields => (fieldsOfJson? fields).bind node?

def itemsOfJson? : List Json → Option (List Part)
  | [] => some []
  | item :: items => do return (← ofJson? item) :: (← itemsOfJson? items)

def fieldsOfJson? : List (String × Json) → Option (List (String × Part))
  | [] => some []
  | (name, value) :: fields => do return (name, ← ofJson? value) :: (← fieldsOfJson? fields)

end

end Part

/-- The program whose JSON form a text is. -/
def Program.ofJsonText? (text : String) : Option Program := do
  (← Part.ofJson? (← Json.read? text)).program?

namespace Part

section Rebuilding

variable {α β : Type}

@[simp] theorem field?_cons_self (fields : List (String × Part)) (name : String) (part : Part)
    (read? : Part → Option α) : field? ((name, part) :: fields) name read? = read? part := by
  rw [field?, List.lookup_cons_self, Option.bind_some]

@[simp] theorem field?_cons_of_ne {name name' : String} (h : name ≠ name')
    (fields : List (String × Part)) (part : Part) (read? : Part → Option α) :
    field? ((name', part) :: fields) name read? = field? fields name read? := by
  rw [field?, field?, List.lookup_cons, beq_false_of_ne h]

@[simp] theorem spelled?_spelling [Spelled α] (a : α) :
    spelled? (string (Spelled.spelling a)) = some a :=
  Spelled.ofSpelling?_eq_some_iff.mpr rfl

theorem list?_map {f : α → Part} {item? : Part → Option α} (h : ∀ a, item? (f a) = some a)
    (as : List α) : list? item? (list (as.map f)) = some as := by
  rw [list?]
  induction as with
  | nil => rfl
  | cons a as ih => simp [h, ih]

@[simp] theorem list?_expressions (es : List Expression) :
    list? expression? (list (es.map expression)) = some es :=
  list?_map (f := expression) (fun _ => rfl) es

@[simp] theorem list?_declarations (declarations : List VariableDeclaration) :
    list? declaration? (list (declarations.map declaration)) = some declarations :=
  list?_map (f := declaration) (fun _ => rfl) declarations

@[simp] theorem list?_statements (body : List Statement) :
    list? statement? (list (body.map statement)) = some body :=
  list?_map (f := statement) (fun _ => rfl) body

@[simp] theorem list?_identifiers (ids : List Identifier) :
    list? identifier? (list (ids.map fun id => expression (.identifier id))) = some ids :=
  list?_map (f := fun id => expression (.identifier id)) (fun _ => rfl) ids

@[simp] theorem ofJson?_node (type : String) (fields : List (String × Json)) :
    ofJson? (.node type fields) =
      (fieldsOfJson? fields).bind fun parts => node? (("type", string type) :: parts) := by
  simp only [Json.node, ofJson?, fieldsOfJson?]
  cases fieldsOfJson? fields <;> rfl

theorem exists_ofJson?_number {v : Double} (h : v.Recoverable) :
    ∃ part, ofJson? v.toJson = some part ∧ number? part = some v.canonical := by
  have hread := Double.ofJson?_toJson h
  cases v with
  | finite negative rank =>
      obtain ⟨n, -, htext, -⟩ := Double.exists_numeral_toJson negative rank
      rw [htext] at hread ⊢
      exact ⟨_, congrArg (Option.map number) hread, rfl⟩
  | infinite negative =>
      obtain rfl : negative = false := h
      exact ⟨null, rfl, rfl⟩
  | nan => exact h.elim

@[simp] theorem ofJson?_identifier (id : Identifier) :
    ofJson? id.toJson = some (expression (.identifier id)) := by
  simp [Identifier.toJson, fieldsOfJson?, ofJson?, node?]

mutual

theorem ofJson?_expression : ∀ e : Expression, (∀ v ∈ e.numbers, v.Recoverable) →
    ofJson? e.toJson = some (expression e.canonical)
  | .identifier id, _ => ofJson?_identifier id
  | .number v, h => by
    obtain ⟨part, hpart, hnumber⟩ := exists_ofJson?_number (h v List.mem_cons_self)
    simp [Expression.toJson, fieldsOfJson?, hpart, node?, hnumber, Expression.canonical]
  | .string _, _ | .boolean _, _ | .null, _ | .this, _ | .super, _ => by
    simp [Expression.toJson, fieldsOfJson?, ofJson?, node?, Expression.canonical]
  | .assignment operator target value, h => by
    simp only [Expression.numbers, List.forall_mem_append] at h
    have hoperator : spelled? (string operator.spelling) = some operator :=
      spelled?_spelling operator
    have htarget := ofJson?_target target h.1
    have hvalue := ofJson?_expression value h.2
    simp [Expression.toJson, fieldsOfJson?, ofJson?, htarget, hvalue, node?, hoperator,
      Expression.canonical]
  | .binary operator left right, h | .logical operator left right, h => by
    simp only [Expression.numbers, List.forall_mem_append] at h
    have hoperator : spelled? (string operator.spelling) = some operator :=
      spelled?_spelling operator
    have hleft := ofJson?_expression left h.1
    have hright := ofJson?_expression right h.2
    simp [Expression.toJson, fieldsOfJson?, ofJson?, hleft, hright, node?, hoperator,
      Expression.canonical]
  | .unary operator argument, h => by
    have hoperator : spelled? (string operator.spelling) = some operator :=
      spelled?_spelling operator
    have hargument := ofJson?_expression argument h
    simp [Expression.toJson, fieldsOfJson?, ofJson?, hargument, node?, hoperator,
      Expression.canonical]
  | .member computed object property, h => by
    simp only [Expression.numbers, List.forall_mem_append] at h
    have hobject := ofJson?_expression object h.1
    have hproperty := ofJson?_expression property h.2
    simp [Expression.toJson, fieldsOfJson?, ofJson?, hobject, hproperty, node?,
      Expression.canonical]
  | .call callee arguments, h | .new callee arguments, h => by
    simp only [Expression.numbers, List.forall_mem_append] at h
    have hcallee := ofJson?_expression callee h.1
    have harguments := itemsOfJson?_expressions arguments h.2
    simp [Expression.toJson, fieldsOfJson?, ofJson?, hcallee, harguments, node?,
      Expression.canonical]

theorem ofJson?_target : ∀ t : AssignmentTarget, (∀ v ∈ t.numbers, v.Recoverable) →
    ofJson? t.toJson = some (expression t.canonical.toExpression)
  | .identifier id, _ => ofJson?_identifier id
  | .member computed object property, h => by
    simp only [AssignmentTarget.numbers, List.forall_mem_append] at h
    have hobject := ofJson?_expression object h.1
    have hproperty := ofJson?_expression property h.2
    simp [AssignmentTarget.toJson, fieldsOfJson?, ofJson?, hobject, hproperty, node?,
      AssignmentTarget.canonical, AssignmentTarget.toExpression]

theorem itemsOfJson?_expressions : ∀ es : List Expression,
    (∀ v ∈ Expression.listNumbers es, v.Recoverable) →
      itemsOfJson? (Expression.listToJson es) =
        some ((Expression.listCanonical es).map expression)
  | [], _ => rfl
  | e :: es, h => by
    simp only [Expression.listNumbers, List.forall_mem_append] at h
    have he := ofJson?_expression e h.1
    have hes := itemsOfJson?_expressions es h.2
    simp [Expression.listToJson, itemsOfJson?, he, hes, Expression.listCanonical]

end

theorem exists_ofJson?_option {toJson : α → Json} {read? : Part → Option α} {f : α → α}
    {a? : Option α} (h : ∀ a, a? = some a → ∃ part, part ≠ null ∧ ofJson? (toJson a) = some part ∧
      read? part = some (f a)) :
    ∃ part, ofJson? (.ofOption toJson a?) = some part ∧ option? read? part = some (a?.map f) := by
  cases a? with
  | none => exact ⟨null, rfl, rfl⟩
  | some a =>
      obtain ⟨part, hne, hpart, hread⟩ := h a rfl
      refine ⟨part, hpart, ?_⟩
      have hoption : option? read? part = (read? part).map some := by
        cases part with
        | null => exact absurd rfl hne
        | _ => rfl
      rw [hoption, hread]
      rfl

theorem exists_ofJson?_expressionOption {e? : Option Expression}
    (h : ∀ v ∈ (e?.map Expression.numbers).getD [], v.Recoverable) :
    ∃ part, ofJson? (.ofOption Expression.toJson e?) = some part ∧
      option? expression? part = some (e?.map Expression.canonical) := by
  apply exists_ofJson?_option
  rintro e rfl
  exact ⟨expression e.canonical, nofun, ofJson?_expression e h, rfl⟩

theorem exists_ofJson?_identifierOption (id? : Option Identifier) :
    ∃ part, ofJson? (.ofOption Identifier.toJson id?) = some part ∧
      option? identifier? part = some id? := by
  have hsome (name : Identifier) (_ : id? = some name) : ∃ part, part ≠ null ∧
      ofJson? name.toJson = some part ∧ identifier? part = some (id name) :=
    ⟨expression (.identifier name), nofun, ofJson?_identifier name, rfl⟩
  obtain ⟨part, hpart, hoption⟩ := exists_ofJson?_option hsome
  rw [Option.map_id_apply] at hoption
  exact ⟨part, hpart, hoption⟩

theorem itemsOfJson?_map {toJson : α → Json} {f : α → Part} {as : List α}
    (h : ∀ a ∈ as, ofJson? (toJson a) = some (f a)) :
    itemsOfJson? (as.map toJson) = some (as.map f) := by
  induction as with
  | nil => rfl
  | cons a as ih =>
      have ha := h a List.mem_cons_self
      have has := ih fun a' ha' => h a' (List.mem_cons_of_mem _ ha')
      simp [itemsOfJson?, ha, has]

theorem ofJson?_declaration {d : VariableDeclaration} (h : ∀ v ∈ d.numbers, v.Recoverable) :
    ofJson? d.toJson = some (declaration d.canonical) := by
  obtain ⟨part, hpart, hinit⟩ := exists_ofJson?_expressionOption h
  simp [VariableDeclaration.toJson, fieldsOfJson?, hpart, node?, hinit,
    VariableDeclaration.canonical]

theorem ofJson?_variables {declarations : List VariableDeclaration}
    (h : ∀ v ∈ declarations.flatMap VariableDeclaration.numbers, v.Recoverable) :
    ofJson? (Statement.variablesToJson declarations) =
      some (statement (.variables (declarations.map VariableDeclaration.canonical))) := by
  have hitems : itemsOfJson? (declarations.map (·.toJson)) =
      some ((declarations.map VariableDeclaration.canonical).map declaration) := by
    rw [List.map_map]
    apply itemsOfJson?_map
    intro d hd
    exact ofJson?_declaration fun v hv => h v (List.mem_flatMap.mpr ⟨d, hd, hv⟩)
  simp [Statement.variablesToJson, fieldsOfJson?, ofJson?, hitems, node?, -List.map_map]

theorem exists_ofJson?_forInitOption {init? : Option ForInit}
    (h : ∀ v ∈ (init?.map ForInit.numbers).getD [], v.Recoverable) :
    ∃ part, ofJson? (.ofOption Statement.forInitToJson init?) = some part ∧
      option? forInit? part = some (init?.map ForInit.canonical) := by
  apply exists_ofJson?_option
  rintro init rfl
  cases init with
  | «variables» declarations =>
      exact ⟨statement (.variables (declarations.map VariableDeclaration.canonical)), nofun,
        ofJson?_variables h, rfl⟩
  | expression e => exact ⟨expression e.canonical, nofun, ofJson?_expression e h, rfl⟩

theorem itemsOfJson?_identifiers (ids : List Identifier) :
    itemsOfJson? (ids.map (·.toJson)) = some (ids.map fun id => expression (.identifier id)) :=
  itemsOfJson?_map fun id _ => ofJson?_identifier id

theorem ofJson?_block {items : List Json} {body : List Statement}
    (h : itemsOfJson? items = some (body.map statement)) :
    ofJson? (Statement.blockToJson items) = some (statement (.block body)) := by
  simp [Statement.blockToJson, fieldsOfJson?, ofJson?, h, node?]

mutual

theorem ofJson?_statement : ∀ s : Statement, (∀ v ∈ s.numbers, v.Recoverable) →
    ofJson? s.toJson = some (statement s.canonical)
  | .expression e, h => by
    have he := ofJson?_expression e h
    simp [Statement.toJson, fieldsOfJson?, he, node?, Statement.canonical]
  | .block body, h => ofJson?_block (itemsOfJson?_statements body h)
  | .empty, _ => by
    simp [Statement.toJson, fieldsOfJson?, node?, Statement.canonical]
  | .variables declarations, h => ofJson?_variables h
  | .conditional test consequent alternate, h => by
    simp only [Statement.numbers, List.forall_mem_append] at h
    have htest := ofJson?_expression test h.1.1
    have hconsequent := ofJson?_statement consequent h.1.2
    obtain ⟨part, hpart, halternate⟩ := exists_ofJson?_statementOption alternate h.2
    simp [Statement.toJson, fieldsOfJson?, htest, hconsequent, hpart, node?, halternate,
      Statement.canonical]
  | .whileLoop test body, h | .doWhileLoop body test, h => by
    simp only [Statement.numbers, List.forall_mem_append] at h
    have htest := ofJson?_expression test h.1
    have hbody := ofJson?_statement body h.2
    simp [Statement.toJson, fieldsOfJson?, htest, hbody, node?, Statement.canonical]
  | .forLoop init test update body, h => by
    simp only [Statement.numbers, List.forall_mem_append] at h
    obtain ⟨initPart, hinitPart, hinit⟩ := exists_ofJson?_forInitOption h.1.1.1
    obtain ⟨testPart, htestPart, htest⟩ := exists_ofJson?_expressionOption h.1.1.2
    obtain ⟨updatePart, hupdatePart, hupdate⟩ := exists_ofJson?_expressionOption h.1.2
    have hbody := ofJson?_statement body h.2
    simp [Statement.toJson, fieldsOfJson?, hinitPart, htestPart, hupdatePart, hbody, node?, hinit,
      htest, hupdate, Statement.canonical]
  | .functionDeclaration name parameters body, h => by
    have hbody := ofJson?_block (itemsOfJson?_statements body h)
    have hparameters := itemsOfJson?_identifiers parameters
    simp [Statement.toJson, fieldsOfJson?, ofJson?, hparameters, hbody, node?, Statement.canonical]
  | .return_ argument, h => by
    obtain ⟨part, hpart, hargument⟩ := exists_ofJson?_expressionOption h
    simp [Statement.toJson, fieldsOfJson?, hpart, node?, hargument, Statement.canonical]
  | .classDeclaration id superclass body, h => by
    have hbody := ofJson?_block (itemsOfJson?_statements body h)
    obtain ⟨part, hpart, hsuperclass⟩ := exists_ofJson?_identifierOption superclass
    simp [Statement.toJson, fieldsOfJson?, hpart, hbody, node?, hsuperclass, Statement.canonical]

theorem exists_ofJson?_statementOption : ∀ s? : Option Statement,
    (∀ v ∈ Statement.optionNumbers s?, v.Recoverable) →
      ∃ part, ofJson? (Statement.optionToJson s?) = some part ∧
        option? statement? part = some (Statement.optionCanonical s?)
  | none, _ => ⟨null, rfl, rfl⟩
  | some s, h => ⟨_, ofJson?_statement s h, rfl⟩

theorem itemsOfJson?_statements : ∀ body : List Statement,
    (∀ v ∈ Statement.listNumbers body, v.Recoverable) →
      itemsOfJson? (Statement.listToJson body) =
        some ((Statement.listCanonical body).map statement)
  | [], _ => rfl
  | s :: ss, h => by
    simp only [Statement.listNumbers, List.forall_mem_append] at h
    have hs := ofJson?_statement s h.1
    have hss := itemsOfJson?_statements ss h.2
    simp [Statement.listToJson, itemsOfJson?, hs, hss, Statement.listCanonical]

end

theorem ofJson?_program {p : Program} (h : ∀ v ∈ p.numbers, v.Recoverable) :
    ofJson? p.toJson = some (program p.canonical) := by
  have hbody := itemsOfJson?_statements p.body h
  simp [Program.toJson, fieldsOfJson?, ofJson?, hbody, node?, Program.canonical]

end Rebuilding

end Part

end Letter
