import Letter.Proofs.Descent.Procedure

/-!
Two who read by recursive descent. If each step of the one is related to the same step of the other,
so is what they make of each procedure.
-/

namespace Letter

namespace Descent

/-- A relation that the steps of two readers keep. What is related so that it `reads` has read a
terminal when it succeeds, and all is related only where the next terminal is of a kind with which
it starts. -/
structure Simulation (m m' : Type → Type) [Descent m] [Descent m']
    (R : {α : Type} → (reads : Bool) → (starts : TokenKind → Prop) → m α → m' α → Prop) :
    Prop where
  mono : ∀ {α : Type} {reads : Bool} {starts starts' : TokenKind → Prop} {p : m α} {p' : m' α},
    R reads starts p p' → (∀ kind, starts' kind → starts kind) → R reads starts' p p'
  of_reads : ∀ {α : Type} {starts : TokenKind → Prop} {p : m α} {p' : m' α},
    R true starts p p' → R false starts p p'
  pure : ∀ {α : Type} {starts : TokenKind → Prop} (a : α), R false starts (pure a) (pure a)
  bind : ∀ {α β : Type} {reads : Bool} {starts : TokenKind → Prop} {p : m α} {p' : m' α}
    {f : α → m β} {f' : α → m' β}, R reads starts p p' →
      (∀ a, R false (fun _ => True) (f a) (f' a)) → R reads starts (p >>= f) (p' >>= f')
  lookahead_bind : ∀ {α : Type} {reads : Bool} {starts : TokenKind → Prop} {f : Terminal → m α}
    {f' : Terminal → m' α}, (∀ t, R reads (· = t.kind) (f t) (f' t)) →
      R reads starts (lookahead >>= f) (lookahead >>= f')
  next : ∀ {kind : TokenKind}, kind ≠ .endOfInput → R true (· = kind) (next kind) (next kind)
  skip : ∀ {kind : TokenKind} {starts : TokenKind → Prop}, kind ≠ .endOfInput →
    R true starts (skip kind) (skip kind)
  identifier : R true (fun _ => True) identifier identifier
  literal : R true (· ≠ .endOfInput) literal literal
  prefixOperator : R true (· ≠ .endOfInput) prefixOperator prefixOperator
  assignmentOperator : ∀ left : Expression,
    R true (· ≠ .endOfInput) (assignmentOperator left) (assignmentOperator left)
  noAlternative : ∀ {α : Type} {starts : TokenKind → Prop} {production : String},
    R true starts (noAlternative production : m α) (noAlternative production)
  operands : ∀ {kind : TokenKind} {operand : m Expression} {operand' : m' Expression},
    kind ∈ Grammar.precedence → R true (fun _ => True) operand operand' →
      R false (fun _ => True) (many (· == kind) (rightOperand operand))
        (many (· == kind) (rightOperand operand'))
  many : ∀ {α : Type} {kinds : TokenKind → Bool} {item : m α} {item' : m' α},
    kinds .endOfInput = false → R true (kinds · = true) item item' →
      R false (fun _ => True) (many kinds item) (many kinds item')
  commaSeparated : ∀ {α : Type} {item : m α} {item' : m' α}, R true (fun _ => True) item item' →
    R true (fun _ => True) (commaSeparated item) (commaSeparated item')

namespace Simulation

variable {m m' : Type → Type} [Descent m] [Descent m']
  {R : {α : Type} → (reads : Bool) → (starts : TokenKind → Prop) → m α → m' α → Prop}
  (hR : Simulation m m' R) {starts : TokenKind → Prop}

include hR

theorem anywhere {α : Type} {reads : Bool} {p : m α} {p' : m' α}
    (h : R reads (fun _ => True) p p') : R reads starts p p' :=
  hR.mono h fun _ _ => trivial

theorem seeing {α : Type} {reads : Bool} {p : m α} {p' : m' α} {kind : TokenKind}
    (h : R reads starts p p') (hkind : starts kind) : R reads (· = kind) p p' := by
  refine hR.mono h ?_
  rintro _ rfl
  exact hkind

theorem optional {α : Type} {kinds : TokenKind → Bool} {item : m α} {item' : m' α}
    (h : R true (kinds · = true) item item') :
    R false (fun _ => True) (Descent.optional kinds item) (Descent.optional kinds item') := by
  apply hR.lookahead_bind
  intro t
  split
  · rename_i hkind
    exact hR.bind (hR.of_reads (hR.seeing h hkind)) fun _ => hR.pure _
  · exact hR.pure _

section Expressions

theorem parenthesized {expression : m Expression} {expression' : m' Expression}
    (h : R true (fun _ => True) expression expression') :
    R true starts (Descent.parenthesized expression) (Descent.parenthesized expression') := by
  apply hR.bind (hR.skip (by decide))
  intro _
  apply hR.bind (hR.of_reads h)
  intro e
  exact hR.bind (hR.of_reads (hR.skip (by decide))) fun _ => hR.pure e

theorem primary {literal parenthesized construction : m Expression}
    {literal' parenthesized' construction' : m' Expression} {identifier : m Identifier}
    {identifier' : m' Identifier} (hliteral : R true (· ≠ .endOfInput) literal literal')
    (hparenthesized : R true (fun _ => True) parenthesized parenthesized')
    (hidentifier : R true (fun _ => True) identifier identifier')
    (hconstruction : R true (fun _ => True) construction construction') :
    R true starts (Descent.primary literal parenthesized identifier construction)
      (Descent.primary literal' parenthesized' identifier' construction') := by
  apply hR.lookahead_bind
  intro t
  generalize t.kind = kind
  split
  case h_1 | h_2 | h_3 | h_4 | h_5 => exact hR.seeing hliteral nofun
  case h_6 => exact hR.anywhere hparenthesized
  case h_7 => exact hR.bind (hR.anywhere hidentifier) fun _ => hR.pure _
  case h_8 | h_9 => exact hR.bind (hR.next nofun) fun _ => hR.pure _
  case h_10 => exact hR.anywhere hconstruction
  case h_11 => exact hR.noAlternative

theorem property {identifier : m Identifier} {identifier' : m' Identifier}
    {expression : m Expression} {expression' : m' Expression}
    (hidentifier : R true (fun _ => True) identifier identifier')
    (hexpression : R true (fun _ => True) expression expression') :
    R true starts (Descent.property identifier expression)
      (Descent.property identifier' expression') := by
  apply hR.lookahead_bind
  intro t
  split
  · rename_i hdot
    rw [hdot]
    apply hR.bind (hR.next (by decide))
    intro _
    exact hR.bind (hR.of_reads hidentifier) fun _ => hR.pure _
  · apply hR.bind (hR.skip (by decide))
    intro _
    apply hR.bind (hR.of_reads hexpression)
    intro e
    exact hR.bind (hR.of_reads (hR.skip (by decide))) fun _ => hR.pure _

theorem member {primary : m Expression} {primary' : m' Expression}
    {property : m (Bool × Expression)} {property' : m' (Bool × Expression)}
    (hprimary : R true (fun _ => True) primary primary')
    (hproperty : R true (fun _ => True) property property') :
    R true starts (Descent.member primary property) (Descent.member primary' property') := by
  apply hR.bind (hR.anywhere hprimary)
  intro object
  exact hR.bind (hR.many rfl (hR.anywhere hproperty)) fun _ => hR.pure _

theorem arguments {assignment : m Expression} {assignment' : m' Expression}
    (h : R true (fun _ => True) assignment assignment') :
    R true starts (Descent.arguments assignment) (Descent.arguments assignment') := by
  apply hR.bind (hR.skip (by decide))
  intro _
  apply hR.bind (hR.optional (hR.anywhere (hR.commaSeparated h)))
  intro items
  exact hR.bind (hR.of_reads (hR.skip (by decide))) fun _ => hR.pure _

theorem leftHandSide {member : m Expression} {member' : m' Expression}
    {arguments : m (List Expression)} {arguments' : m' (List Expression)}
    (hmember : R true (fun _ => True) member member')
    (harguments : R true (fun _ => True) arguments arguments') :
    R true starts (Descent.leftHandSide member arguments)
      (Descent.leftHandSide member' arguments') := by
  apply hR.bind (hR.anywhere hmember)
  intro callee
  exact hR.bind (hR.many rfl (hR.anywhere harguments)) fun _ => hR.pure _

theorem operand {operation leftHandSide : m Expression} {operation' leftHandSide' : m' Expression}
    (hoperation : R true (· ≠ .endOfInput) operation operation')
    (hleftHandSide : R true (fun _ => True) leftHandSide leftHandSide') :
    R true starts (Descent.operand operation leftHandSide)
      (Descent.operand operation' leftHandSide') := by
  apply hR.lookahead_bind
  intro t
  split
  · rename_i hstarts
    refine hR.seeing hoperation fun hend => ?_
    rw [hend] at hstarts
    cases hstarts
  · exact hR.anywhere hleftHandSide

theorem leftAssociative {kind : TokenKind} {operand : m Expression} {operand' : m' Expression}
    (hkind : kind ∈ Grammar.precedence) (h : R true (fun _ => True) operand operand') :
    R true starts (Descent.leftAssociative kind operand)
      (Descent.leftAssociative kind operand') := by
  apply hR.bind (hR.anywhere h)
  intro first
  exact hR.bind (hR.operands hkind h) fun _ => hR.pure _

theorem assignment {operands expression : m Expression} {operands' expression' : m' Expression}
    (hoperands : R true (fun _ => True) operands operands')
    (hexpression : R true (fun _ => True) expression expression') :
    R true starts (Descent.assignment operands expression)
      (Descent.assignment operands' expression') := by
  apply hR.bind (hR.anywhere hoperands)
  intro left
  apply hR.lookahead_bind
  intro t
  split
  · rename_i hassignment
    have hend : t.kind ≠ .endOfInput := by
      intro hend
      rw [hend] at hassignment
      cases hassignment
    apply hR.bind (hR.of_reads (hR.seeing (hR.assignmentOperator left) hend))
    rintro ⟨operator, target⟩
    exact hR.bind (hR.of_reads hexpression) fun _ => hR.pure _
  · exact hR.pure left

theorem operation {operand : m Expression} {operand' : m' Expression}
    (h : R true (fun _ => True) operand operand') :
    R true (· ≠ .endOfInput) (Descent.operation operand) (Descent.operation operand') := by
  apply hR.bind hR.prefixOperator
  intro operator
  exact hR.bind (hR.of_reads h) fun _ => hR.pure _

theorem construction {member : m Expression} {member' : m' Expression}
    {arguments : m (List Expression)} {arguments' : m' (List Expression)}
    (hmember : R true (fun _ => True) member member')
    (harguments : R true (fun _ => True) arguments arguments') :
    R true starts (Descent.construction member arguments)
      (Descent.construction member' arguments') := by
  apply hR.bind (hR.skip (by decide))
  intro _
  apply hR.bind (hR.of_reads hmember)
  intro callee
  exact hR.bind (hR.of_reads harguments) fun _ => hR.pure _

end Expressions

section Statements

theorem statements {statement : m Statement} {statement' : m' Statement} (stop : TokenKind)
    (h : R true (fun _ => True) statement statement') :
    R false starts (Descent.statements statement stop) (Descent.statements statement' stop) :=
  hR.anywhere (hR.many (by simp) (hR.anywhere h))

theorem block {statements : TokenKind → m (List Statement)}
    {statements' : TokenKind → m' (List Statement)}
    (h : ∀ stop, R false (fun _ => True) (statements stop) (statements' stop)) :
    R true starts (Descent.block statements) (Descent.block statements') := by
  apply hR.bind (hR.skip (by decide))
  intro _
  apply hR.bind (h _)
  intro body
  exact hR.bind (hR.of_reads (hR.skip (by decide))) fun _ => hR.pure _

theorem declaration {identifier : m Identifier} {identifier' : m' Identifier}
    {expression : m Expression} {expression' : m' Expression}
    (hidentifier : R true (fun _ => True) identifier identifier')
    (hexpression : R true (fun _ => True) expression expression') :
    R true starts (Descent.declaration identifier expression)
      (Descent.declaration identifier' expression') := by
  apply hR.bind (hR.anywhere hidentifier)
  intro id
  apply hR.bind (hR.optional (hR.bind (hR.skip (by decide)) fun _ => hR.of_reads hexpression))
  intro init
  exact hR.pure _

theorem declarations {declaration : m VariableDeclaration} {declaration' : m' VariableDeclaration}
    (h : R true (fun _ => True) declaration declaration') :
    R true starts (Descent.declarations declaration) (Descent.declarations declaration') := by
  apply hR.bind (hR.anywhere h)
  intro first
  have hnext : R true (· = Punctuator.comma)
      (Descent.next Punctuator.comma >>= fun _ => declaration)
      (Descent.next Punctuator.comma >>= fun _ => declaration') :=
    hR.bind (hR.next (by decide)) fun _ => hR.of_reads h
  exact hR.bind (hR.many rfl (hR.mono hnext fun _ hkind => eq_of_beq hkind)) fun _ => hR.pure _

theorem variableStatement {declarations : m (List VariableDeclaration)}
    {declarations' : m' (List VariableDeclaration)}
    (h : R true (fun _ => True) declarations declarations') :
    R true starts (Descent.variableStatement declarations)
      (Descent.variableStatement declarations') := by
  apply hR.bind (hR.skip (by decide))
  intro _
  apply hR.bind (hR.of_reads h)
  intro declarations
  exact hR.bind (hR.of_reads (hR.skip (by decide))) fun _ => hR.pure _

theorem conditional {expression : m Expression} {expression' : m' Expression}
    {statement : m Statement} {statement' : m' Statement}
    (hexpression : R true (fun _ => True) expression expression')
    (hstatement : R true (fun _ => True) statement statement') :
    R true starts (Descent.conditional expression statement)
      (Descent.conditional expression' statement') := by
  apply hR.bind (hR.skip (by decide))
  intro _
  apply hR.bind (hR.of_reads (hR.parenthesized hexpression))
  intro test
  apply hR.bind (hR.of_reads hstatement)
  intro consequent
  have halternate : R true (· = Keyword.else_) (Descent.next Keyword.else_ >>= fun _ => statement)
      (Descent.next Keyword.else_ >>= fun _ => statement') :=
    hR.bind (hR.next (by decide)) fun _ => hR.of_reads hstatement
  apply hR.bind (hR.optional (hR.mono halternate fun _ hkind => eq_of_beq hkind))
  intro alternate
  exact hR.pure _

theorem whileLoop {expression : m Expression} {expression' : m' Expression}
    {statement : m Statement} {statement' : m' Statement}
    (hexpression : R true (fun _ => True) expression expression')
    (hstatement : R true (fun _ => True) statement statement') :
    R true starts (Descent.whileLoop expression statement)
      (Descent.whileLoop expression' statement') := by
  apply hR.bind (hR.skip (by decide))
  intro _
  apply hR.bind (hR.of_reads (hR.parenthesized hexpression))
  intro test
  exact hR.bind (hR.of_reads hstatement) fun _ => hR.pure _

theorem doWhileLoop {expression : m Expression} {expression' : m' Expression}
    {statement : m Statement} {statement' : m' Statement}
    (hexpression : R true (fun _ => True) expression expression')
    (hstatement : R true (fun _ => True) statement statement') :
    R true starts (Descent.doWhileLoop expression statement)
      (Descent.doWhileLoop expression' statement') := by
  apply hR.bind (hR.skip (by decide))
  intro _
  apply hR.bind (hR.of_reads hstatement)
  intro body
  apply hR.bind (hR.of_reads (hR.skip (by decide)))
  intro _
  apply hR.bind (hR.of_reads (hR.parenthesized hexpression))
  intro test
  exact hR.bind (hR.of_reads (hR.skip (by decide))) fun _ => hR.pure _

theorem forInit {declarations : m (List VariableDeclaration)}
    {declarations' : m' (List VariableDeclaration)} {expression : m Expression}
    {expression' : m' Expression}
    (hdeclarations : R true (fun _ => True) declarations declarations')
    (hexpression : R true (fun _ => True) expression expression') :
    R true starts (Descent.forInit declarations expression)
      (Descent.forInit declarations' expression') := by
  apply hR.lookahead_bind
  intro t
  split
  · rename_i hlet
    rw [hlet]
    apply hR.bind (hR.next (by decide))
    intro _
    exact hR.bind (hR.of_reads hdeclarations) fun _ => hR.pure _
  · exact hR.bind (hR.anywhere hexpression) fun _ => hR.pure _

theorem forLoop {forInit : m ForInit} {forInit' : m' ForInit} {expression : m Expression}
    {expression' : m' Expression} {statement : m Statement} {statement' : m' Statement}
    (hforInit : R true (fun _ => True) forInit forInit')
    (hexpression : R true (fun _ => True) expression expression')
    (hstatement : R true (fun _ => True) statement statement') :
    R true starts (Descent.forLoop forInit expression statement)
      (Descent.forLoop forInit' expression' statement') := by
  apply hR.bind (hR.skip (by decide))
  intro _
  apply hR.bind (hR.of_reads (hR.skip (by decide)))
  intro _
  apply hR.bind (hR.optional (hR.anywhere hforInit))
  intro init
  apply hR.bind (hR.of_reads (hR.skip (by decide)))
  intro _
  apply hR.bind (hR.optional (hR.anywhere hexpression))
  intro test
  apply hR.bind (hR.of_reads (hR.skip (by decide)))
  intro _
  apply hR.bind (hR.optional (hR.anywhere hexpression))
  intro update
  apply hR.bind (hR.of_reads (hR.skip (by decide)))
  intro _
  exact hR.bind (hR.of_reads hstatement) fun _ => hR.pure _

theorem functionDeclaration {identifier : m Identifier} {identifier' : m' Identifier}
    {parameters : m (List Identifier)} {parameters' : m' (List Identifier)}
    {block : m (List Statement)} {block' : m' (List Statement)}
    (hidentifier : R true (fun _ => True) identifier identifier')
    (hparameters : R true (fun _ => True) parameters parameters')
    (hblock : R true (fun _ => True) block block') :
    R true starts (Descent.functionDeclaration identifier parameters block)
      (Descent.functionDeclaration identifier' parameters' block') := by
  apply hR.bind (hR.skip (by decide))
  intro _
  apply hR.bind (hR.of_reads hidentifier)
  intro name
  apply hR.bind (hR.of_reads (hR.skip (by decide)))
  intro _
  apply hR.bind (hR.optional (hR.anywhere hparameters))
  intro parameters
  apply hR.bind (hR.of_reads (hR.skip (by decide)))
  intro _
  exact hR.bind (hR.of_reads hblock) fun _ => hR.pure _

theorem returnStatement {expression : m Expression} {expression' : m' Expression}
    (h : R true (fun _ => True) expression expression') :
    R true starts (Descent.returnStatement expression) (Descent.returnStatement expression') := by
  apply hR.bind (hR.skip (by decide))
  intro _
  apply hR.bind (hR.optional (hR.anywhere h))
  intro argument
  exact hR.bind (hR.of_reads (hR.skip (by decide))) fun _ => hR.pure _

theorem classDeclaration {identifier : m Identifier} {identifier' : m' Identifier}
    {block : m (List Statement)} {block' : m' (List Statement)}
    (hidentifier : R true (fun _ => True) identifier identifier')
    (hblock : R true (fun _ => True) block block') :
    R true starts (Descent.classDeclaration identifier block)
      (Descent.classDeclaration identifier' block') := by
  apply hR.bind (hR.skip (by decide))
  intro _
  apply hR.bind (hR.of_reads hidentifier)
  intro id
  have hsuperclass : R true (· = Keyword.extends_)
      (Descent.next Keyword.extends_ >>= fun _ => identifier)
      (Descent.next Keyword.extends_ >>= fun _ => identifier') :=
    hR.bind (hR.next (by decide)) fun _ => hR.of_reads hidentifier
  apply hR.bind (hR.optional (hR.mono hsuperclass fun _ hkind => eq_of_beq hkind))
  intro superclass
  exact hR.bind (hR.of_reads hblock) fun _ => hR.pure _

theorem expressionStatement {expression : m Expression} {expression' : m' Expression}
    (h : R true (fun _ => True) expression expression') :
    R true starts (Descent.expressionStatement expression)
      (Descent.expressionStatement expression') := by
  apply hR.bind (hR.anywhere h)
  intro e
  exact hR.bind (hR.of_reads (hR.skip (by decide))) fun _ => hR.pure _

theorem statement {forms : Forms m} {forms' : Forms m'}
    (hblock : R true (fun _ => True) forms.block forms'.block)
    (hvariables : R true (fun _ => True) forms.variableStatement forms'.variableStatement)
    (hconditional : R true (fun _ => True) forms.conditional forms'.conditional)
    (hwhileLoop : R true (fun _ => True) forms.whileLoop forms'.whileLoop)
    (hdoWhileLoop : R true (fun _ => True) forms.doWhileLoop forms'.doWhileLoop)
    (hforLoop : R true (fun _ => True) forms.forLoop forms'.forLoop)
    (hfunction : R true (fun _ => True) forms.function forms'.function)
    (hreturn : R true (fun _ => True) forms.return_ forms'.return_)
    (hclass : R true (fun _ => True) forms.class_ forms'.class_)
    (hexpression : R true (fun _ => True) forms.expression forms'.expression) :
    R true starts (Descent.statement forms) (Descent.statement forms') := by
  apply hR.lookahead_bind
  intro t
  generalize t.kind = kind
  split
  case h_1 => exact hR.bind (hR.next nofun) fun _ => hR.pure _
  case h_2 => exact hR.bind (hR.anywhere hblock) fun _ => hR.pure _
  case h_3 => exact hR.anywhere hvariables
  case h_4 => exact hR.anywhere hconditional
  case h_5 => exact hR.anywhere hwhileLoop
  case h_6 => exact hR.anywhere hdoWhileLoop
  case h_7 => exact hR.anywhere hforLoop
  case h_8 => exact hR.anywhere hfunction
  case h_9 => exact hR.anywhere hreturn
  case h_10 => exact hR.anywhere hclass
  case h_11 => exact hR.anywhere hexpression

theorem program {statements : TokenKind → m (List Statement)}
    {statements' : TokenKind → m' (List Statement)}
    (h : ∀ stop, R false (fun _ => True) (statements stop) (statements' stop)) :
    R false starts (Descent.program statements) (Descent.program statements') :=
  hR.bind (hR.anywhere (h _)) fun _ => hR.pure _

end Statements

variable {call : (q : Procedure) → m q.Result} {deeper : (o : Opening) → m o.procedure.Result}
  (call' : (q : Procedure) → m' q.Result) (deeper' : (o : Opening) → m' o.procedure.Result)

theorem body {q : Procedure}
    (hcall : ∀ q' : Procedure, q'.rank < q.rank → R (!q'.isList) q'.Ahead (call q') (call' q'))
    (hdeeper : ∀ o : Opening, R true o.procedure.Ahead (deeper o) (deeper' o)) :
    R (!q.isList) q.Ahead (q.body call deeper) (q.body call' deeper') := by
  cases q with
  | program => exact hR.program fun stop => hcall (.statements stop) (by simp [Procedure.rank])
  | statements stop => exact hR.statements stop (hcall .statement (by simp [Procedure.rank]))
  | statement => exact hdeeper .statement
  | statementKind =>
      exact hR.statement (hcall .block (by decide)) (hcall .variableStatement (by decide))
        (hcall .conditional (by decide)) (hcall .whileLoop (by decide))
        (hcall .doWhileLoop (by decide)) (hcall .forLoop (by decide))
        (hcall .functionDeclaration (by decide)) (hcall .returnStatement (by decide))
        (hcall .classDeclaration (by decide)) (hcall .expressionStatement (by decide))
  | block => exact hR.block fun stop => hcall (.statements stop) (by simp [Procedure.rank])
  | variableStatement => exact hR.variableStatement (hcall .declarations (by decide))
  | declarations => exact hR.declarations (hcall .declaration (by decide))
  | declaration =>
      exact hR.declaration (hcall .identifier (by decide)) (hcall .assignment (by decide))
  | conditional =>
      exact hR.conditional (hcall .expression (by decide)) (hcall .statement (by decide))
  | whileLoop => exact hR.whileLoop (hcall .expression (by decide)) (hcall .statement (by decide))
  | doWhileLoop =>
      exact hR.doWhileLoop (hcall .expression (by decide)) (hcall .statement (by decide))
  | forLoop =>
      exact hR.forLoop (hcall .forInit (by decide)) (hcall .expression (by decide))
        (hcall .statement (by decide))
  | forInit => exact hR.forInit (hcall .declarations (by decide)) (hcall .expression (by decide))
  | functionDeclaration =>
      exact hR.functionDeclaration (hcall .identifier (by decide)) (hcall .parameters (by decide))
        (hcall .block (by decide))
  | parameters => exact hR.commaSeparated (hcall .identifier (by decide))
  | returnStatement => exact hR.returnStatement (hcall .expression (by decide))
  | classDeclaration =>
      exact hR.classDeclaration (hcall .identifier (by decide)) (hcall .block (by decide))
  | expressionStatement => exact hR.expressionStatement (hcall .expression (by decide))
  | expression => exact hcall .assignment (by decide)
  | assignment => exact hdeeper .expression
  | assignmentKind =>
      exact hR.assignment (hcall (.operands Grammar.precedence (List.Subset.refl _)) (by decide))
        (hcall .assignment (by decide))
  | operands kinds hkinds =>
      cases kinds with
      | nil =>
          exact hR.operand (hdeeper .operation) (hcall .leftHandSide (by simp [Procedure.rank]))
      | cons kind tighter =>
          have htighter := List.subset_of_cons_subset hkinds
          exact hR.leftAssociative (hkinds List.mem_cons_self)
            (hcall (.operands tighter htighter) (by simp [Procedure.rank]))
  | operation => exact hR.operation (hcall (.operands [] (List.nil_subset _)) (by decide))
  | leftHandSide =>
      exact hR.leftHandSide (hcall .member (by decide)) (hcall .arguments (by decide))
  | member =>
      exact hR.member (hcall .primary (by decide))
        (hR.property (hcall .identifier (by decide)) (hcall .expression (by decide)))
  | arguments => exact hR.arguments (hcall .assignment (by decide))
  | primary =>
      exact hR.primary (hcall .literal (by decide)) (hcall .parenthesized (by decide))
        (hcall .identifier (by decide)) (hdeeper .construction)
  | parenthesized => exact hR.parenthesized (hcall .expression (by decide))
  | construction =>
      exact hR.construction (hcall .member (by decide)) (hcall .arguments (by decide))
  | literal => exact hR.literal
  | identifier => exact hR.identifier

end Simulation

variable {m : Type → Type} [Descent m]

theorem simulation_eq : Simulation m m fun _ _ p p' => p = p' where
  mono h _ := h
  of_reads h := h
  pure _ := rfl
  bind hp hf := by rw [hp, funext hf]
  lookahead_bind hf := congrArg (lookahead >>= ·) (funext hf)
  next _ := rfl
  skip _ := rfl
  identifier := rfl
  literal := rfl
  prefixOperator := rfl
  assignmentOperator _ := rfl
  noAlternative := rfl
  operands _ h := congrArg _ (congrArg _ h)
  many _ h := congrArg _ h
  commaSeparated h := congrArg _ h

end Descent

/-- What a procedure does without opening a level depends on procedures of smaller rank alone. -/
theorem Procedure.body_congr {m : Type → Type} [Descent m]
    {call call' : (q : Procedure) → m q.Result} {deeper : (o : Opening) → m o.procedure.Result}
    (q : Procedure) (h : ∀ q' : Procedure, q'.rank < q.rank → call q' = call' q') :
    q.body call deeper = q.body call' deeper :=
  Descent.simulation_eq.body call' deeper h fun _ => rfl

end Letter
