import Letter.Proofs.Grammar.Sentence
import Letter.Proofs.Production.Consuming

namespace Letter

open Descent (optional)
open Production Grammar

/-- What a level of precedence makes of its first operand. -/
def Grammar.operandsAfter (kind : TokenKind) (operand : Production Expression)
    (first : Expression) : Production Expression :=
  many (· == kind) (rightOperand operand) >>= fun others =>
    pure (others.foldl (fun left (connective, right) => connective.join left right) first)

namespace Phrase

def production (n : Nested) : Phrase → Production Expression
  | assignment => n.expression
  | logicalOr => precedence.foldr leftAssociative (Grammar.unary n)
  | logicalAnd => (precedence.drop 1).foldr leftAssociative (Grammar.unary n)
  | equality => (precedence.drop 2).foldr leftAssociative (Grammar.unary n)
  | relational => (precedence.drop 3).foldr leftAssociative (Grammar.unary n)
  | additive => (precedence.drop 4).foldr leftAssociative (Grammar.unary n)
  | multiplicative => (precedence.drop 5).foldr leftAssociative (Grammar.unary n)
  | unary => Grammar.unary n
  | leftHandSide => Grammar.leftHandSide n
  | member => Grammar.member n
  | primary => Grammar.primary n

/-- What the production of a phrase does behind a first part of it. -/
def resume (n : Nested) : Phrase → Expression → Production Expression
  | logicalOr => operandsAfter .logicalOr (production n logicalAnd)
  | logicalAnd => operandsAfter .logicalAnd (production n equality)
  | equality => operandsAfter .equalityOperator (production n relational)
  | relational => operandsAfter .relationalOperator (production n additive)
  | additive => operandsAfter .additiveOperator (production n multiplicative)
  | multiplicative => operandsAfter .multiplicativeOperator (production n unary)
  | leftHandSide => fun callee =>
    many (· == Punctuator.leftParen) (arguments n) >>= fun calls => pure (calls.foldl .call callee)
  | member => fun object =>
    many startsProperty (property n) >>= fun properties =>
      pure (properties.foldl (fun e (computed, property) => .member computed e property) object)
  | assignment | unary | primary => pure

/-- The kinds that continue a phrase to a longer one. -/
def extenders : Phrase → List TokenKind
  | assignment => .simpleAssign :: .complexAssign :: ofOperand
  | logicalOr => ofOperand
  | logicalAnd => ofOperand.drop 1
  | equality => ofOperand.drop 2
  | relational => ofOperand.drop 3
  | additive => ofOperand.drop 4
  | multiplicative => ofOperand.drop 5
  | unary | leftHandSide => ofOperand.drop 6
  | member => ofOperand.drop 7
  | primary => []
where
  ofOperand : List TokenKind :=
    precedence ++ [.punctuator .leftParen, .punctuator .dot, .punctuator .leftBracket]

/-- The kinds that continue the operand with which a phrase ends. -/
def operandExtenders : Phrase → List TokenKind
  | assignment => extenders assignment
  | logicalOr => extenders logicalAnd
  | logicalAnd => extenders equality
  | equality => extenders relational
  | relational => extenders additive
  | additive => extenders multiplicative
  | multiplicative => extenders unary
  | unary => extenders leftHandSide
  | leftHandSide => extenders member
  | member | primary => []

theorem operandExtenders_subset (phrase : Phrase) :
    phrase.operandExtenders ⊆ phrase.extenders := by
  cases phrase <;> decide

namespace Joins

variable {phrase tighter : Phrase} {kind : TokenKind}

theorem production_eq (hjoins : Joins phrase kind tighter) (n : Nested) :
    phrase.production n =
      tighter.production n >>= operandsAfter kind (tighter.production n) := by
  cases hjoins <;> rfl

theorem resume_eq (hjoins : Joins phrase kind tighter) (n : Nested) :
    phrase.resume n = operandsAfter kind (tighter.production n) := by
  cases hjoins <;> rfl

theorem extenders_eq (hjoins : Joins phrase kind tighter) :
    phrase.extenders = kind :: tighter.extenders ∧
      phrase.operandExtenders = tighter.extenders := by
  cases hjoins <;> exact ⟨rfl, rfl⟩

theorem notMem_extenders (hjoins : Joins phrase kind tighter) : kind ∉ tighter.extenders := by
  cases hjoins <;> decide

theorem ne_endOfInput (hjoins : Joins phrase kind tighter) : kind ≠ .endOfInput := by
  cases hjoins <;> decide

end Joins

end Phrase

theorem Phrase.strict_production {n : Nested} (hn : n.Orderly) (phrase : Phrase) :
    Strict (fun p p' => p.Steady ∧ p'.Steady) (phrase.production n) (phrase.production n) := by
  cases phrase with
  | assignment => exact hn.expression
  | unary => exact congruence_steady.strict_production hn (.operands [] (by decide)) rfl
  | leftHandSide => exact congruence_steady.strict_production hn .leftHandSide rfl
  | member => exact congruence_steady.strict_production hn .member rfl
  | primary => exact congruence_steady.strict_production hn .primary rfl
  | _ => exact congruence_steady.strict_production hn (.operands _ (by decide)) rfl

theorem Phrase.resume_of_notMem {n : Nested} (hn : n.Orderly) {phrase : Phrase} {e : Expression}
    {rest : List Terminal} (hrest : (rest.headD .endOfInput).kind ∉ phrase.extenders) :
    phrase.resume n e none rest = .ok (e, rest) := by
  have hoperands : ∀ {kind tighter}, Phrase.Joins phrase kind tighter →
      phrase.resume n e none rest = .ok (e, rest) := by
    intro kind tighter hjoins
    rw [hjoins.extenders_eq.1, List.mem_cons, not_or] at hrest
    rw [hjoins.resume_eq]
    refine many_bind_of_not_starts (tighter.strict_production hn).progresses_left.rightOperand
      ?_ ?_
    · exact beq_eq_false_iff_ne.mpr hjoins.ne_endOfInput.symm
    · exact beq_eq_false_iff_ne.mpr hrest.1
  cases phrase with
  | logicalOr => exact hoperands .logicalOr
  | logicalAnd => exact hoperands .logicalAnd
  | equality => exact hoperands .equality
  | relational => exact hoperands .relational
  | additive => exact hoperands .additive
  | multiplicative => exact hoperands .multiplicative
  | leftHandSide =>
      have harguments := congruence_steady.strict_production hn .arguments rfl
      refine many_bind_of_not_starts harguments.progresses_left rfl ?_
      exact beq_eq_false_iff_ne.mpr fun h => hrest (by rw [h]; decide)
  | member =>
      refine many_bind_of_not_starts (congruence_steady.property hn).progresses_left rfl ?_
      refine Bool.or_eq_false_iff.mpr ⟨?_, ?_⟩
      · exact beq_eq_false_iff_ne.mpr fun h => hrest (by rw [h]; decide)
      · exact beq_eq_false_iff_ne.mpr fun h => hrest (by rw [h]; decide)
  | assignment | unary | primary => rfl

/-- Every sentence is read by its production, as far as that goes on by itself. What is optional,
repeated or listed consists of sentences that are. -/
def Completes (limit : Nat) : (s : Symbol) → Language s.Value
  | .expression phrase => fun h ts e => ∀ depth rest, h ≤ depth →
      (rest.headD .endOfInput).kind ∉ phrase.operandExtenders →
        phrase.production (.within limit depth) none (ts ++ rest) =
          phrase.resume (.within limit depth) e none rest
  | .identifier => fun _ ts id => ∀ rest, identifier.Consumes ts id rest
  | .arguments => fun h ts es => ∀ depth rest, h ≤ depth →
      (arguments (.within limit depth)).Consumes ts es rest
  | .initializer => fun h ts e => ∀ depth rest, h ≤ depth →
      (rest.headD .endOfInput).kind ∉ Phrase.assignment.extenders →
        (skip .simpleAssign >>= fun _ => (Nested.within limit depth).expression).Consumes ts e rest
  | .declaration => fun h ts declaration => ∀ depth rest, h ≤ depth →
      endsDeclaration (rest.headD .endOfInput).kind →
        (variableDeclaration (.within limit depth)).Consumes ts declaration rest
  | .forInit => fun h ts init => ∀ depth rest, h ≤ depth →
      (rest.headD .endOfInput).kind = .punctuator .semicolon →
        (forInit (.within limit depth)).Consumes ts init rest
  | .superclass => fun _ ts id => ∀ rest,
      (skip Keyword.extends_ >>= fun _ => identifier).Consumes ts id rest
  | .block => fun h ts body => ∀ depth rest, h ≤ depth →
      (block (.within limit depth)).Consumes ts body rest
  | .statement => fun h ts s => ∀ depth rest, h ≤ depth →
      (s.endsOpen → (rest.headD .endOfInput).kind ≠ .keyword .else_) →
        (Nested.within limit depth).statement.Consumes ts s rest
  | .optional s => Language.optional fun h ts v => Derives s h ts v ∧ Completes limit s h ts v
  | .many s => Language.many fun h ts v => Derives s h ts v ∧ Completes limit s h ts v
  | .commaSeparated s =>
    Language.commaSeparated fun h ts v => Derives s h ts v ∧ Completes limit s h ts v

namespace Completes

variable {limit depth h : Nat} {ts rest : List Terminal}

theorem consumes {phrase : Phrase} {e : Expression}
    (he : Completes limit (.expression phrase) h ts e) (hle : h ≤ depth)
    (hrest : (rest.headD .endOfInput).kind ∉ phrase.extenders) :
    (phrase.production (.within limit depth)).Consumes ts e rest :=
  (he depth rest hle fun hmem => hrest (phrase.operandExtenders_subset hmem)).trans
    (phrase.resume_of_notMem (Nested.within_related_steady limit depth) hrest)

theorem expression {e : Expression} (he : Completes limit (.expression .assignment) h ts e)
    (hle : h ≤ depth) (hrest : (rest.headD .endOfInput).kind ∉ Phrase.assignment.extenders) :
    (Nested.within limit depth).expression.Consumes ts e rest :=
  he.consumes hle hrest

end Completes

namespace Grammar

variable {n : Nested} {limit depth h : Nat} {ts ts' rest : List Terminal}

section Expressions

theorem completes_assignment {e : Expression}
    (he : ∀ depth rest, h ≤ depth →
      (rest.headD .endOfInput).kind ∉ Phrase.assignment.extenders →
        (assignment (.within limit depth)).Consumes ts e rest) :
    Completes limit (.expression .assignment) (h + 1) ts e := by
  rintro (_ | depth) rest hle hrest
  · exact absurd hle (Nat.not_succ_le_zero _)
  · exact he depth rest (Nat.le_of_succ_le_succ hle) hrest

theorem assignmentRest_of_notMem {e : Expression}
    (hrest : (rest.headD .endOfInput).kind ∉ Phrase.assignment.extenders) :
    assignmentRest n e none rest = .ok (e, rest) := by
  have hkind : isAssignment (rest.headD .endOfInput).kind = false := by
    refine Bool.or_eq_false_iff.mpr ⟨?_, ?_⟩
    · exact beq_eq_false_iff_ne.mpr fun h => hrest (by rw [h]; decide)
    · exact beq_eq_false_iff_ne.mpr fun h => hrest (by rw [h]; decide)
  rw [assignmentRest, lookahead_bind, hkind]
  rfl

theorem consumes_assignmentRest {operator : AssignmentOperator} {target : AssignmentTarget}
    {value : Expression} (hvalue : n.expression.Consumes ts value rest) :
    (assignmentRest n target.toExpression).Consumes (operator.terminal :: ts)
      (.assignment operator target value) rest := by
  have hkind : isAssignment operator.terminal.kind = true := by cases operator <;> rfl
  have hcheck : assignmentTo target.toExpression operator.terminal = .ok (operator, target) :=
    assignmentTo_eq_ok.mpr ⟨rfl, rfl⟩
  rw [Consumes, assignmentRest, lookahead_bind, List.cons_append, List.headD_cons, hkind]
  exact Consumes.bind (consumes_judge hcheck _) hvalue.map

theorem consumes_rightOperand {operand : Production Expression} {connective : Connective}
    {right : Expression} (hright : operand.Consumes ts right rest) :
    (rightOperand operand).Consumes (connective.terminal :: ts) (connective, right) rest :=
  rightOperand_eq_ok.mpr ⟨connective.terminal, ts ++ rest, advance_cons (.inl rfl), hright,
    Spelled.ofSpelling?_eq_some_iff.mpr rfl⟩

theorem resume_joined (hn : n.Orderly) {phrase tighter : Phrase} {connective : Connective}
    (hjoins : Phrase.Joins phrase connective.kind tighter) {left right : Expression}
    (hright : (tighter.production n).Consumes ts right rest) :
    phrase.resume n left none (connective.terminal :: ts ++ rest) =
      phrase.resume n (connective.join left right) none rest := by
  have hts : Begins (· == connective.kind) (connective.terminal :: ts) :=
    .cons (beq_self_eq_true _)
  have hend : (TokenKind.endOfInput == connective.kind) = false :=
    beq_eq_false_iff_ne.mpr hjoins.ne_endOfInput.symm
  rw [hjoins.resume_eq]
  exact many_bind_of_consumes (tighter.strict_production hn).progresses_left.rightOperand hend hts
    (consumes_rightOperand hright)

theorem consumes_dotted {id : Identifier} (hid : identifier.Consumes ts id rest) :
    (property n).Consumes (Punctuator.dot.terminal :: ts) (false, .identifier id) rest :=
  Consumes.after Punctuator.dot.terminal hid.map

theorem consumes_computed {e : Expression}
    (he : n.expression.Consumes ts e (Punctuator.rightBracket.terminal :: rest)) :
    (property n).Consumes
      (Punctuator.leftBracket.terminal :: (ts ++ [Punctuator.rightBracket.terminal])) (true, e)
      rest :=
  Consumes.after Punctuator.leftBracket.terminal
    (.before Punctuator.rightBracket.terminal he (consumes_pure _ _))

theorem resume_member (hn : n.Orderly) {computed : Bool} {object p : Expression}
    (hts : Begins startsProperty ts) (hp : (property n).Consumes ts (computed, p) rest) :
    Phrase.member.resume n object none (ts ++ rest) =
      Phrase.member.resume n (.member computed object p) none rest :=
  many_bind_of_consumes (congruence_steady.property hn).progresses_left rfl hts hp

theorem resume_call (hn : n.Orderly) {callee : Expression} {es : List Expression}
    (hts : Begins (· == Punctuator.leftParen) ts) (hes : (arguments n).Consumes ts es rest) :
    Phrase.leftHandSide.resume n callee none (ts ++ rest) =
      Phrase.leftHandSide.resume n (.call callee es) none rest :=
  many_bind_of_consumes (congruence_steady.strict_production hn .arguments rfl).progresses_left rfl
    hts hes

theorem unary_of_startsPrimary (hts : Begins Symbol.startsPrimary ts) :
    unary n none (ts ++ rest) = leftHandSide n none (ts ++ rest) := by
  obtain ⟨t, ts, rfl, ht⟩ := hts
  change (if startsOperation t.kind then n.operation else leftHandSide n) none _ = _
  rw [Symbol.startsOperation_of_startsPrimary ht]
  rfl

theorem consumes_prefixed {operator : UnaryOperator} {argument : Expression}
    (hargument : (unary n).Consumes ts argument rest) :
    (operation n).Consumes (operator.terminal :: ts) (.unary operator argument) rest := by
  rw [operation_eq]
  exact Consumes.bind (consumes_judge (prefixOf_eq_ok.mpr rfl) _) hargument.map

theorem unary_of_prefixed {operator : UnaryOperator} :
    unary n none (operator.terminal :: ts) = n.operation none (operator.terminal :: ts) := by
  have hkind : startsOperation operator.terminal.kind = true := by cases operator <;> rfl
  change (if startsOperation operator.terminal.kind then n.operation else leftHandSide n) none _ = _
  rw [hkind]
  rfl

theorem consumes_parenthesized {e : Expression}
    (he : n.expression.Consumes ts e (Punctuator.rightParen.terminal :: rest)) :
    (parenthesized n).Consumes
      (Punctuator.leftParen.terminal :: (ts ++ [Punctuator.rightParen.terminal])) e rest :=
  .after Punctuator.leftParen.terminal
    (.before Punctuator.rightParen.terminal he (consumes_pure _ _))

theorem consumes_literal {t : Terminal} {e : Expression} (ht : literalOf t = .ok e)
    (hkind : ∀ input, primary n none (t :: input) = literal none (t :: input)) :
    (primary n).Consumes [t] e rest := by
  rw [Consumes, List.singleton_append, hkind, literal_eq]
  exact consumes_judge ht rest

end Expressions

section Statements

theorem completes_statement {s : Statement}
    (hs : ∀ depth rest, h ≤ depth →
      (s.endsOpen → (rest.headD .endOfInput).kind ≠ .keyword .else_) →
        (statement (.within limit depth)).Consumes ts s rest) :
    Completes limit .statement (h + 1) ts s := by
  rintro (_ | depth) rest hle hrest
  · exact absurd hle (Nat.not_succ_le_zero _)
  · exact hs depth rest (Nat.le_of_succ_le_succ hle) hrest

theorem consumes_parenthesized_bind {α : Type} {f : Expression → Production α} {e : Expression}
    {a : α} (he : n.expression.Consumes ts e (Punctuator.rightParen.terminal :: (ts' ++ rest)))
    (hf : (f e).Consumes ts' a rest) :
    (parenthesized n >>= f).Consumes
      (Punctuator.leftParen.terminal :: (ts ++ Punctuator.rightParen.terminal :: ts')) a rest := by
  have heq : parenthesized n >>= f = skip Punctuator.leftParen >>= fun _ => n.expression >>=
      fun e => skip Punctuator.rightParen >>= fun _ => f e := by
    change (skip Punctuator.leftParen >>= fun _ => n.expression >>= fun e =>
      skip Punctuator.rightParen >>= fun _ => pure e) >>= f = _
    simp only [bind_assoc, pure_bind]
  rw [heq]
  exact .after Punctuator.leftParen.terminal (.before Punctuator.rightParen.terminal he hf)

theorem consumes_conditional {test : Expression} {consequent : Statement}
    {alternate : Option Statement} {ts'' : List Terminal}
    (htest : n.expression.Consumes ts test
      (Punctuator.rightParen.terminal :: (ts' ++ ts'' ++ rest)))
    (hconsequent : n.statement.Consumes ts' consequent (ts'' ++ rest))
    (halternate : (optional (· == Keyword.else_)
      (skip Keyword.else_ >>= fun _ => n.statement)).Consumes ts'' alternate rest) :
    (conditional n).Consumes
      (Keyword.if_.terminal :: Punctuator.leftParen.terminal ::
        (ts ++ Punctuator.rightParen.terminal :: (ts' ++ ts'')))
      (.conditional test consequent alternate) rest :=
  .after Keyword.if_.terminal
    (consumes_parenthesized_bind htest (.bind hconsequent halternate.map))

theorem consumes_whileLoop {test : Expression} {body : Statement}
    (htest : n.expression.Consumes ts test (Punctuator.rightParen.terminal :: (ts' ++ rest)))
    (hbody : n.statement.Consumes ts' body rest) :
    (whileLoop n).Consumes
      (Keyword.while_.terminal :: Punctuator.leftParen.terminal ::
        (ts ++ Punctuator.rightParen.terminal :: ts')) (.whileLoop test body) rest :=
  .after Keyword.while_.terminal (consumes_parenthesized_bind htest hbody.map)

theorem consumes_doWhileLoop {test : Expression} {body : Statement}
    (hbody : n.statement.Consumes ts body
      (Keyword.while_.terminal :: Punctuator.leftParen.terminal ::
        (ts' ++ [Punctuator.rightParen.terminal, Punctuator.semicolon.terminal]) ++ rest))
    (htest : n.expression.Consumes ts' test (Punctuator.rightParen.terminal ::
      ([Punctuator.semicolon.terminal] ++ rest))) :
    (doWhileLoop n).Consumes
      (Keyword.do_.terminal :: (ts ++ Keyword.while_.terminal :: Punctuator.leftParen.terminal ::
        (ts' ++ [Punctuator.rightParen.terminal, Punctuator.semicolon.terminal])))
      (.doWhileLoop body test) rest :=
  .after Keyword.do_.terminal (.before Keyword.while_.terminal hbody
    (consumes_parenthesized_bind htest
      (.after Punctuator.semicolon.terminal (consumes_pure _ _))))

theorem consumes_forLoop {init : Option ForInit} {test update : Option Expression}
    {body : Statement} {ts₁ ts₂ ts₃ ts₄ : List Terminal}
    (hinit : (optional (· != Punctuator.semicolon) (forInit n)).Consumes ts₁ init
      (Punctuator.semicolon.terminal :: (ts₂ ++ Punctuator.semicolon.terminal ::
        (ts₃ ++ Punctuator.rightParen.terminal :: ts₄) ++ rest)))
    (htest : (optional (· != Punctuator.semicolon) n.expression).Consumes ts₂ test
      (Punctuator.semicolon.terminal :: (ts₃ ++ Punctuator.rightParen.terminal :: ts₄ ++ rest)))
    (hupdate : (optional (· != Punctuator.rightParen) n.expression).Consumes ts₃ update
      (Punctuator.rightParen.terminal :: (ts₄ ++ rest)))
    (hbody : n.statement.Consumes ts₄ body rest) :
    (forLoop n).Consumes
      (Keyword.for_.terminal :: Punctuator.leftParen.terminal ::
        (ts₁ ++ Punctuator.semicolon.terminal :: (ts₂ ++ Punctuator.semicolon.terminal ::
          (ts₃ ++ Punctuator.rightParen.terminal :: ts₄))))
      (.forLoop init test update body) rest :=
  .after Keyword.for_.terminal <| .after Punctuator.leftParen.terminal <|
    .before Punctuator.semicolon.terminal hinit <| .before Punctuator.semicolon.terminal htest <|
      .before Punctuator.rightParen.terminal hupdate hbody.map

theorem consumes_functionDeclaration {name : Identifier} {parameters : Option (List Identifier)}
    {body : List Statement} {ts'' : List Terminal}
    (hname : identifier.Consumes ts name (Punctuator.leftParen.terminal ::
      (ts' ++ Punctuator.rightParen.terminal :: ts'' ++ rest)))
    (hparameters : (optional (· != Punctuator.rightParen) (commaSeparated identifier)).Consumes
      ts' parameters (Punctuator.rightParen.terminal :: (ts'' ++ rest)))
    (hbody : (block n).Consumes ts'' body rest) :
    (functionDeclaration n).Consumes
      (Keyword.def_.terminal :: (ts ++ Punctuator.leftParen.terminal ::
        (ts' ++ Punctuator.rightParen.terminal :: ts'')))
      (.functionDeclaration name (parameters.getD []) body) rest :=
  .after Keyword.def_.terminal <| .before Punctuator.leftParen.terminal hname <|
    .before Punctuator.rightParen.terminal hparameters hbody.map

theorem consumes_classDeclaration {id : Identifier} {superclass : Option Identifier}
    {body : List Statement} {ts'' : List Terminal}
    (hid : identifier.Consumes ts id (ts' ++ ts'' ++ rest))
    (hsuperclass : (optional (· == Keyword.extends_)
      (skip Keyword.extends_ >>= fun _ => identifier)).Consumes ts' superclass (ts'' ++ rest))
    (hbody : (block n).Consumes ts'' body rest) :
    (classDeclaration n).Consumes (Keyword.class_.terminal :: (ts ++ (ts' ++ ts'')))
      (.classDeclaration id superclass body) rest :=
  .after Keyword.class_.terminal <| .bind hid <| .bind hsuperclass hbody.map

theorem statement_of_startsExpression (hts : Begins Symbol.startsExpression ts) :
    statement n none (ts ++ rest) = expressionStatement n none (ts ++ rest) := by
  obtain ⟨t, ts, rfl, ht⟩ := hts
  rcases t with ⟨kind, lexeme⟩
  cases kind with
  | punctuator p => cases p <;> first | rfl | cases ht
  | keyword k => cases k <;> first | rfl | cases ht
  | _ => rfl

theorem forInit_of_startsExpression (hts : Begins Symbol.startsExpression ts) :
    forInit n none (ts ++ rest) =
      (n.expression >>= fun e => pure (ForInit.expression e)) none (ts ++ rest) := by
  obtain ⟨t, ts, rfl, ht⟩ := hts
  have hkind : t.kind ≠ Keyword.let_ := by
    intro h
    rw [h] at ht
    cases ht
  change (if t.kind = Keyword.let_ then _ else n.expression >>= fun e => pure (.expression e) :
    Production ForInit) none _ = _
  rw [if_neg hkind]

end Statements

end Grammar

namespace Completes

variable {limit depth h : Nat} {ts rest : List Terminal}

theorem expressions {es : List Expression}
    (hes : Completes limit (.commaSeparated (.expression .assignment)) h ts es) (hle : h ≤ depth)
    (hrest : (rest.headD .endOfInput).kind ∉ Phrase.assignment.extenders)
    (hcomma : (rest.headD .endOfInput).kind ≠ Punctuator.comma) :
    (commaSeparated (Nested.within limit depth).expression).Consumes ts es rest := by
  have hsteady := (Nested.within_related_steady limit depth).expression.related.1
  refine consumes_commaSeparated (· ∉ Phrase.assignment.extenders) hsteady ?_ (by decide) hcomma
    hrest hle hes
  rintro h ts e hle ⟨-, he⟩ rest hrest
  exact he.expression hle hrest

theorem declarations {ds : List VariableDeclaration}
    (hds : Completes limit (.commaSeparated .declaration) h ts ds) (hle : h ≤ depth)
    (hrest : (rest.headD .endOfInput).kind = .punctuator .semicolon) :
    (commaSeparated (variableDeclaration (.within limit depth))).Consumes ts ds rest := by
  have hsteady := (congruence_steady.strict_production
    (Nested.within_related_steady limit depth) .declaration rfl).related.1
  have hends : endsDeclaration (rest.headD .endOfInput).kind := by rw [hrest]; rfl
  refine consumes_commaSeparated (fun kind => endsDeclaration kind) hsteady ?_ rfl
    (by rw [hrest]; decide) hends hle hds
  rintro h ts d hle ⟨-, hd⟩ rest hrest
  exact hd depth rest hle hrest

theorem identifiers {ids : List Identifier}
    (hids : Completes limit (.commaSeparated .identifier) h ts ids)
    (hcomma : (rest.headD .endOfInput).kind ≠ Punctuator.comma) :
    (commaSeparated identifier).Consumes ts ids rest := by
  refine consumes_commaSeparated (fun _ => True) congruence_steady.identifier.related.1
    ?_ trivial hcomma trivial (Nat.le_refl h) hids
  rintro h ts id - ⟨-, hid⟩ rest -
  exact hid rest

theorem statements {body : List Statement} {stop : TokenKind}
    (hbody : Completes limit (.many .statement) h ts body) (hle : h ≤ depth)
    (hstop : Symbol.startsStatement stop = false) (helse : stop ≠ Keyword.else_)
    (hrest : (rest.headD .endOfInput).kind = stop) :
    (Grammar.statements (.within limit depth) stop).Consumes ts body rest := by
  have hstrict := (Nested.within_related_steady limit depth).statement
  refine consumes_many (· ≠ Keyword.else_) hstrict.progresses_left (by simp) ?_ ?_
    (by rwa [hrest]) hle hbody
  · rintro h ts s hle ⟨hd, hs⟩
    obtain ⟨t, ts, rfl, ht⟩ := hd.begins rfl
    have hne : ∀ {kind}, Symbol.startsStatement kind = false → t.kind ≠ kind := by
      rintro kind hkind rfl
      exact Bool.eq_false_iff.mp hkind ht
    have hend := hne (show Symbol.startsStatement .endOfInput = false from rfl)
    refine ⟨.cons (by simp [hne hstop, hend]), ?_, ?_⟩
    · rintro _ ⟨⟩
      exact hne rfl
    · exact fun rest hrest => hs depth rest hle fun _ => hrest
  · rw [hrest]
    simp

theorem optional {s : Symbol} {starts : TokenKind → Bool} {item : Production s.Value}
    {v? : Option s.Value} (hv : Completes limit (.optional s) h ts v?) (hs : s.nullable = false)
    (hstarts : ∀ kind, s.starts kind → starts kind)
    (hitem : ∀ {ts v}, Completes limit s h ts v → item.Consumes ts v rest)
    (hrest : starts (rest.headD .endOfInput).kind = false) :
    (Descent.optional starts item).Consumes ts v? rest := by
  refine consumes_optional ?_ hrest hv
  rintro ts v ⟨hd, hv⟩
  exact ⟨(hd.begins hs).mono hstarts, hitem hv⟩

end Completes

theorem bne_of_starts {starts : TokenKind → Bool} {stop : TokenKind} (hstop : starts stop = false)
    (kind : TokenKind) (hkind : starts kind) : kind != stop := by
  refine bne_iff_ne.mpr ?_
  rintro rfl
  exact Bool.eq_false_iff.mp hstop hkind

theorem eq_or_eq_of_endsDeclaration {kind : TokenKind} (h : endsDeclaration kind) :
    kind = Punctuator.semicolon ∨ kind = Punctuator.comma := by
  simpa [endsDeclaration] using h

theorem Derives.notMem_member_extenders {h : Nat} {ts : List Terminal} {es : List Expression}
    (hd : Derives .arguments h ts es) (rest : List Terminal) :
    ((ts ++ rest).headD .endOfInput).kind ∉ Phrase.member.extenders := by
  obtain ⟨t, ts, rfl, ht⟩ := hd.begins rfl
  rw [List.cons_append, List.headD_cons, eq_of_beq ht]
  decide

/-- What is derived is read. -/
theorem Derives.completes (limit : Nat) {s : Symbol} {h : Nat} {ts : List Terminal} {v : s.Value}
    (hd : Derives s h ts v) : Completes limit s h ts v := by
  have hrightParen : Punctuator.rightParen.terminal.kind ∉ Phrase.assignment.extenders := by decide
  have hsemicolon : Punctuator.semicolon.terminal.kind ∉ Phrase.assignment.extenders := by decide
  induction hd with
  | simple he ih =>
      refine completes_assignment fun depth rest hle hrest => ?_
      have hrest' : (rest.headD .endOfInput).kind ∉ Phrase.logicalOr.extenders :=
        fun hmem => hrest (List.mem_cons_of_mem _ (List.mem_cons_of_mem _ hmem))
      rw [assignment_eq]
      exact (ih.consumes hle hrest').bind_apply.trans (assignmentRest_of_notMem hrest)
  | assigned operator htarget hvalue ihtarget ihvalue =>
      refine completes_assignment fun depth rest hle hrest => ?_
      obtain ⟨hle, hle'⟩ := Nat.max_le.mp hle
      have hoperator : operator.terminal.kind ∉ Phrase.logicalOr.extenders := by
        cases operator <;> decide
      rw [assignment_eq]
      exact .bind (ihtarget.consumes hle hoperator)
        (consumes_assignmentRest (ihvalue.expression hle' hrest))
  | operand hjoins he ih =>
      intro depth rest hle hrest
      rw [hjoins.extenders_eq.2] at hrest
      rw [hjoins.production_eq, hjoins.resume_eq]
      exact (ih.consumes hle hrest).bind_apply
  | joined connective hjoins hleft hright ihleft ihright =>
      intro depth rest hle hrest
      obtain ⟨hle, hle'⟩ := Nat.max_le.mp hle
      rw [hjoins.extenders_eq.2] at hrest
      rw [List.append_assoc, ihleft depth _ hle (by
        rw [hjoins.extenders_eq.2]
        exact hjoins.notMem_extenders)]
      exact resume_joined (Nested.within_related_steady limit depth) hjoins
        (ihright.consumes hle' hrest)
  | unprefixed he ih =>
      intro depth rest hle hrest
      exact (unary_of_startsPrimary (he.begins rfl)).trans (ih.consumes hle hrest)
  | prefixed operator hargument ih =>
      rintro (_ | depth) rest hle hrest
      · exact absurd hle (Nat.not_succ_le_zero _)
      · exact unary_of_prefixed.trans
          (consumes_prefixed (ih.consumes (Nat.le_of_succ_le_succ hle) hrest))
  | uncalled he ih =>
      intro depth rest hle hrest
      exact (ih.consumes hle hrest).bind_apply
  | call hcallee harguments ihcallee iharguments =>
      intro depth rest hle hrest
      obtain ⟨hle, hle'⟩ := Nat.max_le.mp hle
      rw [List.append_assoc, ihcallee depth _ hle (harguments.notMem_member_extenders rest)]
      exact resume_call (Nested.within_related_steady limit depth) (harguments.begins rfl)
        (iharguments depth rest hle')
  | bare he ih =>
      intro depth rest hle hrest
      exact (ih.consumes hle List.not_mem_nil).bind_apply
  | dotted hobject hid ihobject ihid =>
      intro depth rest hle hrest
      rw [List.append_assoc, ihobject depth _ (Nat.max_le.mp hle).1 List.not_mem_nil]
      exact resume_member (Nested.within_related_steady limit depth) (.cons rfl)
        (consumes_dotted (ihid rest))
  | computed hobject hproperty ihobject ihproperty =>
      intro depth rest hle hrest
      obtain ⟨hle, hle'⟩ := Nat.max_le.mp hle
      rw [List.append_assoc, ihobject depth _ hle List.not_mem_nil]
      exact resume_member (Nested.within_related_steady limit depth) (.cons rfl)
        (consumes_computed (ihproperty.expression hle'
          (show Punctuator.rightBracket.terminal.kind ∉ Phrase.assignment.extenders by decide)))
  | number hne hdigits =>
      intro depth rest hle hrest
      exact consumes_literal (literalOf_ofDigits hne hdigits) fun _ => rfl
  | string hquote htext =>
      intro depth rest hle hrest
      exact consumes_literal (literalOf_quoted _ _) fun _ => rfl
  | true_ | false_ | null =>
      intro depth rest hle hrest
      exact consumes_literal rfl fun _ => rfl
  | this =>
      intro depth rest hle hrest
      exact Consumes.after Keyword.this_.terminal (consumes_pure Expression.this rest)
  | super =>
      intro depth rest hle hrest
      exact Consumes.after Keyword.super_.terminal (consumes_pure Expression.super rest)
  | named hid ih =>
      intro depth rest hle hrest
      cases hid
      exact (ih rest).map
  | parenthesized he ih =>
      intro depth rest hle hrest
      exact consumes_parenthesized (ih.expression hle
        hrightParen)
  | new hcallee harguments ihcallee iharguments =>
      rintro (_ | depth) rest hle hrest
      · exact absurd hle (Nat.not_succ_le_zero _)
      · obtain ⟨hle, hle'⟩ := Nat.max_le.mp (Nat.le_of_succ_le_succ hle)
        have hcallee := ihcallee.consumes hle (harguments.notMem_member_extenders rest)
        exact Consumes.after Keyword.new_.terminal
          (.bind hcallee (iharguments depth rest hle').map)
  | identifier hid => exact fun rest => (consumes_expect _ rest).map
  | arguments hitems ih =>
      intro depth rest hle
      have hitems : (optional (· != Punctuator.rightParen) (commaSeparated
          (Nested.within limit depth).expression)).Consumes _ _
            (Punctuator.rightParen.terminal :: rest) :=
        ih.optional rfl (bne_of_starts rfl)
          (fun hes => hes.expressions hle hrightParen
            nofun) rfl
      exact .after Punctuator.leftParen.terminal
        (.before Punctuator.rightParen.terminal hitems (consumes_pure _ _))
  | initializer he ih =>
      intro depth rest hle hrest
      exact .after AssignmentOperator.assign.terminal (ih.expression hle hrest)
  | declaration hid hinit ihid ihinit =>
      intro depth rest hle hrest
      obtain ⟨-, hle⟩ := Nat.max_le.mp hle
      have hextends : (rest.headD .endOfInput).kind ∉ Phrase.assignment.extenders := by
        rcases eq_or_eq_of_endsDeclaration hrest with h | h <;> rw [h] <;> decide
      have hinit : (optional (!endsDeclaration ·) (skip .simpleAssign >>= fun _ =>
          (Nested.within limit depth).expression)).Consumes _ _ rest :=
        ihinit.optional rfl (fun kind hkind => by rw [eq_of_beq hkind]; rfl)
          (fun he => he depth rest hle hextends) (by rw [hrest]; rfl)
      exact .bind (ihid _) hinit.map
  | forVariables hdeclarations ih =>
      intro depth rest hle hrest
      exact .after Keyword.let_.terminal (ih.declarations hle hrest).map
  | forExpression he ih =>
      intro depth rest hle hrest
      have hextends : (rest.headD .endOfInput).kind ∉ Phrase.assignment.extenders := by
        rw [hrest]
        decide
      exact (forInit_of_startsExpression (he.begins rfl)).trans (ih.expression hle hextends).map
  | superclass hid ih => exact fun rest => .after Keyword.extends_.terminal (ih rest)
  | block hbody ih =>
      intro depth rest hle
      exact .after Punctuator.leftBrace.terminal (.before Punctuator.rightBrace.terminal
        (ih.statements hle rfl nofun rfl) (consumes_pure _ _))
  | empty =>
      refine completes_statement fun depth rest hle hrest => ?_
      exact Consumes.after Punctuator.semicolon.terminal (consumes_pure Statement.empty rest)
  | blockStatement hbody ih =>
      refine completes_statement fun depth rest hle hrest => ?_
      cases hbody
      exact (ih depth rest hle).map
  | «variables» hdeclarations ih =>
      refine completes_statement fun depth rest hle hrest => ?_
      exact Consumes.after Keyword.let_.terminal (.before Punctuator.semicolon.terminal
        (ih.declarations hle rfl) (consumes_pure _ _))
  | conditional htest hconsequent ihtest ihconsequent =>
      refine completes_statement fun depth rest hle hrest => ?_
      obtain ⟨hle, hle'⟩ := Nat.max_le.mp hle
      have hnone : (optional (· == Keyword.else_) (skip Keyword.else_ >>= fun _ =>
          (Nested.within limit depth).statement)).Consumes [] none rest :=
        consumes_optional_none (beq_eq_false_iff_ne.mpr (hrest rfl))
      have hconditional := consumes_conditional (ihtest.expression hle hrightParen)
        (ihconsequent depth rest hle' fun _ => hrest rfl) hnone
      rwa [List.append_nil] at hconditional
  | conditionalElse htest hconsequent hclosed halternate ihtest ihconsequent ihalternate =>
      refine completes_statement fun depth rest hle hrest => ?_
      obtain ⟨hle, hle'⟩ := Nat.max_le.mp hle
      obtain ⟨hle', hle''⟩ := Nat.max_le.mp hle'
      have helse := Consumes.after (p := fun _ => (Nested.within limit depth).statement)
        Keyword.else_.terminal (ihalternate depth rest hle'' hrest)
      have hopen := Bool.eq_false_iff.mp hclosed
      exact consumes_conditional (ihtest.expression hle hrightParen)
        (ihconsequent depth _ hle' fun h => absurd h hopen) (.optional (.cons rfl) helse)
  | whileLoop htest hbody ihtest ihbody =>
      refine completes_statement fun depth rest hle hrest => ?_
      obtain ⟨hle, hle'⟩ := Nat.max_le.mp hle
      exact consumes_whileLoop (ihtest.expression hle
        hrightParen)
        (ihbody depth rest hle' hrest)
  | doWhileLoop hbody htest ihbody ihtest =>
      refine completes_statement fun depth rest hle hrest => ?_
      obtain ⟨hle, hle'⟩ := Nat.max_le.mp hle
      exact consumes_doWhileLoop (ihbody depth _ hle fun _ => nofun) (ihtest.expression hle'
        hrightParen)
  | forLoop hinit htest hupdate hbody ihinit ihtest ihupdate ihbody =>
      refine completes_statement fun depth rest hle hrest => ?_
      obtain ⟨hle₁₂, hle₃₄⟩ := Nat.max_le.mp hle
      obtain ⟨hle₁, hle₂⟩ := Nat.max_le.mp hle₁₂
      obtain ⟨hle₃, hle₄⟩ := Nat.max_le.mp hle₃₄
      exact consumes_forLoop
        (ihinit.optional rfl (bne_of_starts rfl) (fun hinit => hinit depth _ hle₁ rfl) rfl)
        (ihtest.optional rfl (bne_of_starts rfl) (fun he => he.expression hle₂ hsemicolon) rfl)
        (ihupdate.optional rfl (bne_of_starts rfl) (fun he => he.expression hle₃ hrightParen) rfl)
        (ihbody depth rest hle₄ hrest)
  | functionDeclaration hname hparameters hbody ihname ihparameters ihbody =>
      refine completes_statement fun depth rest hle hrest => ?_
      obtain ⟨-, hle⟩ := Nat.max_le.mp hle
      obtain ⟨-, hle⟩ := Nat.max_le.mp hle
      exact consumes_functionDeclaration (ihname _)
        (ihparameters.optional rfl (bne_of_starts rfl) (fun hids => hids.identifiers nofun) rfl)
        (ihbody depth rest hle)
  | returnStatement hargument ih =>
      refine completes_statement fun depth rest hle hrest => ?_
      exact Consumes.after Keyword.return_.terminal (.before Punctuator.semicolon.terminal
        (ih.optional rfl (bne_of_starts rfl) (fun he => he.expression hle hsemicolon) rfl)
        (consumes_pure _ _))
  | classDeclaration hid hsuperclass hbody ihid ihsuperclass ihbody =>
      refine completes_statement fun depth rest hle hrest => ?_
      obtain ⟨-, hle⟩ := Nat.max_le.mp hle
      obtain ⟨-, hle⟩ := Nat.max_le.mp hle
      obtain ⟨t, ts, rfl, ht⟩ := hbody.begins rfl
      refine consumes_classDeclaration (ihid _)
        (ihsuperclass.optional rfl (fun _ hkind => hkind) (fun hid => hid _) ?_)
        (ihbody depth rest hle)
      rw [List.cons_append, List.headD_cons, eq_of_beq ht]
      rfl
  | expressionStatement he ih =>
      refine completes_statement fun depth rest hle hrest => ?_
      exact (statement_of_startsExpression (he.begins rfl).append).trans
        (Consumes.before Punctuator.semicolon.terminal (ih.expression hle hsemicolon)
          (consumes_pure _ _))
  | absent => exact ⟨rfl, rfl⟩
  | present hv ih => exact ⟨hv, ih⟩
  | nil => exact ⟨rfl, rfl⟩
  | cons hv hvs ihv ihvs => exact ⟨_, _, _, _, rfl, rfl, ⟨hv, ihv⟩, ihvs⟩
  | single hv ih => exact ⟨hv, ih⟩
  | more hv hvs ihv ihvs => exact Language.commaSeparated_cons ⟨hv, ihv⟩ ihvs

end Letter
