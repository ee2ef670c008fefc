import Letter.Proofs.Production.Congruence
import Letter.Proofs.Production.Reading

namespace Letter

/-- The kinds that are missed wherever a terminal of another kind stands. -/
def Objection.missable : List TokenKind :=
  [.identifier, .simpleAssign, Punctuator.semicolon, Punctuator.leftParen, Punctuator.rightParen,
   Punctuator.leftBrace, Punctuator.rightBracket, Keyword.while_]

/-- All failures there are. A right brace is missed at the end of input only, and the target of an
assignment is objected to at the operator. -/
def Failure.IsForeseen (failure : Failure) : Prop :=
  match failure.objection with
  | .lexical _ | .nesting _ => True
  | .assignmentTarget => ∃ operator : AssignmentOperator,
      failure.unread.head? = some operator.terminal
  | .noAlternative production => production = "PrimaryExpression"
  | .expected what =>
    (∃ kind ∈ Objection.missable, what = kind.label) ∨
      what = Punctuator.rightBrace.spelling ∧ failure.unread = []

theorem Failure.IsForeseen.notMem_fallbacks {failure : Failure} (h : failure.IsForeseen) :
    failure.objection ∉ Objection.fallbacks := by
  have hmissable : ∀ kind ∈ Objection.missable,
      Objection.expected kind.label ∉ Objection.fallbacks := by
    decide
  have hrightBrace : Objection.expected Punctuator.rightBrace.spelling ∉ Objection.fallbacks := by
    decide
  have hprimary : Objection.noAlternative "PrimaryExpression" ∉ Objection.fallbacks := by decide
  obtain ⟨objection, unread⟩ := failure
  cases objection with
  | expected what =>
      rcases h with ⟨kind, hkind, rfl⟩ | ⟨rfl, -⟩
      · exact hmissable kind hkind
      · exact hrightBrace
  | noAlternative production =>
      obtain rfl : production = "PrimaryExpression" := h
      exact hprimary
  | _ => simp [Objection.fallbacks]

namespace Production

variable {α β : Type} {starts : TokenKind → Bool}

/-- Behind a lookahead of certain kinds, the failures of a production are foreseen. -/
structure ForeseesFrom (starts : TokenKind → Bool) (p : Production α) : Prop where
  steady : p.Steady
  of_error : ∀ {stuck? input failure}, starts (input.headD .endOfInput).kind →
    (∀ t ∈ input, t.Lexed) → p stuck? input = .error failure → failure.IsForeseen

abbrev Foresees (p : Production α) : Prop :=
  p.ForeseesFrom fun _ => true

namespace ForeseesFrom

variable {p : Production α} {f : α → Production β}

theorem mono_starts {starts' : TokenKind → Bool} (hp : p.ForeseesFrom starts)
    (hstarts : ∀ kind, starts' kind → starts kind) : p.ForeseesFrom starts' where
  steady := hp.steady
  of_error h := hp.of_error (hstarts _ h)

theorem at_kind {kind : TokenKind} (hp : p.ForeseesFrom starts) (hkind : starts kind) :
    p.ForeseesFrom (· == kind) :=
  hp.mono_starts fun kind' hkind' => by rwa [eq_of_beq hkind']

theorem restrict (hp : p.ForeseesFrom fun _ => true) : p.ForeseesFrom starts :=
  hp.mono_starts fun _ _ => rfl

theorem bind_from {follows : α → TokenKind → Bool} (hp : p.ForeseesFrom starts)
    (hfollows : p.Ensures fun a kind => follows a kind)
    (hf : ∀ a, (f a).ForeseesFrom (follows a)) : (p >>= f).ForeseesFrom starts where
  steady := hp.steady.bind fun a => (hf a).steady
  of_error hstarts hinput herror := by
    rcases bind_eq_error.mp herror with hfirst | ⟨a, middle, hfirst, hsecond⟩
    · exact hp.of_error hstarts hinput hfirst
    · have hmiddle := hp.steady.of_ok hfirst
      exact (hf a).of_error (hfollows.of_ok hfirst) (fun t ht => hinput t (hmiddle.subset ht))
        hsecond

theorem bind (hp : p.ForeseesFrom starts) (hf : ∀ a, (f a).Foresees) :
    (p >>= f).ForeseesFrom starts := by
  exact hp.bind_from ⟨fun _ => rfl⟩ hf

end ForeseesFrom

theorem foresees_pure (a : α) : (pure a : Production α).ForeseesFrom starts where
  steady := steady_pure a
  of_error _ _ := nofun

theorem ForeseesFrom.map {p : Production α} {f : α → β} (hp : p.ForeseesFrom starts) :
    (p >>= fun a => pure (f a)).ForeseesFrom starts :=
  hp.bind fun _ => foresees_pure _

theorem foresees_lookahead_bind_from {f : Terminal → Production α}
    (hsteady : (lookahead >>= f).Steady)
    (hf : ∀ t, starts t.kind → (f t).ForeseesFrom (· == t.kind)) :
    (lookahead >>= f).ForeseesFrom starts where
  steady := hsteady
  of_error {_} {input} {_} hstarts hinput herror :=
    (hf (input.headD .endOfInput) hstarts).of_error (beq_self_eq_true _) hinput herror

theorem foresees_lookahead_bind {f : Terminal → Production α}
    (hf : ∀ t, (f t).ForeseesFrom (· == t.kind)) : (lookahead >>= f).Foresees :=
  foresees_lookahead_bind_from (steady_lookahead.bind fun t => (hf t).steady) fun t _ => hf t

theorem foresees_advance : advance.ForeseesFrom starts where
  steady := steady_advance
  of_error _ _ herror := by
    obtain ⟨character, -, rfl⟩ := exists_of_advance_eq_error herror
    trivial

theorem foresees_object {objection : Objection} (hlexical : ∀ c, objection ≠ .lexical c)
    (hobjection : ∀ unread, Failure.IsForeseen ⟨objection, unread⟩) :
    (object objection : Production α).ForeseesFrom starts where
  steady := steady_object hlexical
  of_error _ _ herror := by
    cases herror
    exact hobjection _

section Expect

variable {kind : TokenKind}

theorem foresees_expect (hkind : kind ∈ Objection.missable) : (expect kind).Foresees :=
  foresees_lookahead_bind fun t => by
    split
    · exact foresees_advance
    · exact foresees_object nofun fun _ => .inl ⟨kind, hkind, rfl⟩

theorem foresees_skip (hkind : kind ∈ Objection.missable) : (skip kind).Foresees :=
  (foresees_expect hkind).map

theorem foresees_skip_seen : (skip kind).ForeseesFrom (· == kind) := by
  refine ForeseesFrom.map (foresees_lookahead_bind_from ?_ fun t ht => ?_)
  · refine steady_lookahead.bind fun t => ?_
    split
    · exact steady_advance
    · exact steady_object nofun
  · rw [if_pos (eq_of_beq ht)]
    exact foresees_advance

theorem foresees_skip_rightBrace :
    (skip Punctuator.rightBrace).ForeseesFrom
      fun kind => kind == Punctuator.rightBrace || kind == .endOfInput where
  steady := foresees_skip_seen.steady
  of_error {stuck?} {input} {failure} hstarts hinput herror := by
    by_cases hkind : (input.headD .endOfInput).kind = Punctuator.rightBrace
    · exact foresees_skip_seen.of_error (beq_iff_eq.mpr hkind) hinput herror
    · have hend : (input.headD .endOfInput).kind = .endOfInput :=
        eq_of_beq ((Bool.or_eq_true_iff.mp hstarts).resolve_left (hkind ∘ eq_of_beq))
      cases input with
      | nil =>
          cases herror
          exact .inr ⟨rfl, rfl⟩
      | cons t input => exact absurd hend (hinput t List.mem_cons_self).kind_ne_endOfInput

theorem foresees_after {p : Unit → Production α} (hp : (p ()).Foresees) :
    (skip kind >>= p).ForeseesFrom (· == kind) :=
  foresees_skip_seen.bind fun _ => hp

theorem foresees_between {kind' : TokenKind} {p : Production α} {f : α → β}
    (hkind' : kind' ∈ Objection.missable) (hp : p.Foresees) :
    (skip kind >>= fun _ => p >>= fun a => skip kind' >>= fun _ => pure (f a)).ForeseesFrom
      (· == kind) :=
  foresees_after (hp.bind fun _ => (foresees_skip hkind').map)

end Expect

theorem foresees_judge {check : Terminal → Except Objection α}
    (hlate : ∀ {t objection}, check t = .error objection → objection.IsLate)
    (hend : starts .endOfInput = false)
    (hcheck : ∀ {t objection}, starts t.kind → t.Lexed → check t = .error objection →
      objection = .assignmentTarget ∧ ∃ operator : AssignmentOperator, t = operator.terminal) :
    (judge check).ForeseesFrom starts where
  steady := steady_judge hlate
  of_error {stuck?} {input} {failure} hstarts hinput herror := by
    rcases judge_eq_error.mp herror with hadvance | ⟨t, rest, objection, hadvance, ht, rfl⟩
    · exact foresees_advance.of_error hstarts hinput hadvance
    · cases input with
      | nil => exact absurd hstarts (by simp [Terminal.endOfInput, hend])
      | cons t' input =>
          obtain ⟨rfl, -⟩ := List.cons.inj (eq_cons_of_advance hadvance (List.cons_ne_nil _ _))
          obtain ⟨rfl, operator, rfl⟩ := hcheck hstarts (hinput t' List.mem_cons_self) ht
          exact ⟨operator, rfl⟩

namespace ForeseesFrom

variable {item : Production α}

theorem optional (hitem : item.ForeseesFrom starts) : (Descent.optional starts item).Foresees :=
  foresees_lookahead_bind fun t => by
    split
    · rename_i ht
      exact (hitem.at_kind ht).map
    · exact foresees_pure none

theorem manyWithin (hitem : item.ForeseesFrom starts) (bound : List Terminal) :
    (manyWithin starts item bound).Foresees := by
  induction bound with
  | nil => exact foresees_pure _
  | cons t bound ih =>
      refine foresees_lookahead_bind fun t => ?_
      split
      · rename_i ht
        exact (hitem.at_kind ht).bind fun _ => ih.map
      · exact foresees_pure []

theorem many (hitem : item.ForeseesFrom starts) : (many starts item).Foresees where
  steady := hitem.steady.many
  of_error hstarts := (hitem.manyWithin _).of_error hstarts

end ForeseesFrom

theorem Foresees.optional {item : Production α} (hitem : item.Foresees)
    (starts : TokenKind → Bool) : (Descent.optional starts item).Foresees :=
  hitem.restrict.optional

theorem Foresees.commaSeparated {item : Production α} (hitem : item.Foresees) :
    (commaSeparated item).Foresees :=
  hitem.bind fun _ => (foresees_after hitem).many.map

end Production

/-- What the productions of a level foresee, those that open a level behind an operator or `new`
only there. -/
structure Nested.Foresees (n : Nested) : Prop where
  orderly : n.Orderly
  statement : n.statement.Foresees
  expression : n.expression.Foresees
  operation : n.operation.ForeseesFrom Grammar.startsOperation
  construction : n.construction.ForeseesFrom (· == Keyword.new_)

namespace Grammar

open Production

variable {n : Nested}

/-- The kinds of literals. -/
def isLiteral : TokenKind → Bool
  | .number | .string | .keyword .true_ | .keyword .false_ | .keyword .null_ => true
  | _ => false

section Judged

variable {t : Terminal}

theorem exists_literalOf_eq_ok (ht : t.Lexed) (hkind : isLiteral t.kind) :
    ∃ e, literalOf t = .ok e := by
  have hgenuine := ht.genuine fun h => by
    rw [h] at hkind
    cases hkind
  cases hgenuine with
  | number hne hdigits => exact ⟨_, literalOf_ofDigits hne hdigits⟩
  | string hquote htext => exact ⟨_, literalOf_quoted _ _⟩
  | keyword k => cases k <;> first | exact ⟨_, rfl⟩ | cases hkind
  | punctuator p | identifier hid => cases hkind
  | assignment o | prefixed o => cases o <;> cases hkind
  | connective c => rcases c with o | o <;> cases o <;> cases hkind

theorem exists_prefixOf_eq_ok (ht : t.Lexed) (hkind : startsOperation t.kind) :
    ∃ operator, prefixOf t = .ok operator := by
  have hform := (ht.genuine fun h => by
    rw [h] at hkind
    cases hkind).form
  rcases Bool.or_eq_true_iff.mp hkind with hadditive | hnot
  · rw [eq_of_beq hadditive] at hform
    obtain ⟨-, operator, rfl⟩ := hform
    exact ⟨operator, prefixOf_eq_ok.mpr rfl⟩
  · rw [eq_of_beq hnot] at hform
    obtain ⟨operator, rfl⟩ := hform
    exact ⟨operator, prefixOf_eq_ok.mpr rfl⟩

theorem exists_assignmentOperator (ht : t.Lexed) (hkind : isAssignment t.kind) :
    ∃ operator : AssignmentOperator, t = operator.terminal := by
  have hform := (ht.genuine fun h => by
    rw [h] at hkind
    cases hkind).form
  rcases Bool.or_eq_true_iff.mp hkind with hsimple | hcomplex
  · rw [eq_of_beq hsimple] at hform
    exact hform
  · rw [eq_of_beq hcomplex] at hform
    exact hform

theorem eq_assignmentTarget_of_assignmentTo (ht : t.Lexed) (hkind : isAssignment t.kind)
    {left : Expression} {objection : Objection} (h : assignmentTo left t = .error objection) :
    objection = .assignmentTarget := by
  -- an assignment operator is spelled like one, so only the target can be wrong
  obtain ⟨operator, rfl⟩ := exists_assignmentOperator ht hkind
  have hspelled : Spelled.ofSpelling? operator.terminal.lexeme = some operator :=
    Spelled.ofSpelling?_eq_some_iff.mpr rfl
  rw [assignmentTo, hspelled] at h
  cases htarget : AssignmentTarget.ofExpression? left with
  | none =>
      rw [htarget] at h
      exact (Except.error.inj h).symm
  | some target =>
      rw [htarget] at h
      cases h

end Judged

theorem foresees_identifier : identifier.Foresees :=
  (foresees_expect (by decide)).map

theorem foresees_literal : literal.ForeseesFrom isLiteral := by
  rw [literal_eq]
  refine foresees_judge literalOf_late rfl fun hkind ht herror => ?_
  obtain ⟨e, hok⟩ := exists_literalOf_eq_ok ht hkind
  cases hok.symm.trans herror

theorem foresees_parenthesized (hn : n.Foresees) : (parenthesized n).Foresees :=
  (foresees_skip (by decide)).bind fun _ => hn.expression.bind fun _ =>
    (foresees_skip (by decide)).map

theorem foresees_primary (hn : n.Foresees) : (primary n).Foresees := by
  have hliteral {t : Terminal} (ht : isLiteral t.kind) : literal.ForeseesFrom (· == t.kind) :=
    foresees_literal.at_kind ht
  refine foresees_lookahead_bind fun t => ?_
  split <;> rename_i hkind
  · exact hliteral (by rw [hkind]; rfl)
  · exact hliteral (by rw [hkind]; rfl)
  · exact hliteral (by rw [hkind]; rfl)
  · exact hliteral (by rw [hkind]; rfl)
  · exact hliteral (by rw [hkind]; rfl)
  · exact (foresees_parenthesized hn).restrict
  · exact foresees_identifier.map.restrict
  · rw [hkind]
    exact foresees_skip_seen.map
  · rw [hkind]
    exact foresees_skip_seen.map
  · rw [hkind]
    exact hn.construction
  · exact foresees_object nofun fun _ => rfl

theorem foresees_property (hn : n.Foresees) : (property n).ForeseesFrom startsProperty := by
  refine foresees_lookahead_bind_from (congruence_steady.property hn.orderly).related.1
    fun t ht => ?_
  split
  · rename_i hdot
    rw [hdot]
    exact foresees_after foresees_identifier.map
  · rename_i hdot
    rw [eq_of_beq ((Bool.or_eq_true_iff.mp ht).resolve_left (hdot ∘ eq_of_beq))]
    exact foresees_between (by decide) hn.expression

theorem foresees_member (hn : n.Foresees) : (member n).Foresees :=
  (foresees_primary hn).bind fun _ => (foresees_property hn).many.map

theorem foresees_arguments (hn : n.Foresees) : (arguments n).Foresees :=
  (foresees_skip (by decide)).bind fun _ =>
    (hn.expression.commaSeparated.optional _).bind fun _ => (foresees_skip (by decide)).map

theorem foresees_leftHandSide (hn : n.Foresees) : (leftHandSide n).Foresees :=
  (foresees_member hn).bind fun _ => (foresees_arguments hn).restrict.many.map

theorem foresees_unary (hn : n.Foresees) : (unary n).Foresees := by
  refine foresees_lookahead_bind fun t => ?_
  split
  · rename_i hoperation
    exact hn.operation.at_kind hoperation
  · exact (foresees_leftHandSide hn).restrict

theorem foresees_rightOperand {operand : Production Expression} (hoperand : operand.Foresees)
    {kind : TokenKind} (hkind : kind ∈ precedence) :
    (rightOperand operand).ForeseesFrom (· == kind) where
  steady := hoperand.steady.rightOperand
  of_error {stuck?} {input} {failure} hstarts hinput herror := by
    rcases rightOperand_eq_error.mp herror with
      hadvance | ⟨token, middle, hadvance, hright | ⟨right, rest, -, hspelled, -⟩⟩
    · have hforesees : advance.ForeseesFrom (· == kind) := foresees_advance
      exact hforesees.of_error hstarts hinput hadvance
    · have hmiddle := steady_advance.of_ok hadvance
      exact hoperand.of_error rfl (fun t ht => hinput t (hmiddle.subset ht)) hright
    · cases input with
      | nil =>
          obtain rfl := eq_of_beq hstarts
          exact absurd hkind (by decide)
      | cons t input =>
          obtain ⟨rfl, -⟩ := List.cons.inj (eq_cons_of_advance hadvance (List.cons_ne_nil _ _))
          obtain rfl : t.kind = kind := eq_of_beq hstarts
          have hgenuine := (hinput t List.mem_cons_self).genuine fun h => by
            rw [h] at hkind
            exact absurd hkind (by decide)
          obtain ⟨connective, rfl⟩ := exists_connective hgenuine hkind
          exact absurd rfl (Spelled.ofSpelling?_eq_none_iff.mp hspelled connective)

theorem foresees_operandsOf (hn : n.Foresees) {kinds : List TokenKind}
    (hkinds : kinds ⊆ precedence) : (kinds.foldr leftAssociative (unary n)).Foresees := by
  induction kinds with
  | nil => exact foresees_unary hn
  | cons kind kinds ih =>
      have hoperand := ih fun _ h => hkinds (List.mem_cons_of_mem _ h)
      exact hoperand.bind fun _ =>
        (foresees_rightOperand hoperand (hkinds List.mem_cons_self)).many.map

theorem foresees_assignment (hn : n.Foresees) : (assignment n).Foresees := by
  rw [assignment_eq]
  refine (foresees_operandsOf hn (List.Subset.refl _)).bind fun left => ?_
  refine foresees_lookahead_bind fun t => ?_
  split
  · rename_i hassignment
    have hjudge : (judge (assignmentTo left)).ForeseesFrom isAssignment :=
      foresees_judge assignmentTo_late rfl fun hkind ht herror =>
        ⟨eq_assignmentTarget_of_assignmentTo ht hkind herror,
          exists_assignmentOperator ht hkind⟩
    exact (hjudge.at_kind hassignment).bind fun _ => hn.expression.map
  · exact foresees_pure _

theorem foresees_operation (hn : n.Foresees) : (operation n).ForeseesFrom startsOperation := by
  rw [operation_eq]
  refine (foresees_judge prefixOf_late rfl fun hkind ht herror => ?_).bind fun _ =>
    (foresees_unary hn).map
  obtain ⟨operator, hok⟩ := exists_prefixOf_eq_ok ht hkind
  cases hok.symm.trans herror

theorem foresees_construction (hn : n.Foresees) :
    (construction n).ForeseesFrom (· == Keyword.new_) :=
  foresees_after ((foresees_member hn).bind fun _ => (foresees_arguments hn).map)

theorem foresees_block (hn : n.Foresees) : (block n).Foresees := by
  have hends : (statements n Punctuator.rightBrace).Ensures fun _ kind =>
      kind == Punctuator.rightBrace || kind == .endOfInput := by
    refine (ensures_many hn.orderly.statement.progresses_left rfl).mono fun _ kind hkind => ?_
    rwa [bne, bne, ← Bool.not_or, Bool.not_eq_false'] at hkind
  exact (foresees_skip (by decide)).bind fun _ => hn.statement.restrict.many.bind_from hends
    fun _ => foresees_skip_rightBrace.map

theorem foresees_variableDeclaration (hn : n.Foresees) : (variableDeclaration n).Foresees :=
  have hinitializer : (skip .simpleAssign >>= fun _ => n.expression).Foresees :=
    (foresees_skip (by decide)).bind fun _ => hn.expression
  foresees_identifier.bind fun _ => (hinitializer.optional _).map

section Statements

variable (hn : n.Foresees)

include hn

theorem foresees_declarations : (commaSeparated (variableDeclaration n)).Foresees :=
  (foresees_variableDeclaration hn).commaSeparated

theorem foresees_conditional : (conditional n).ForeseesFrom (· == Keyword.if_) := by
  have halternate : (skip Keyword.else_ >>= fun _ => n.statement).ForeseesFrom
      (· == Keyword.else_) := foresees_after hn.statement
  apply foresees_after
  apply (foresees_parenthesized hn).bind
  intro test
  apply hn.statement.bind
  intro consequent
  exact halternate.optional.map

theorem foresees_whileLoop : (whileLoop n).ForeseesFrom (· == Keyword.while_) :=
  foresees_after ((foresees_parenthesized hn).bind fun _ => hn.statement.map)

theorem foresees_doWhileLoop : (doWhileLoop n).ForeseesFrom (· == Keyword.do_) := by
  apply foresees_after
  apply hn.statement.bind
  intro body
  apply (foresees_skip (by decide)).bind
  intro _
  apply (foresees_parenthesized hn).bind
  intro test
  exact (foresees_skip (by decide)).map

theorem foresees_forInit : (forInit n).Foresees := by
  refine foresees_lookahead_bind fun t => ?_
  split
  · rename_i hlet
    rw [hlet]
    exact foresees_after (foresees_declarations hn).map
  · exact hn.expression.map.restrict

theorem foresees_forLoop : (forLoop n).ForeseesFrom (· == Keyword.for_) := by
  apply foresees_after
  apply (foresees_skip (by decide)).bind
  intro _
  apply ((foresees_forInit hn).optional _).bind
  intro init
  apply (foresees_skip (by decide)).bind
  intro _
  apply (hn.expression.optional _).bind
  intro test
  apply (foresees_skip (by decide)).bind
  intro _
  apply (hn.expression.optional _).bind
  intro update
  apply (foresees_skip (by decide)).bind
  intro _
  exact hn.statement.map

theorem foresees_functionDeclaration :
    (functionDeclaration n).ForeseesFrom (· == Keyword.def_) := by
  apply foresees_after
  apply foresees_identifier.bind
  intro name
  apply (foresees_skip (by decide)).bind
  intro _
  apply (foresees_identifier.commaSeparated.optional _).bind
  intro parameters
  apply (foresees_skip (by decide)).bind
  intro _
  exact (foresees_block hn).map

theorem foresees_classDeclaration : (classDeclaration n).ForeseesFrom (· == Keyword.class_) := by
  have hsuperclass : (skip Keyword.extends_ >>= fun _ => identifier).ForeseesFrom
      (· == Keyword.extends_) := foresees_after foresees_identifier
  apply foresees_after
  apply foresees_identifier.bind
  intro id
  apply hsuperclass.optional.bind
  intro superclass
  exact (foresees_block hn).map

theorem foresees_statement : (statement n).Foresees := by
  refine foresees_lookahead_bind fun t => ?_
  split <;> rename_i hkind
  · rw [hkind]
    exact foresees_skip_seen.map
  · exact (foresees_block hn).map.restrict
  · rw [hkind]
    exact foresees_between (by decide) (foresees_declarations hn)
  · rw [hkind]
    exact foresees_conditional hn
  · rw [hkind]
    exact foresees_whileLoop hn
  · rw [hkind]
    exact foresees_doWhileLoop hn
  · rw [hkind]
    exact foresees_forLoop hn
  · rw [hkind]
    exact foresees_functionDeclaration hn
  · rw [hkind]
    exact foresees_between (by decide) (hn.expression.optional _)
  · rw [hkind]
    exact foresees_classDeclaration hn
  · exact (hn.expression.bind fun _ => (foresees_skip (by decide)).map).restrict

end Statements

end Grammar

open Production

theorem Nested.foresees_within (limit depth : Nat) : (Nested.within limit depth).Foresees := by
  induction depth with
  | zero =>
      have hnesting {α : Type} {starts : TokenKind → Bool} :
          (object (.nesting limit) : Production α).ForeseesFrom starts :=
        foresees_object nofun fun _ => trivial
      exact ⟨within_related_steady limit 0, hnesting, hnesting, hnesting, hnesting⟩
  | succ depth ih =>
      exact
        { orderly := within_related_steady limit (depth + 1)
          statement := Grammar.foresees_statement ih
          expression := Grammar.foresees_assignment ih
          operation := Grammar.foresees_operation ih
          construction := Grammar.foresees_construction ih }

/-- No failure of a program is unforeseen. -/
theorem Grammar.foresees_program (limit : Nat) : (program limit).Foresees :=
  (Nested.foresees_within limit limit).statement.restrict.many.map

end Letter
