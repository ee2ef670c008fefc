import Letter.Grammar.Program
import Letter.Proofs.Grammar.Derivation
import Letter.Proofs.Grammar.Judgement
import Letter.Proofs.Production.Reading

namespace Letter

namespace Derives

variable {s : Symbol} {h : Nat} {ts : List Terminal}

theorem of_optional {v : Option s.Value} (hv : Language.optional (Derives s) h ts v) :
    Derives (.optional s) h ts v := by
  cases v with
  | none =>
      obtain ⟨rfl, rfl⟩ := hv
      exact .absent
  | some v => exact .present hv

theorem of_many {vs : List s.Value} (hvs : Language.many (Derives s) h ts vs) :
    Derives (.many s) h ts vs := by
  induction vs generalizing h ts with
  | nil =>
      obtain ⟨rfl, rfl⟩ := hvs
      exact .nil
  | cons v vs ih =>
      obtain ⟨h₁, h₂, ts₁, ts₂, rfl, rfl, hv, hvs⟩ := hvs
      exact .cons hv (ih hvs)

theorem of_commaSeparated {vs : List s.Value}
    (hvs : Language.commaSeparated (Derives s) h ts vs) :
    Derives (.commaSeparated s) h ts vs := by
  induction vs generalizing h ts with
  | nil => exact absurd hvs id
  | cons v vs ih =>
      cases vs with
      | nil => exact .single hvs
      | cons v' vs =>
          obtain ⟨h₁, h₂, ts₁, ts₂, rfl, rfl, hv, hvs⟩ := hvs
          exact .more hv (ih hvs)

end Derives

namespace Grammar

open Descent (optional)
open Production

variable {n : Nested} {depth : Nat}

theorem reads_optional (s : Symbol) {starts : TokenKind → Bool} {item : Production s.Value}
    (hitem : item.Reads depth (Derives s)) :
    (optional starts item).Reads depth (Derives (.optional s)) :=
  hitem.restrict.optional.mono .of_optional

theorem reads_many (s : Symbol) {starts : TokenKind → Bool} {item : Production s.Value}
    (hitem : item.Reads depth (Derives s)) :
    (many starts item).Reads depth (Derives (.many s)) :=
  hitem.restrict.many.mono .of_many

theorem reads_commaSeparated (s : Symbol) {item : Production s.Value}
    (hitem : item.Reads depth (Derives s)) :
    (commaSeparated item).Reads depth (Derives (.commaSeparated s)) :=
  hitem.commaSeparated.mono .of_commaSeparated

theorem wellFormed_x : (⟨"x"⟩ : Identifier).WellFormed :=
  ⟨⟨'x', [], rfl, .inl (by decide), by simp⟩, fun k => by cases k <;> decide⟩

theorem reads_identifier : identifier.Reads depth (Derives .identifier) := by
  have hx : ∃ t : Terminal, t.kind = .identifier ∧ t.Genuine :=
    ⟨_, rfl, .identifier wellFormed_x⟩
  refine (reads_expect hx).map.mono ?_
  rintro h ts id ⟨t, rfl, rfl, rfl, hkind, ht⟩
  have hform := ht.form
  rw [hkind] at hform
  obtain ⟨id, hid, rfl⟩ := hform
  exact .identifier hid

theorem derives_of_literalOf {t : Terminal} {e : Expression} (ht : t.Genuine)
    (h : literalOf t = .ok e) : Derives (.expression .primary) 0 [t] e := by
  cases ht with
  | punctuator p => cases h
  | keyword k =>
      cases k <;> cases h
      · exact .true_
      · exact .false_
      · exact .null
  | number hne hdigits =>
      rename_i digits
      rw [literalOf_ofDigits hne hdigits] at h
      cases h
      exact .number hne hdigits
  | identifier => cases h
  | string hquote htext =>
      rw [literalOf_quoted] at h
      cases h
      exact .string hquote htext
  | assignment o | prefixed o => cases o <;> cases h
  | connective c => rcases c with o | o <;> cases o <;> cases h

theorem viable_primary : Language.Viable (Derives (.expression .primary)) [] :=
  ⟨0, _, _, .this⟩

theorem reads_literal :
    literal.ReadsFrom (· != .endOfInput) depth (Derives (.expression .primary)) := by
  rw [literal_eq]
  exact reads_judge rfl (fun _ ht h => derives_of_literalOf ht h) viable_primary

end Grammar

/-- The productions that open a level read the sentences of their nonterminals, and no `else`
follows where a statement could go on with one. -/
structure Nested.Sound (n : Nested) (depth : Nat) : Prop where
  statement : n.statement.Reads depth (Derives .statement)
  closes : n.statement.Ensures fun s kind => s.endsOpen → kind ≠ Keyword.else_
  expression : n.expression.Reads depth (Derives (.expression .assignment))
  operation : n.operation.ReadsFrom Grammar.startsOperation depth (Derives (.expression .unary))
  construction : n.construction.Reads depth (Derives (.expression .primary))

namespace Grammar

open Descent (optional)
open Production

variable {n : Nested} {depth : Nat}

theorem reads_parenthesized (hn : n.Sound depth) :
    (parenthesized n).Reads depth fun h ts e => ∃ ts',
      ts = Punctuator.leftParen.terminal :: (ts' ++ [Punctuator.rightParen.terminal]) ∧
        Derives (.expression .assignment) h ts' e := by
  refine (Reads.between (Punctuator.sole_terminal .leftParen)
    (Punctuator.sole_terminal .rightParen) hn.expression).mono ?_
  rintro h ts _ ⟨ts', e, rfl, rfl, he⟩
  exact ⟨ts', rfl, he⟩

theorem reads_primary (hn : n.Sound depth) :
    (primary n).Reads depth (Derives (.expression .primary)) := by
  refine reads_lookahead_bind (fun t _ => ?_) viable_primary
  have hliteral : t.kind ≠ .endOfInput →
      literal.ReadsFrom (· == t.kind) depth (Derives (.expression .primary)) :=
    fun ht => reads_literal.mono_starts fun kind hkind => by
      rw [eq_of_beq hkind]
      exact bne_iff_ne.mpr ht
  split
  · rename_i ht
    exact hliteral (by simp [ht])
  · rename_i ht
    exact hliteral (by simp [ht])
  · rename_i ht
    exact hliteral (by simp [ht])
  · rename_i ht
    exact hliteral (by simp [ht])
  · rename_i ht
    exact hliteral (by simp [ht])
  · refine (reads_parenthesized hn).restrict.mono ?_
    rintro h ts e ⟨ts', rfl, he⟩
    exact .parenthesized he
  · refine reads_identifier.map.restrict.mono ?_
    rintro h ts _ ⟨id, rfl, hid⟩
    exact .named hid
  · have hthis : (skip Keyword.this_ >>= fun _ => pure Expression.this).Reads depth _ :=
      Reads.after (Keyword.sole_terminal .this_) (reads_pure _)
    refine hthis.restrict.mono ?_
    rintro h ts _ ⟨_, rfl, rfl, rfl, rfl⟩
    exact .this
  · have hsuper : (skip Keyword.super_ >>= fun _ => pure Expression.super).Reads depth _ :=
      Reads.after (Keyword.sole_terminal .super_) (reads_pure _)
    refine hsuper.restrict.mono ?_
    rintro h ts _ ⟨_, rfl, rfl, rfl, rfl⟩
    exact .super
  · exact hn.construction.restrict
  · have hobject : (object (.noAlternative "PrimaryExpression")).Reads depth _ :=
      reads_object viable_primary _ nofun
    exact hobject.restrict

/-- A dot and a name, or an expression in brackets. -/
def propertyLanguage : Language (Bool × Expression) := fun h ts (computed, property) =>
  (∃ ts' id, computed = false ∧ property = .identifier id ∧
    ts = Punctuator.dot.terminal :: ts' ∧ Derives .identifier h ts' id) ∨
  ∃ ts', computed = true ∧
    ts = Punctuator.leftBracket.terminal :: (ts' ++ [Punctuator.rightBracket.terminal]) ∧
      Derives (.expression .assignment) h ts' property

theorem reads_property (hn : n.Sound depth) : (property n).Reads depth propertyLanguage := by
  refine reads_lookahead_bind (fun t _ => ?_) ?_
  · split
    · refine ((Reads.after (Punctuator.sole_terminal .dot) reads_identifier.map).restrict).mono ?_
      rintro h ts _ ⟨ts', rfl, id, rfl, hid⟩
      exact .inl ⟨ts', id, rfl, rfl, rfl, hid⟩
    · refine ((Reads.between (Punctuator.sole_terminal .leftBracket)
        (Punctuator.sole_terminal .rightBracket) hn.expression).restrict).mono ?_
      rintro h ts _ ⟨ts', e, rfl, rfl, he⟩
      exact .inr ⟨ts', rfl, rfl, he⟩
  · exact ⟨0, _, (false, _), .inl ⟨_, _, rfl, rfl, rfl, .identifier wellFormed_x⟩⟩

theorem derives_member_step {h h' : Nat} {ts ts' : List Terminal} {object : Expression}
    {property : Bool × Expression} (hobject : Derives (.expression .member) h ts object)
    (hproperty : propertyLanguage h' ts' property) :
    Derives (.expression .member) (max h h') (ts ++ ts')
      (.member property.1 object property.2) := by
  rcases property with ⟨computed, property⟩
  rcases hproperty with ⟨ts', id, rfl, rfl, rfl, hid⟩ | ⟨ts', rfl, rfl, hproperty⟩
  · exact .dotted hobject hid
  · exact .computed hobject hproperty

theorem reads_member (hn : n.Sound depth) :
    (member n).Reads depth (Derives (.expression .member)) := by
  refine ((reads_primary hn).bind fun object =>
    (reads_property hn).restrict.many.map).mono ?_
  rintro h ts _ ⟨h₁, h₂, ts₁, ts₂, object, rfl, rfl, hobject, properties, rfl, hproperties⟩
  exact Language.foldl_of_many derives_member_step (.bare hobject) hproperties

theorem reads_arguments (hn : n.Sound depth) :
    (arguments n).Reads depth (Derives .arguments) := by
  have hitems : (optional (· != Punctuator.rightParen) (commaSeparated n.expression)).Reads depth
      (Derives (.optional (.commaSeparated (.expression .assignment)))) :=
    reads_optional (.commaSeparated (.expression .assignment))
      (reads_commaSeparated (.expression .assignment) hn.expression)
  refine (Reads.between (Punctuator.sole_terminal .leftParen)
    (Punctuator.sole_terminal .rightParen) hitems).mono ?_
  rintro h ts _ ⟨ts', items, rfl, rfl, hitems⟩
  exact .arguments hitems

theorem reads_leftHandSide (hn : n.Sound depth) :
    (leftHandSide n).Reads depth (Derives (.expression .leftHandSide)) := by
  refine ((reads_member hn).bind fun callee =>
    (reads_arguments hn).restrict.many.map).mono ?_
  rintro h ts _ ⟨h₁, h₂, ts₁, ts₂, callee, rfl, rfl, hcallee, calls, rfl, hcalls⟩
  exact Language.foldl_of_many Derives.call (.uncalled hcallee) hcalls

theorem reads_unary (hn : n.Sound depth) :
    (unary n).Reads depth (Derives (.expression .unary)) := by
  refine reads_lookahead_bind (fun t _ => ?_) ⟨0, _, _, .unprefixed (.uncalled (.bare .this))⟩
  split
  · rename_i ht
    refine hn.operation.mono_starts fun kind hkind => ?_
    rwa [eq_of_beq hkind]
  · exact (reads_leftHandSide hn).restrict.mono .unprefixed

theorem mem_precedence {phrase tighter : Phrase} {kind : TokenKind}
    (hjoins : Phrase.Joins phrase kind tighter) : kind ∈ precedence := by
  cases hjoins <;> decide

theorem viable_expression (phrase : Phrase) :
    Language.Viable (Derives (.expression phrase)) [] := by
  have hprimary := Derives.this
  have hmember := Derives.bare hprimary
  have hleftHandSide := Derives.uncalled hmember
  have hunary := Derives.unprefixed hleftHandSide
  have hmultiplicative := Derives.operand .multiplicative hunary
  have hadditive := Derives.operand .additive hmultiplicative
  have hrelational := Derives.operand .relational hadditive
  have hequality := Derives.operand .equality hrelational
  have hlogicalAnd := Derives.operand .logicalAnd hequality
  have hlogicalOr := Derives.operand .logicalOr hlogicalAnd
  have hassignment := Derives.simple hlogicalOr
  cases phrase <;> exact ⟨_, _, _, by assumption⟩

theorem reads_rightOperand {kind : TokenKind} {phrase tighter : Phrase}
    {operand : Production Expression} (hjoins : Phrase.Joins phrase kind tighter)
    (hoperand : operand.Reads depth (Derives (.expression tighter))) :
    (rightOperand operand).ReadsFrom (· == kind) depth fun h ts right =>
      ∃ ts', ts = right.1.terminal :: ts' ∧ right.1.kind = kind ∧
        Derives (.expression tighter) h ts' right.2 := by
  have hconnective : ∀ {t : Terminal}, t.Genuine → t.kind = kind →
      ∃ connective : Connective, t = connective.terminal := by
    rintro t ht rfl
    exact exists_connective ht (mem_precedence hjoins)
  constructor
  case sound =>
    rintro stuck? input ⟨connective, right⟩ rest hkind hinput hok
    obtain ⟨token, middle, hadvance, hright, hspelled⟩ := rightOperand_eq_ok.mp hok
    rcases input with _ | ⟨token', input⟩
    · cases hjoins <;> cases hkind
    · obtain ⟨rfl, rfl⟩ := List.cons.inj (eq_cons_of_advance hadvance nofun)
      obtain ⟨h, read, hle, rfl, hread⟩ :=
        hoperand.sound rfl (fun t ht => hinput t (List.mem_cons_of_mem _ ht)) hright
      have hkind := eq_of_beq hkind
      obtain ⟨connective', rfl⟩ := hconnective (hinput _ List.mem_cons_self) hkind
      obtain rfl : connective = connective' :=
        Spelled.spelling_injective _ _ (Spelled.ofSpelling?_eq_some_iff.mp hspelled)
      exact ⟨h, connective.terminal :: read, hle, rfl, read, rfl, hkind, hread⟩
  case viable =>
    intro stuck? input objection unread hkind hinput herror hobjection
    rcases input with _ | ⟨token', input⟩
    · cases hjoins <;> cases hkind
    · have hkind := eq_of_beq hkind
      obtain ⟨connective, rfl⟩ := hconnective (hinput _ List.mem_cons_self) hkind
      rcases rightOperand_eq_error.mp herror with
        hadvance | ⟨token, middle, hadvance, hright | ⟨right, rest, -, hspelled, -⟩⟩
      · obtain ⟨character, -, heq⟩ := exists_of_advance_eq_error hadvance
        cases heq
        exact absurd hobjection id
      · obtain ⟨rfl, rfl⟩ := List.cons.inj (eq_cons_of_advance hadvance nofun)
        obtain ⟨read, rfl, ⟨h, more, right, hmore⟩, htarget⟩ :=
          hoperand.viable rfl (fun t ht => hinput t (List.mem_cons_of_mem _ ht)) hright hobjection
        exact ⟨connective.terminal :: read, rfl,
          ⟨h, more, (connective, right), read ++ more, rfl, hkind, hmore⟩, htarget⟩
      · obtain ⟨rfl, rfl⟩ := List.cons.inj (eq_cons_of_advance hadvance nofun)
        exact absurd rfl (Spelled.ofSpelling?_eq_none_iff.mp hspelled connective)
  case inhabited =>
    obtain ⟨h, more, right, hmore⟩ := viable_expression tighter
    have hkind : ∃ connective : Connective, connective.kind = kind := by
      cases hjoins with
      | logicalOr => exact ⟨.logical .or, rfl⟩
      | logicalAnd => exact ⟨.logical .and, rfl⟩
      | equality => exact ⟨.binary .equal, rfl⟩
      | relational => exact ⟨.binary .less, rfl⟩
      | additive => exact ⟨.binary .add, rfl⟩
      | multiplicative => exact ⟨.binary .multiply, rfl⟩
    obtain ⟨connective, hkind⟩ := hkind
    exact ⟨h, connective.terminal :: more, (connective, right), more, rfl, hkind, hmore⟩

theorem reads_leftAssociative {kind : TokenKind} {phrase tighter : Phrase}
    {operand : Production Expression} (hjoins : Phrase.Joins phrase kind tighter)
    (hoperand : operand.Reads depth (Derives (.expression tighter))) :
    (leftAssociative kind operand).Reads depth (Derives (.expression phrase)) := by
  rw [leftAssociative_eq]
  refine (hoperand.bind fun first => (reads_rightOperand hjoins hoperand).many.map).mono ?_
  rintro h ts _ ⟨h₁, h₂, ts₁, ts₂, first, rfl, rfl, hfirst, others, rfl, hothers⟩
  refine Language.foldl_of_many ?_ (Derives.operand hjoins hfirst) hothers
  rintro h ts left h' _ ⟨connective, right⟩ hleft ⟨ts', rfl, rfl, hright⟩
  exact .joined connective hjoins hleft hright

theorem reads_logicalOr (hn : n.Sound depth) :
    (logicalOr n).Reads depth (Derives (.expression .logicalOr)) :=
  reads_leftAssociative .logicalOr <| reads_leftAssociative .logicalAnd <|
    reads_leftAssociative .equality <| reads_leftAssociative .relational <|
      reads_leftAssociative .additive <| reads_leftAssociative .multiplicative <| reads_unary hn

/-- What may follow the left side of an assignment, which need not be one. -/
def restLanguage (left : Expression) : Language Expression := fun h ts e =>
  (h = 0 ∧ ts = [] ∧ e = left) ∨
  ∃ (operator : AssignmentOperator) (target : AssignmentTarget) (value : Expression)
    (ts' : List Terminal), left = target.toExpression ∧ ts = operator.terminal :: ts' ∧
      e = .assignment operator target value ∧ Derives (.expression .assignment) h ts' value

theorem reads_assignmentRest (hn : n.Sound depth) (left : Expression) :
    (assignmentRest n left).Reads depth (restLanguage left) := by
  have hleft : (restLanguage left).Viable [] := ⟨0, _, _, .inl ⟨rfl, rfl, rfl⟩⟩
  refine reads_lookahead_bind (fun t _ => ?_) hleft
  split
  · rename_i hassignment
    refine reads_judge_bind ?_ (fun _ => hn.expression.map) ?_ hleft
    · refine beq_eq_false_iff_ne.mpr fun hend => ?_
      rw [← hend] at hassignment
      cases hassignment
    · rintro t' ⟨operator, target⟩ h ts _ hkind ht' hcheck ⟨value, rfl, hvalue⟩
      obtain ⟨hspelling, rfl⟩ := assignmentTo_eq_ok.mp hcheck
      obtain ⟨operator', rfl⟩ : ∃ operator' : AssignmentOperator, t' = operator'.terminal := by
        have hform := ht'.form
        rw [← eq_of_beq hkind] at hassignment
        generalize t'.kind = kind at hassignment hform
        cases kind <;> first | exact hform | cases hassignment
      obtain rfl : operator = operator' := Spelled.spelling_injective _ _ hspelling
      exact .inr ⟨operator, target, value, ts, rfl, rfl, rfl, hvalue⟩
  · refine (reads_pure left).restrict.mono ?_
    rintro h ts _ ⟨rfl, rfl, rfl⟩
    exact .inl ⟨rfl, rfl, rfl⟩

theorem reads_assignment (hn : n.Sound depth) :
    (assignment n).Reads depth (Language.raised (Derives (.expression .assignment))) := by
  rw [assignment_eq]
  refine ((reads_logicalOr hn).bind (reads_assignmentRest hn)).mono ?_
  rintro h ts e ⟨h₁, h₂, ts₁, ts₂, left, rfl, rfl, hleft,
    ⟨rfl, rfl, rfl⟩ | ⟨operator, target, value, ts', rfl, rfl, rfl, hvalue⟩⟩
  · rw [Nat.max_zero, List.append_nil]
    exact .simple hleft
  · exact .assigned operator hleft hvalue

theorem reads_operation (hn : n.Sound depth) :
    (operation n).ReadsFrom startsOperation depth
      (Language.raised (Derives (.expression .unary))) := by
  rw [operation_eq]
  refine reads_judge_bind rfl (fun _ => (reads_unary hn).map) ?_ ?_
  · rintro t operator h ts _ hkind ht hcheck ⟨argument, rfl, hargument⟩
    obtain ⟨operator', rfl⟩ : ∃ operator' : UnaryOperator, t = operator'.terminal := by
      have hform := ht.form
      generalize t.kind = kind at hkind hform
      cases kind with
      | additiveOperator => exact hform.2
      | logicalNot => exact hform
      | _ => cases hkind
    obtain rfl : operator = operator' := Spelled.spelling_injective _ _ (prefixOf_eq_ok.mp hcheck)
    exact .prefixed operator hargument
  · exact ⟨0, _, _, .prefixed .not (.unprefixed (.uncalled (.bare .this)))⟩

theorem reads_construction (hn : n.Sound depth) :
    (construction n).Reads depth (Language.raised (Derives (.expression .primary))) := by
  refine (Reads.after (Keyword.sole_terminal .new_) ((reads_member hn).bind fun callee =>
    (reads_arguments hn).map)).mono ?_
  rintro h ts _ ⟨_, rfl, h₁, h₂, ts₁, ts₂, callee, rfl, rfl, hcallee, arguments, rfl, harguments⟩
  exact .new hcallee harguments

theorem reads_block (hn : n.Sound depth) : (block n).Reads depth (Derives .block) := by
  have hbody : (statements n Punctuator.rightBrace).Reads depth (Derives (.many .statement)) :=
    reads_many .statement hn.statement
  refine (Reads.between (f := id) (Punctuator.sole_terminal .leftBrace)
    (Punctuator.sole_terminal .rightBrace) hbody).mono ?_
  rintro h ts _ ⟨ts', body, rfl, rfl, hbody⟩
  exact .block hbody

theorem reads_variableDeclaration (hn : n.Sound depth) :
    (variableDeclaration n).Reads depth (Derives .declaration) := by
  have hinit : (skip .simpleAssign >>= fun _ => n.expression).Reads depth
      (Derives .initializer) := by
    refine (Reads.after AssignmentOperator.sole_terminal_assign hn.expression).mono ?_
    rintro h ts e ⟨ts', rfl, he⟩
    exact .initializer he
  refine (reads_identifier.bind fun id => (reads_optional .initializer hinit).map).mono ?_
  rintro h ts _ ⟨h₁, h₂, ts₁, ts₂, id, rfl, rfl, hid, init, rfl, hinit⟩
  exact .declaration hid hinit

theorem reads_variableStatement (hn : n.Sound depth) :
    (variableStatement n).Reads depth (Language.raised (Derives .statement)) := by
  refine (Reads.between (Keyword.sole_terminal .let_) (Punctuator.sole_terminal .semicolon)
    (reads_commaSeparated .declaration (reads_variableDeclaration hn))).mono ?_
  rintro h ts _ ⟨ts', declarations, rfl, rfl, hdeclarations⟩
  exact .variables hdeclarations

theorem reads_forInit (hn : n.Sound depth) : (forInit n).Reads depth (Derives .forInit) := by
  refine reads_lookahead_bind (fun t _ => ?_) ?_
  · split
    · refine ((Reads.after (Keyword.sole_terminal .let_) (reads_commaSeparated .declaration
        (reads_variableDeclaration hn)).map).restrict).mono ?_
      rintro h ts _ ⟨ts', rfl, declarations, rfl, hdeclarations⟩
      exact .forVariables hdeclarations
    · refine hn.expression.map.restrict.mono ?_
      rintro h ts _ ⟨e, rfl, he⟩
      exact .forExpression he
  · obtain ⟨h, more, e, he⟩ := viable_expression .assignment
    exact ⟨h, more, .expression e, .forExpression he⟩

/-- What may follow the consequent of an `if`: an `else` only if it belongs to none within. -/
def alternateLanguage (consequent : Statement) : Language (Option Statement) :=
  fun h ts alternate =>
    (h = 0 ∧ ts = [] ∧ alternate = none) ∨
    ∃ (s : Statement) (ts' : List Terminal), consequent.endsOpen = false ∧ alternate = some s ∧
      ts = Keyword.else_.terminal :: ts' ∧ Derives .statement h ts' s

theorem reads_alternate (hn : n.Sound depth) (consequent : Statement) :
    (optional (· == Keyword.else_) (skip Keyword.else_ >>= fun _ => n.statement)).ReadsFrom
      (fun kind => !(consequent.endsOpen && kind == Keyword.else_)) depth
      (alternateLanguage consequent) := by
  cases hopen : consequent.endsOpen with
  | true =>
      refine reads_lookahead_bind (fun t ht => ?_) ⟨0, [], none, .inl ⟨rfl, rfl, rfl⟩⟩
      split
      · rename_i hkind
        simp [hkind] at ht
      · refine (reads_pure none).restrict.mono ?_
        rintro h ts _ ⟨rfl, rfl, rfl⟩
        exact .inl ⟨rfl, rfl, rfl⟩
  | false =>
      have hstatement := Reads.after (p := fun _ => n.statement) (Keyword.sole_terminal .else_)
        hn.statement
      refine (hstatement.restrict.optional.restrict).mono ?_
      intro h ts alternate halternate
      cases alternate with
      | none => exact .inl ⟨halternate.1, halternate.2, rfl⟩
      | some s =>
          obtain ⟨ts', rfl, hs⟩ := halternate
          exact .inr ⟨s, ts', hopen, rfl, rfl, hs⟩

theorem reads_conditional (hn : n.Sound depth) :
    (conditional n).Reads depth (Language.raised (Derives .statement)) := by
  have hfollows : n.statement.Ensures fun consequent kind =>
      !(consequent.endsOpen && kind == Keyword.else_) := by
    refine hn.closes.mono fun s kind hcloses => ?_
    cases hopen : s.endsOpen with
    | true => simpa [hopen] using hcloses
    | false => simp
  refine (Reads.after (Keyword.sole_terminal .if_) ((reads_parenthesized hn).bind fun test =>
    hn.statement.bind_from hfollows fun consequent =>
      (reads_alternate hn consequent).map)).mono ?_
  rintro h ts _ ⟨_, rfl, h₁, _, _, _, test, rfl, rfl, ⟨ts₁, rfl, htest⟩, h₂, h₃, ts₂, ts₃,
    consequent, rfl, rfl, hconsequent, alternate, rfl,
    ⟨rfl, rfl, rfl⟩ | ⟨s, ts₄, hclosed, rfl, rfl, hs⟩⟩
  · simpa [Language.raised] using Derives.conditional htest hconsequent
  · simpa [Language.raised] using Derives.conditionalElse htest hconsequent hclosed hs

theorem reads_whileLoop (hn : n.Sound depth) :
    (whileLoop n).Reads depth (Language.raised (Derives .statement)) := by
  refine (Reads.after (Keyword.sole_terminal .while_) ((reads_parenthesized hn).bind fun test =>
    hn.statement.map)).mono ?_
  rintro h ts _ ⟨_, rfl, h₁, h₂, _, ts₂, test, rfl, rfl, ⟨ts₁, rfl, htest⟩, body, rfl, hbody⟩
  simpa [Language.raised] using Derives.whileLoop htest hbody

theorem reads_doWhileLoop (hn : n.Sound depth) :
    (doWhileLoop n).Reads depth (Language.raised (Derives .statement)) := by
  refine (Reads.after (Keyword.sole_terminal .do_) (hn.statement.bind fun body =>
    Reads.after (Keyword.sole_terminal .while_) ((reads_parenthesized hn).bind fun test =>
      Reads.after (Punctuator.sole_terminal .semicolon)
        (reads_pure (Statement.doWhileLoop body test))))).mono ?_
  rintro h ts _ ⟨_, rfl, h₁, _, ts₁, _, body, rfl, rfl, hbody, _, rfl, h₂, _, _, _, test, rfl, rfl,
    ⟨ts₂, rfl, htest⟩, _, rfl, rfl, rfl, rfl⟩
  simpa [Language.raised] using Derives.doWhileLoop hbody htest

theorem reads_forLoop (hn : n.Sound depth) :
    (forLoop n).Reads depth (Language.raised (Derives .statement)) := by
  have hinit : (optional (· != Punctuator.semicolon) (forInit n)).Reads depth
      (Derives (.optional .forInit)) := reads_optional .forInit (reads_forInit hn)
  have htest : (optional (· != Punctuator.semicolon) n.expression).Reads depth
      (Derives (.optional (.expression .assignment))) :=
    reads_optional (.expression .assignment) hn.expression
  have hupdate : (optional (· != Punctuator.rightParen) n.expression).Reads depth
      (Derives (.optional (.expression .assignment))) :=
    reads_optional (.expression .assignment) hn.expression
  refine (Reads.after (Keyword.sole_terminal .for_) <|
    Reads.after (Punctuator.sole_terminal .leftParen) <| hinit.bind fun init =>
    Reads.after (Punctuator.sole_terminal .semicolon) <| htest.bind fun test =>
    Reads.after (Punctuator.sole_terminal .semicolon) <| hupdate.bind fun update =>
    Reads.after (Punctuator.sole_terminal .rightParen) hn.statement.map).mono ?_
  rintro h ts _ ⟨_, rfl, _, rfl, h₁, _, ts₁, _, init, rfl, rfl, hinit, _, rfl, h₂, _, ts₂, _, test,
    rfl, rfl, htest, _, rfl, h₃, h₄, ts₃, _, update, rfl, rfl, hupdate, ts₄, rfl, body, rfl, hbody⟩
  simpa [Language.raised, Nat.max_assoc] using Derives.forLoop hinit htest hupdate hbody

theorem reads_functionDeclaration (hn : n.Sound depth) :
    (functionDeclaration n).Reads depth (Language.raised (Derives .statement)) := by
  have hparameters : (optional (· != Punctuator.rightParen) (commaSeparated identifier)).Reads
      depth (Derives (.optional (.commaSeparated .identifier))) :=
    reads_optional (.commaSeparated .identifier) (reads_commaSeparated .identifier reads_identifier)
  refine (Reads.after (Keyword.sole_terminal .def_) <| reads_identifier.bind fun name =>
    Reads.after (Punctuator.sole_terminal .leftParen) <| hparameters.bind fun parameters =>
    Reads.after (Punctuator.sole_terminal .rightParen) (reads_block hn).map).mono ?_
  rintro h ts _ ⟨_, rfl, h₁, _, ts₁, _, name, rfl, rfl, hname, _, rfl, h₂, h₃, ts₂, _, parameters,
    rfl, rfl, hparameters, ts₃, rfl, body, rfl, hbody⟩
  exact .functionDeclaration hname hparameters hbody

theorem reads_returnStatement (hn : n.Sound depth) :
    (returnStatement n).Reads depth (Language.raised (Derives .statement)) := by
  have hargument : (optional (· != Punctuator.semicolon) n.expression).Reads depth
      (Derives (.optional (.expression .assignment))) :=
    reads_optional (.expression .assignment) hn.expression
  refine (Reads.between (Keyword.sole_terminal .return_) (Punctuator.sole_terminal .semicolon)
    hargument).mono ?_
  rintro h ts _ ⟨ts', argument, rfl, rfl, hargument⟩
  exact .returnStatement hargument

theorem reads_classDeclaration (hn : n.Sound depth) :
    (classDeclaration n).Reads depth (Language.raised (Derives .statement)) := by
  have hsuperclass : (skip Keyword.extends_ >>= fun _ => identifier).Reads depth
      (Derives .superclass) := by
    refine (Reads.after (Keyword.sole_terminal .extends_) reads_identifier).mono ?_
    rintro h ts id ⟨ts', rfl, hid⟩
    exact .superclass hid
  refine (Reads.after (Keyword.sole_terminal .class_) <| reads_identifier.bind fun id =>
    (reads_optional .superclass hsuperclass).bind fun superclass => (reads_block hn).map).mono ?_
  rintro h ts _ ⟨_, rfl, h₁, _, ts₁, _, id, rfl, rfl, hid, h₂, h₃, ts₂, ts₃, superclass, rfl, rfl,
    hsuperclass, body, rfl, hbody⟩
  exact .classDeclaration hid hsuperclass hbody

theorem reads_expressionStatement (hn : n.Sound depth) :
    (expressionStatement n).Reads depth (Language.raised (Derives .statement)) := by
  refine (hn.expression.bind fun e => Reads.after (Punctuator.sole_terminal .semicolon)
    (reads_pure (Statement.expression e))).mono ?_
  rintro h ts _ ⟨h₁, _, ts₁, _, e, rfl, rfl, he, _, rfl, rfl, rfl, rfl⟩
  exact .expressionStatement (by rwa [Nat.max_zero])

theorem reads_statement (hn : n.Sound depth) :
    (statement n).Reads depth (Language.raised (Derives .statement)) := by
  refine reads_lookahead_bind (fun t _ => ?_) ⟨0, _, _, .empty⟩
  split
  · have hempty : (skip Punctuator.semicolon >>= fun _ => pure Statement.empty).Reads depth _ :=
      Reads.after (Punctuator.sole_terminal .semicolon) (reads_pure _)
    refine hempty.restrict.mono ?_
    rintro h ts _ ⟨_, rfl, rfl, rfl, rfl⟩
    exact .empty
  · refine (reads_block hn).map.restrict.mono ?_
    rintro h ts _ ⟨body, rfl, hbody⟩
    exact .blockStatement hbody
  · exact (reads_variableStatement hn).restrict
  · exact (reads_conditional hn).restrict
  · exact (reads_whileLoop hn).restrict
  · exact (reads_doWhileLoop hn).restrict
  · exact (reads_forLoop hn).restrict
  · exact (reads_functionDeclaration hn).restrict
  · exact (reads_returnStatement hn).restrict
  · exact (reads_classDeclaration hn).restrict
  · exact (reads_expressionStatement hn).restrict

theorem closes_conditional (hn : n.Sound depth) :
    (conditional n).Ensures fun s kind => s.endsOpen → kind ≠ Keyword.else_ := by
  refine .bind fun _ => .bind fun test => .bind fun consequent => .map (.optional ?_ ?_)
  · exact .bind fun _ => hn.closes.mono fun s kind hcloses hopen =>
      hcloses (by simpa [Statement.endsOpen] using hopen)
  · rintro kind hkind -
    simpa using hkind

theorem closes_statement (hn : n.Sound depth) :
    (statement n).Ensures fun s kind => s.endsOpen → kind ≠ Keyword.else_ := by
  refine .bind fun t => ?_
  split
  · exact .bind fun _ => .of_pure nofun
  · exact .bind fun _ => .of_pure nofun
  · exact .bind fun _ => .bind fun _ => .bind fun _ => .of_pure nofun
  · exact closes_conditional hn
  · exact .bind fun _ => .bind fun _ => .map (hn.closes.mono fun s kind hcloses hopen =>
      hcloses (by simpa [Statement.endsOpen] using hopen))
  · exact .bind fun _ => .bind fun _ => .bind fun _ => .bind fun _ => .bind fun _ => .of_pure nofun
  · exact .bind fun _ => .bind fun _ => .bind fun _ => .bind fun _ => .bind fun _ => .bind fun _ =>
      .bind fun _ => .bind fun _ => .map (hn.closes.mono fun s kind hcloses hopen =>
        hcloses (by simpa [Statement.endsOpen] using hopen))
  · exact .bind fun _ => .bind fun _ => .bind fun _ => .bind fun _ => .bind fun _ => .bind fun _ =>
      .of_pure nofun
  · exact .bind fun _ => .bind fun _ => .bind fun _ => .of_pure nofun
  · exact .bind fun _ => .bind fun _ => .bind fun _ => .bind fun _ => .of_pure nofun
  · exact .bind fun _ => .bind fun _ => .of_pure nofun

end Grammar

namespace Nested

open Descent (optional)
open Production Grammar

theorem reads_tooDeep {α : Type} {L : Language α} {depth limit : Nat} (hL : L.Viable []) :
    (object (.nesting limit) : Production α).Reads depth L :=
  reads_object hL _ nofun

/-- With `depth` levels to open the productions read what nests no deeper. -/
theorem sound_within (limit depth : Nat) : (within limit depth).Sound depth := by
  induction depth with
  | zero =>
      exact
        { statement := reads_tooDeep ⟨1, _, _, .empty⟩
          closes := ⟨nofun⟩
          expression := reads_tooDeep (viable_expression _)
          operation := (reads_tooDeep (viable_expression _)).restrict
          construction := reads_tooDeep (viable_expression _) }
  | succ depth ih =>
      exact
        { statement := (reads_statement ih).raise
          closes := closes_statement ih
          expression := (reads_assignment ih).raise
          operation := (reads_operation ih).raise
          construction := (reads_construction ih).raise }

end Nested

theorem Grammar.reads_program (limit : Nat) :
    (Grammar.program limit).Reads limit
      (Language.map Program.mk (Derives (.many .statement))) :=
  (Grammar.reads_many .statement (Nested.sound_within limit limit).statement).map

end Letter
