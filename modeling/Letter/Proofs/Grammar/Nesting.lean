import Letter.Grammar.Program
import Letter.Proofs.Grammar.Judgement
import Letter.Proofs.Production.Sparing

namespace Letter

open Descent (optional)
open Production Grammar

/-- Where there is room for expressions of fewer than `room` terminals. A statement can begin with
an expression, which takes one level more; operators and `new` are terminals themselves. -/
structure Nested.Spares (n : Nested) (room : Nat) : Prop where
  statement : n.statement.Spares (room - 1)
  expression : n.expression.Spares room
  operation : n.operation.SparesFrom startsOperation (room + 1)
  construction : n.construction.SparesFrom (· == Keyword.new_) (room + 1)

namespace Grammar

variable {n : Nested} {room : Nat}

theorem spares_identifier : identifier.Spares room :=
  (spares_expect _).map

theorem spares_literal {starts : TokenKind → Bool} : literal.SparesFrom starts room := by
  rw [literal_eq]
  exact spares_judge literalOf_late

theorem spares_parenthesized (hn : n.Spares room) : (parenthesized n).Spares (room + 1) :=
  spares_between (by decide) hn.expression

theorem spares_primary (hn : n.Spares room) : (primary n).Spares (room + 1) := by
  refine spares_lookahead_bind fun t => ?_
  split
  · exact spares_literal
  · exact spares_literal
  · exact spares_literal
  · exact spares_literal
  · exact spares_literal
  · exact (spares_parenthesized hn).restrict
  · exact spares_identifier.map.restrict
  · exact (spares_skip _).map.restrict
  · exact (spares_skip _).map.restrict
  · rename_i hnew
    refine hn.construction.mono_starts fun kind hkind => ?_
    rw [eq_of_beq hkind, hnew]
    rfl
  · exact spares_object trivial

theorem spares_property (hn : n.Spares room) : (property n).Spares (room + 1) := by
  refine spares_lookahead_bind fun t => SparesFrom.restrict ?_
  split
  · exact spares_after (by decide) spares_identifier.map
  · exact spares_between (by decide) hn.expression

theorem spares_member (hn : n.Spares room) : (member n).Spares (room + 1) :=
  (spares_primary hn).bind fun _ => ((spares_property hn).many _).map

theorem spares_arguments (hn : n.Spares room) : (arguments n).Spares (room + 1) :=
  spares_between (by decide) (hn.expression.commaSeparated.optional _)

theorem spares_leftHandSide (hn : n.Spares room) : (leftHandSide n).Spares (room + 1) :=
  (spares_member hn).bind fun _ => ((spares_arguments hn).many _).map

theorem spares_unary (hn : n.Spares room) : (unary n).Spares (room + 1) := by
  refine spares_lookahead_bind fun t => ?_
  split
  · rename_i hoperation
    exact hn.operation.mono_starts fun kind hkind => by rwa [eq_of_beq hkind]
  · exact (spares_leftHandSide hn).restrict

theorem spares_rightOperand {operand : Production Expression} (hoperand : operand.Spares room) :
    (rightOperand operand).Spares room where
  steady := hoperand.steady.rightOperand
  ne_nesting {_} {_} {_} {_} _ hlt herror := by
    rcases rightOperand_eq_error.mp herror with
      hadvance | ⟨token, middle, hadvance, hright | ⟨right, rest, -, -, heq⟩⟩
    · have hspares : advance.Spares room := spares_advance
      exact hspares.ne_nesting rfl hlt hadvance
    · have hle := (steady_advance.of_ok hadvance).length_le
      exact hoperand.ne_nesting rfl (Nat.lt_of_le_of_lt hle hlt) hright
    · cases heq

theorem spares_leftAssociative {kind : TokenKind} {operand : Production Expression}
    (hoperand : operand.Spares room) : (leftAssociative kind operand).Spares room :=
  hoperand.bind fun _ => ((spares_rightOperand hoperand).many _).map

theorem spares_operandsOf (hn : n.Spares room) (kinds : List TokenKind) :
    (kinds.foldr leftAssociative (unary n)).Spares (room + 1) := by
  induction kinds with
  | nil => exact spares_unary hn
  | cons kind kinds ih => exact spares_leftAssociative ih

theorem spares_assignment (hn : n.Spares room) : (assignment n).Spares (room + 1) := by
  rw [assignment_eq]
  refine (spares_operandsOf hn precedence).bind fun left => ?_
  refine spares_lookahead_bind fun t => SparesFrom.restrict ?_
  split
  · refine (spares_judge assignmentTo_late).bind_progresses (progresses_judge ?_)
      fun _ => hn.expression.map
    rintro ⟨operator, target⟩ h
    have hspelling : operator.spelling = "" := (assignmentTo_eq_ok.mp h).1
    cases operator <;> exact absurd hspelling (by decide)
  · exact spares_pure _

theorem spares_operation (hn : n.Spares room) : (operation n).Spares (room + 2) := by
  rw [operation_eq]
  refine (spares_judge prefixOf_late).bind_progresses (progresses_judge ?_)
    fun _ => (spares_unary hn).map
  intro operator h
  have hspelling : operator.spelling = "" := prefixOf_eq_ok.mp h
  cases operator <;> exact absurd hspelling (by decide)

theorem spares_construction (hn : n.Spares room) : (construction n).Spares (room + 2) :=
  spares_after (by decide) ((spares_member hn).bind fun _ => (spares_arguments hn).map)

theorem spares_block (hn : n.Spares room) : (block n).Spares room :=
  spares_between (by decide) (hn.statement.many _)

theorem spares_variableDeclaration (hn : n.Spares room) : (variableDeclaration n).Spares room :=
  have hinitializer : (skip .simpleAssign >>= fun _ => n.expression).Spares room :=
    (spares_skip _).bind fun _ => hn.expression
  spares_identifier.bind fun _ => (hinitializer.optional _).map

section Statements

variable (hn : n.Spares room)

include hn

theorem spares_test : (parenthesized n).Spares (room - 1) :=
  (spares_parenthesized hn).mono (by omega)

theorem spares_clause (starts : TokenKind → Bool) :
    (optional starts n.expression).Spares (room - 1) :=
  (hn.expression.optional starts).mono (Nat.sub_le _ _)

theorem spares_declarations : (commaSeparated (variableDeclaration n)).Spares (room - 1) :=
  (spares_variableDeclaration hn).commaSeparated.mono (Nat.sub_le _ _)

theorem spares_body : (block n).Spares (room - 1) :=
  (spares_block hn).mono (Nat.sub_le _ _)

theorem spares_conditional : (conditional n).Spares room := by
  have halternate : (skip Keyword.else_ >>= fun _ => n.statement).Spares (room - 1) :=
    (spares_skip _).bind fun _ => hn.statement
  apply spares_after (by decide)
  apply (spares_test hn).bind
  intro test
  apply hn.statement.bind
  intro consequent
  exact (halternate.optional _).map

theorem spares_whileLoop : (whileLoop n).Spares room :=
  spares_after (by decide) ((spares_test hn).bind fun _ => hn.statement.map)

theorem spares_doWhileLoop : (doWhileLoop n).Spares room := by
  apply spares_after (by decide)
  apply hn.statement.bind
  intro body
  apply (spares_skip _).bind
  intro _
  apply (spares_test hn).bind
  intro test
  exact (spares_skip _).map

theorem spares_forInit : (forInit n).Spares room := by
  refine spares_lookahead_bind fun t => SparesFrom.restrict ?_
  split
  · exact spares_after (by decide) (spares_declarations hn).map
  · exact hn.expression.map

theorem spares_forLoop : (forLoop n).Spares room := by
  have hinit : (optional (· != Punctuator.semicolon) (forInit n)).Spares (room - 1) :=
    ((spares_forInit hn).optional _).mono (Nat.sub_le _ _)
  apply spares_after (by decide)
  apply (spares_skip _).bind
  intro _
  apply hinit.bind
  intro init
  apply (spares_skip _).bind
  intro _
  apply (spares_clause hn _).bind
  intro test
  apply (spares_skip _).bind
  intro _
  apply (spares_clause hn _).bind
  intro update
  apply (spares_skip _).bind
  intro _
  exact hn.statement.map

theorem spares_functionDeclaration : (functionDeclaration n).Spares room := by
  apply spares_after (by decide)
  apply spares_identifier.bind
  intro name
  apply (spares_skip _).bind
  intro _
  apply (spares_identifier.commaSeparated.optional _).bind
  intro parameters
  apply (spares_skip _).bind
  intro _
  exact (spares_body hn).map

theorem spares_classDeclaration : (classDeclaration n).Spares room := by
  have hsuperclass : (skip Keyword.extends_ >>= fun _ => identifier).Spares (room - 1) :=
    (spares_skip _).bind fun _ => spares_identifier
  apply spares_after (by decide)
  apply spares_identifier.bind
  intro id
  apply (hsuperclass.optional _).bind
  intro superclass
  exact (spares_body hn).map

theorem spares_statement : (statement n).Spares room := by
  refine spares_lookahead_bind fun t => SparesFrom.restrict ?_
  split
  · exact (spares_skip _).map
  · exact (spares_block hn).map
  · exact spares_between (by decide) (spares_declarations hn)
  · exact spares_conditional hn
  · exact spares_whileLoop hn
  · exact spares_doWhileLoop hn
  · exact spares_forLoop hn
  · exact spares_functionDeclaration hn
  · exact spares_between (by decide) (spares_clause hn _)
  · exact spares_classDeclaration hn
  · exact hn.expression.bind fun _ => (spares_skip _).map

end Statements

end Grammar

/-- With `depth` levels to open there is room for expressions of fewer than `depth` terminals. -/
theorem Nested.spares_within (limit depth : Nat) : (Nested.within limit depth).Spares depth := by
  induction depth with
  | zero =>
      have hnothing {α : Type} {starts : TokenKind → Bool} (hend : starts .endOfInput = false) :
          (object (.nesting limit) : Production α).SparesFrom starts 1 :=
        ⟨steady_object nofun, fun {_ _ _ _} hstarts hlt => by
          obtain rfl := List.length_eq_zero_iff.mp (Nat.lt_one_iff.mp hlt)
          exact absurd hstarts (by simpa [Terminal.endOfInput] using hend)⟩
      have hnowhere {α : Type} : (object (.nesting limit) : Production α).Spares 0 :=
        ⟨steady_object nofun, fun _ hlt => absurd hlt (Nat.not_lt_zero _)⟩
      exact ⟨hnowhere, hnowhere, hnothing rfl, hnothing rfl⟩
  | succ depth ih =>
      exact
        { statement := spares_statement ih
          expression := spares_assignment ih
          operation := (spares_operation ih).restrict
          construction := (spares_construction ih).restrict }

theorem Grammar.spares_program {limit room : Nat} (hroom : room < limit) :
    (program limit).Spares room :=
  have hstatement : (Nested.within limit limit).statement.Spares room :=
    (Nested.spares_within limit limit).statement.mono (Nat.le_sub_one_of_lt hroom)
  (hstatement.many _).map

end Letter
