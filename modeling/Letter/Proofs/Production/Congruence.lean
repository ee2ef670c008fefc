import Letter.Proofs.Descent.Simulation
import Letter.Proofs.Grammar.Judgement

/-!
Relations between productions that the whole grammar respects. What holds of the primitive
productions and is kept by sequence and repetition holds of every production of the grammar as
soon as it holds of the productions one nesting level further in.
-/

namespace Letter

open Production Grammar

/-- A relation that primitive productions bear to themselves and that sequence and repetition
keep. Only steady productions are related. -/
structure Congruence (R : {α : Type} → Production α → Production α → Prop) : Prop where
  steady_left : ∀ {α : Type} {p p' : Production α}, R p p' → p.Steady
  steady_right : ∀ {α : Type} {p p' : Production α}, R p p' → p'.Steady
  pure : ∀ {α : Type} (a : α), R (pure a) (pure a)
  bind : ∀ {α β : Type} {p p' : Production α} {f f' : α → Production β},
    R p p' → (∀ a, R (f a) (f' a)) → R (p >>= f) (p' >>= f')
  lookahead : R lookahead lookahead
  advance : R advance advance
  object : ∀ {α : Type} {objection : Objection}, objection.IsSyntactic →
    R (object objection : Production α) (object objection)
  judge : ∀ {α : Type} {check : Terminal → Except Objection α},
    (∀ {t objection}, check t = .error objection → objection.IsLate) →
      R (judge check) (judge check)
  operands : ∀ {kind : TokenKind} {operand operand' : Production Expression},
    kind ∈ precedence → R operand operand' → operand.Progresses → operand'.Progresses →
      R (many (· == kind) (rightOperand operand)) (many (· == kind) (rightOperand operand'))
  many : ∀ {α : Type} {starts : TokenKind → Bool} {item item' : Production α},
    starts .endOfInput = false → R item item' → item.Progresses → item'.Progresses →
      R (many starts item) (many starts item')

/-- Related productions that read at least one terminal. -/
structure Strict (R : {α : Type} → Production α → Production α → Prop) {α : Type}
    (p p' : Production α) : Prop where
  related : R p p'
  progresses_left : p.Progresses
  progresses_right : p'.Progresses

theorem Strict.object {R : {α : Type} → Production α → Production α → Prop} {α : Type}
    {objection : Objection} (h : R (object objection : Production α) (object objection)) :
    Strict R (Production.object objection : Production α) (Production.object objection) :=
  ⟨h, progresses_object _, progresses_object _⟩

/-- The productions of two levels are related one by one. -/
structure Nested.Related (R : {α : Type} → Production α → Production α → Prop)
    (n n' : Nested) : Prop where
  statement : Strict R n.statement n'.statement
  expression : Strict R n.expression n'.expression
  operation : Strict R n.operation n'.operation
  construction : Strict R n.construction n'.construction

theorem Nested.Related.opening {R : {α : Type} → Production α → Production α → Prop} {n n' : Nested}
    (hn : n.Related R n') (o : Opening) : Strict R (n.opening o) (n'.opening o) := by
  cases o with
  | statement => exact hn.statement
  | expression => exact hn.expression
  | operation => exact hn.operation
  | construction => exact hn.construction

namespace Congruence

variable {R : {α : Type} → Production α → Production α → Prop} {n n' : Nested} {α β : Type}

theorem strict_bind (hR : Congruence R) {p p' : Production α} {f f' : α → Production β}
    (hp : Strict R p p') (hf : ∀ a, R (f a) (f' a)) : Strict R (p >>= f) (p' >>= f') where
  related := hR.bind hp.related hf
  progresses_left := hp.progresses_left.bind_steady fun a => hR.steady_left (hf a)
  progresses_right := hp.progresses_right.bind_steady fun a => hR.steady_right (hf a)

theorem bind_strict (hR : Congruence R) {p p' : Production α} {f f' : α → Production β}
    (hp : R p p') (hf : ∀ a, Strict R (f a) (f' a)) : Strict R (p >>= f) (p' >>= f') where
  related := hR.bind hp fun a => (hf a).related
  progresses_left := (hR.steady_left hp).bind_progresses fun a => (hf a).progresses_left
  progresses_right := (hR.steady_right hp).bind_progresses fun a => (hf a).progresses_right

theorem expect (hR : Congruence R) {kind : TokenKind} (hkind : kind ≠ .endOfInput) :
    Strict R (expect kind) (expect kind) where
  related := hR.bind hR.lookahead fun t => by
    split
    · exact hR.advance
    · exact hR.object trivial
  progresses_left := progresses_expect hkind
  progresses_right := progresses_expect hkind

theorem skip (hR : Congruence R) {kind : TokenKind} (hkind : kind ≠ .endOfInput) :
    Strict R (skip kind) (skip kind) :=
  hR.strict_bind (hR.expect hkind) fun _ => hR.pure _

theorem commaSeparated (hR : Congruence R) {item item' : Production α}
    (h : Strict R item item') : Strict R (commaSeparated item) (commaSeparated item') := by
  have hnext := hR.strict_bind (hR.skip (show (Punctuator.comma : TokenKind) ≠ _ by decide))
    fun _ => h.related
  exact hR.strict_bind h fun first =>
    hR.bind (hR.many rfl hnext.related hnext.progresses_left hnext.progresses_right)
      fun others => hR.pure _

theorem identifier (hR : Congruence R) : Strict R identifier identifier :=
  hR.strict_bind (hR.expect (by decide)) fun _ => hR.pure _

/-- What is related, with at least one terminal read where that is said. -/
def Relates (R : {α : Type} → Production α → Production α → Prop) {α : Type} :
    (reads : Bool) → (starts : TokenKind → Prop) → Production α → Production α → Prop
  | true, _ => Strict R
  | false, _ => R

theorem strict_judge (hR : Congruence R) {check : Terminal → Except Objection α}
    (hlate : ∀ {t objection}, check t = .error objection → objection.IsLate)
    (hend : ∀ {a}, check .endOfInput ≠ .ok a) :
    Strict R (Production.judge check) (Production.judge check) :=
  ⟨hR.judge hlate, progresses_judge hend, progresses_judge hend⟩

theorem simulation (hR : Congruence R) :
    Descent.Simulation Production Production (Relates R) where
  mono {_ reads _ _ _ _} h _ := by cases reads <;> exact h
  of_reads h := h.related
  pure := hR.pure
  bind {_ _ reads _ _ _ _ _} hp hf := by
    cases reads with
    | true => exact hR.strict_bind hp hf
    | false => exact hR.bind hp hf
  lookahead_bind {_ reads _ _ _} hf := by
    cases reads with
    | true => exact hR.bind_strict hR.lookahead hf
    | false => exact hR.bind hR.lookahead hf
  next hkind := hR.skip hkind
  skip hkind := hR.skip hkind
  identifier := hR.identifier
  literal := by
    change Strict R Grammar.literal Grammar.literal
    rw [literal_eq]
    exact hR.strict_judge literalOf_late nofun
  prefixOperator := by
    change Strict R Grammar.prefixOperator Grammar.prefixOperator
    rw [prefixOperator_eq]
    exact hR.strict_judge prefixOf_late nofun
  assignmentOperator left := by
    change Strict R (Grammar.assignmentOperator left) (Grammar.assignmentOperator left)
    rw [assignmentOperator_eq]
    exact hR.strict_judge assignmentTo_late nofun
  noAlternative := .object (hR.object trivial)
  operands hkind h := hR.operands hkind h.related h.progresses_left h.progresses_right
  many hend h := hR.many hend h.related h.progresses_left h.progresses_right
  commaSeparated h := hR.commaSeparated h

theorem production (hR : Congruence R) (hn : n.Related R n') (q : Procedure) :
    Relates R (!q.isList) q.Ahead (q.production n) (q.production n') := by
  -- by induction on the rank, which is smaller for every call that opens no level
  induction hrank : q.rank using Nat.strongRecOn generalizing q with
  | ind rank ih =>
      subst hrank
      rw [← q.body_production n, ← q.body_production n']
      exact hR.simulation.body _ _ (fun q' hlt => ih q'.rank hlt q' rfl) hn.opening

theorem strict_production (hR : Congruence R) (hn : n.Related R n') (q : Procedure)
    (hq : q.isList = false) : Strict R (q.production n) (q.production n') := by
  have hproduction := hR.production hn q
  rw [hq] at hproduction
  exact hproduction

theorem property (hR : Congruence R) (hn : n.Related R n') :
    Strict R (Grammar.property n) (Grammar.property n') := by
  have hproperty : Relates R true (fun _ => True) (Grammar.property n) (Grammar.property n') :=
    hR.simulation.property hR.simulation.identifier hn.expression
  exact hproperty

theorem statements (hR : Congruence R) (hn : n.Related R n') (stop : TokenKind) :
    R (statements n stop) (statements n' stop) :=
  hR.production hn (.statements stop)

theorem within (hR : Congruence R) {limit limit' spare : Nat}
    (hinnermost : (Nested.tooDeep limit).Related R (.within limit' spare)) (depth : Nat) :
    (Nested.within limit depth).Related R (.within limit' (depth + spare)) := by
  induction depth with
  | zero =>
      rw [Nat.zero_add]
      exact hinnermost
  | succ depth ih =>
      rw [Nat.add_right_comm]
      exact ⟨hR.strict_production ih .statementKind rfl,
        hR.strict_production ih .assignmentKind rfl, hR.strict_production ih .operation rfl,
        hR.strict_production ih .construction rfl⟩

theorem within_self (hR : Congruence R) {limit : Nat}
    (hobject : ∀ {α : Type}, R (Production.object (.nesting limit) : Production α)
      (Production.object (.nesting limit))) (depth : Nat) :
    (Nested.within limit depth).Related R (.within limit depth) := by
  have hinnermost : (Nested.tooDeep limit).Related R (.within limit 0) :=
    ⟨.object hobject, .object hobject, .object hobject, .object hobject⟩
  exact hR.within hinnermost depth

end Congruence

theorem congruence_steady : Congruence fun p p' => p.Steady ∧ p'.Steady where
  steady_left h := h.1
  steady_right h := h.2
  pure a := ⟨steady_pure a, steady_pure a⟩
  bind hp hf := ⟨hp.1.bind fun a => (hf a).1, hp.2.bind fun a => (hf a).2⟩
  lookahead := ⟨steady_lookahead, steady_lookahead⟩
  advance := ⟨steady_advance, steady_advance⟩
  object h := ⟨steady_object h.ne_lexical, steady_object h.ne_lexical⟩
  judge h := ⟨steady_judge h, steady_judge h⟩
  many _ h _ _ := ⟨h.1.many, h.2.many⟩
  operands _ h _ _ := ⟨h.1.rightOperand.many, h.2.rightOperand.many⟩

/-- Productions that are steady, and read at least one terminal. -/
abbrev Nested.Orderly (n : Nested) : Prop :=
  n.Related (fun p p' => p.Steady ∧ p'.Steady) n

/-- At every depth the productions are steady and read at least one terminal. -/
theorem Nested.within_related_steady (limit depth : Nat) : (Nested.within limit depth).Orderly :=
  congruence_steady.within_self ⟨steady_object nofun, steady_object nofun⟩ depth

end Letter
