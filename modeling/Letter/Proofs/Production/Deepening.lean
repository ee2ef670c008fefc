import Letter.Proofs.Production.Congruence

namespace Letter

/-- What is left unread behind a success or by a failure. -/
def Production.ending {α : Type} : Except Failure (α × List Terminal) → List Terminal
  | .ok (_, rest) => rest
  | .error failure => failure.unread

namespace Production

variable {α β : Type}

theorem Steady.ending_suffix {p : Production α} (hp : p.Steady) (stuck? : Option Char)
    (input : List Terminal) : ending (p stuck? input) <:+ input := by
  cases hresult : p stuck? input with
  | ok result => exact hp.of_ok hresult
  | error failure => exact hp.of_error hresult

/-- How a result can change with more levels to open. Behind an operand that has become possible,
the operator to its left is checked. -/
inductive Deepened : (result result' : Except Failure (α × List Terminal)) → Prop
  | same {result} : Deepened result result
  | further {limit unread result'} (hending : ending result' <:+ unread) :
      Deepened (.error ⟨.nesting limit, unread⟩) result'
  | fallback {result objection unread} (hobjection : objection ∈ Objection.fallbacks) :
      Deepened result (.error ⟨objection, unread⟩)

/-- The second production has more levels to open than the first. -/
structure Deepens (p p' : Production α) : Prop where
  steady_left : p.Steady
  steady_right : p'.Steady
  deepened : ∀ stuck? input, Deepened (p stuck? input) (p' stuck? input)

namespace Deepens

theorem refl {p : Production α} (hp : p.Steady) : Deepens p p :=
  ⟨hp, hp, fun _ _ => .same⟩

theorem object_nesting {p' : Production α} (hp' : p'.Steady) (limit : Nat) :
    Deepens (object (.nesting limit)) p' where
  steady_left := steady_object nofun
  steady_right := hp'
  deepened stuck? input := .further (hp'.ending_suffix stuck? input)

theorem bind {p p' : Production α} {f f' : α → Production β} (hp : Deepens p p')
    (hf : ∀ a, Deepens (f a) (f' a)) : Deepens (p >>= f) (p' >>= f') where
  steady_left := hp.steady_left.bind fun a => (hf a).steady_left
  steady_right := hp.steady_right.bind fun a => (hf a).steady_right
  deepened stuck? input := by
    have hfirst := hp.deepened stuck? input
    simp only [Bind.bind]
    generalize p stuck? input = result, p' stuck? input = result' at hfirst
    cases hfirst with
    | same =>
        cases result with
        | ok result => exact (hf result.1).deepened stuck? result.2
        | error failure => exact .same
    | further hending =>
        cases result' with
        | ok result' =>
            have hsecond := (hf result'.1).steady_right.ending_suffix stuck? result'.2
            exact .further (hsecond.trans hending)
        | error failure => exact .further hending
    | fallback hobjection => exact .fallback hobjection

variable {starts : TokenKind → Bool} {item item' : Production α}

theorem manyWithin (hitem : Deepens item item') (bound : List Terminal) :
    Deepens (manyWithin starts item bound) (manyWithin starts item' bound) := by
  induction bound with
  | nil => exact .refl (steady_pure _)
  | cons t bound ih =>
      refine (refl steady_lookahead).bind fun t => ?_
      split
      · exact hitem.bind fun first => ih.bind fun others => .refl (steady_pure _)
      · exact .refl (steady_pure _)

theorem many (hitem : Deepens item item') : Deepens (many starts item) (many starts item') where
  steady_left := hitem.steady_left.many
  steady_right := hitem.steady_right.many
  deepened stuck? input := (hitem.manyWithin input).deepened stuck? input

open Grammar in
theorem rightOperand {operand operand' : Production Expression}
    (hoperand : Deepens operand operand') :
    Deepens (rightOperand operand) (rightOperand operand') where
  steady_left := hoperand.steady_left.rightOperand
  steady_right := hoperand.steady_right.rightOperand
  deepened stuck? input := by
    cases hadvance : advance stuck? input with
    | error failure =>
        rw [rightOperand_eq_error.mpr (.inl hadvance), rightOperand_eq_error.mpr (.inl hadvance)]
        exact .same
    | ok result =>
        obtain ⟨token, middle⟩ := result
        have happly (operand : Production Expression) : Grammar.rightOperand operand stuck? input =
            (operand >>= fun right => require (Spelled.ofSpelling? token.lexeme) input
              (.expected "binary operator") >>= fun connective => pure (connective, right) :
                Production (Connective × Expression)) stuck? middle :=
          bind_of_eq_ok hadvance
        have hsecond := hoperand.deepened stuck? middle
        rw [happly, happly]
        simp only [Bind.bind]
        generalize operand stuck? middle = result, operand' stuck? middle = result' at hsecond
        cases hsecond with
        | same => exact .same
        | fallback hobjection => exact .fallback hobjection
        | further hending =>
            cases result' with
            | error failure => exact .further hending
            | ok result' =>
                cases (Spelled.ofSpelling? token.lexeme : Option Connective) with
                | none => exact .fallback (by decide)
                | some connective => exact .further hending

end Deepens

theorem congruence_deepens : Congruence Deepens where
  steady_left h := h.steady_left
  steady_right h := h.steady_right
  pure a := .refl (steady_pure a)
  bind hp hf := hp.bind hf
  lookahead := .refl steady_lookahead
  advance := .refl steady_advance
  object h := .refl (steady_object h.ne_lexical)
  judge h := .refl (steady_judge h)
  many _ h _ _ := h.many
  operands _ h _ _ := h.rightOperand.many

end Production

open Production

theorem Nested.deepens_within (limit limit' depth spare : Nat) :
    (Nested.within limit depth).Related Deepens (.within limit' (depth + spare)) := by
  have hsteady := within_related_steady limit' spare
  refine congruence_deepens.within ?_ depth
  have hinnermost {α : Type} {p : Production α}
      (hp : Strict (fun p p' => p.Steady ∧ p'.Steady) p p) :
      Strict Deepens (object (.nesting limit)) p :=
    ⟨.object_nesting hp.related.1 limit, progresses_object _, hp.progresses_left⟩
  exact ⟨hinnermost hsteady.statement, hinnermost hsteady.expression,
    hinnermost hsteady.operation, hinnermost hsteady.construction⟩

theorem Grammar.deepens_program (limit spare : Nat) :
    Deepens (program limit) (program (limit + spare)) :=
  (congruence_deepens.statements (Nested.deepens_within limit (limit + spare) limit spare) _).bind
    fun _ => .refl (steady_pure _)

end Letter
