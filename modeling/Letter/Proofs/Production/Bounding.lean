import Letter.Proofs.Production.Congruence

namespace Letter

/-- A character at which no terminal can begin lies behind all terminals, and no other limit is
exceeded than the one that is set. -/
def Failure.IsBounded (limit : Nat) (failure : Failure) : Prop :=
  match failure.objection with
  | .lexical _ => failure.unread = []
  | .nesting limit' => limit' = limit
  | _ => True

theorem Failure.isBounded_of_isSyntactic {limit : Nat} {failure : Failure}
    (h : failure.objection.IsSyntactic) : failure.IsBounded limit := by
  obtain ⟨objection, unread⟩ := failure
  cases objection with
  | lexical character | nesting limit' => exact absurd h id
  | _ => trivial

namespace Production

variable {α β : Type} {limit : Nat}

structure Bounded (limit : Nat) (p : Production α) : Prop where
  steady : p.Steady
  of_error : ∀ {stuck? input failure}, p stuck? input = .error failure → failure.IsBounded limit

namespace Bounded

variable {p : Production α} {f : α → Production β}

theorem bind (hp : p.Bounded limit) (hf : ∀ a, (f a).Bounded limit) :
    (p >>= f).Bounded limit where
  steady := hp.steady.bind fun a => (hf a).steady
  of_error herror := by
    rcases bind_eq_error.mp herror with hfirst | ⟨a, middle, -, hsecond⟩
    · exact hp.of_error hfirst
    · exact (hf a).of_error hsecond

theorem manyWithin {starts : TokenKind → Bool} {item : Production α} (hitem : item.Bounded limit)
    (bound : List Terminal) : (manyWithin starts item bound).Bounded limit := by
  have hpure (items : List α) : (pure items : Production (List α)).Bounded limit :=
    ⟨steady_pure items, nofun⟩
  have hlookahead : lookahead.Bounded limit := ⟨steady_lookahead, nofun⟩
  induction bound with
  | nil => exact hpure []
  | cons t bound ih =>
      refine hlookahead.bind fun t => ?_
      split
      · exact hitem.bind fun first => ih.bind fun others => hpure _
      · exact hpure []

theorem many {starts : TokenKind → Bool} {item : Production α} (hitem : item.Bounded limit) :
    (many starts item).Bounded limit where
  steady := hitem.steady.many
  of_error herror := (hitem.manyWithin _).of_error herror

end Bounded

theorem bounded_pure (a : α) : (pure a : Production α).Bounded limit :=
  ⟨steady_pure a, nofun⟩

theorem bounded_advance : advance.Bounded limit where
  steady := steady_advance
  of_error herror := by
    obtain ⟨character, -, rfl⟩ := exists_of_advance_eq_error herror
    rfl

theorem bounded_object {objection : Objection} (h : objection.IsSyntactic) :
    (object objection : Production α).Bounded limit where
  steady := steady_object h.ne_lexical
  of_error herror := by
    cases herror
    exact Failure.isBounded_of_isSyntactic h

theorem bounded_judge {check : Terminal → Except Objection α}
    (hcheck : ∀ {t objection}, check t = .error objection → objection.IsLate) :
    (judge check).Bounded limit where
  steady := steady_judge hcheck
  of_error herror := by
    rcases judge_eq_error.mp herror with hadvance | ⟨t, rest, objection, -, ht, rfl⟩
    · exact bounded_advance.of_error hadvance
    · exact Failure.isBounded_of_isSyntactic (hcheck ht).isSyntactic

open Grammar in
theorem Bounded.rightOperand {operand : Production Expression} (hoperand : operand.Bounded limit) :
    (rightOperand operand).Bounded limit where
  steady := hoperand.steady.rightOperand
  of_error herror := by
    rcases rightOperand_eq_error.mp herror with
      hadvance | ⟨token, middle, -, hright | ⟨right, rest, -, -, rfl⟩⟩
    · exact bounded_advance.of_error hadvance
    · exact hoperand.of_error hright
    · trivial

end Production

open Production

theorem congruence_bounded {limit : Nat} :
    Congruence fun p p' => p.Bounded limit ∧ p'.Bounded limit where
  steady_left h := h.1.steady
  steady_right h := h.2.steady
  pure a := ⟨bounded_pure a, bounded_pure a⟩
  bind hp hf := ⟨hp.1.bind fun a => (hf a).1, hp.2.bind fun a => (hf a).2⟩
  lookahead := ⟨⟨steady_lookahead, nofun⟩, ⟨steady_lookahead, nofun⟩⟩
  advance := ⟨bounded_advance, bounded_advance⟩
  object h := ⟨bounded_object h, bounded_object h⟩
  judge h := ⟨bounded_judge h, bounded_judge h⟩
  many _ h _ _ := ⟨h.1.many, h.2.many⟩
  operands _ h _ _ := ⟨h.1.rightOperand.many, h.2.rightOperand.many⟩

theorem Nested.bounded_within (limit depth : Nat) :
    (Nested.within limit depth).Related (fun p p' => p.Bounded limit ∧ p'.Bounded limit)
      (.within limit depth) := by
  have hobject {α : Type} : (object (.nesting limit) : Production α).Bounded limit :=
    ⟨steady_object nofun, fun herror => by
      cases herror
      rfl⟩
  exact congruence_bounded.within_self ⟨hobject, hobject⟩ depth

theorem Grammar.bounded_program (limit : Nat) : (program limit).Bounded limit :=
  (congruence_bounded.statements (Nested.bounded_within limit limit) _).1.bind
    fun _ => bounded_pure _

end Letter
