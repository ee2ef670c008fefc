import Letter.Proofs.Production.Congruence

namespace Letter

namespace Descent

/-- A relation that holds of the steps of a reader and of the grammar. -/
structure Following (m : Type → Type) [Descent m]
    (R : {α : Type} → (starts : TokenKind → Prop) → m α → Production α → Prop) : Prop where
  mono : ∀ {α : Type} {starts starts' : TokenKind → Prop} {p : m α} {p' : Production α},
    R starts p p' → (∀ kind, starts' kind → starts kind) → R starts' p p'
  pure : ∀ {α : Type} {starts : TokenKind → Prop} (a : α), R starts (pure a) (pure a)
  bind : ∀ {α β : Type} {starts : TokenKind → Prop} {p : m α} {p' : Production α} {f : α → m β}
    {f' : α → Production β}, R starts p p' → (∀ a, R (fun _ => True) (f a) (f' a)) →
      R starts (p >>= f) (p' >>= f')
  lookahead_bind : ∀ {α : Type} {starts : TokenKind → Prop} {f : Terminal → m α}
    {f' : Terminal → Production α}, (∀ t, R (· = t.kind) (f t) (f' t)) →
      R starts (lookahead >>= f) (Production.lookahead >>= f')
  next : ∀ {kind : TokenKind}, kind ≠ .endOfInput →
    R (· = kind) (next kind) (Production.skip kind)
  skip : ∀ {kind : TokenKind} {starts : TokenKind → Prop}, kind ≠ .endOfInput →
    R starts (skip kind) (Production.skip kind)
  identifier : R (fun _ => True) identifier Grammar.identifier
  literal : R (· ≠ .endOfInput) literal Grammar.literal
  prefixOperator : R (· ≠ .endOfInput) prefixOperator Grammar.prefixOperator
  assignmentOperator : ∀ left : Expression,
    R (· ≠ .endOfInput) (assignmentOperator left) (Grammar.assignmentOperator left)
  noAlternative : ∀ {α : Type} {starts : TokenKind → Prop} {production : String},
    R starts (noAlternative production : m α) (Production.object (.noAlternative production))
  operands : ∀ {kind : TokenKind} {operand : m Expression} {operand' : Production Expression},
    kind ∈ Grammar.precedence → operand'.Progresses → R (fun _ => True) operand operand' →
      R (fun _ => True) (many (· == kind) (rightOperand operand))
        (Production.many (· == kind) (Grammar.rightOperand operand'))
  many : ∀ {α : Type} {kinds : TokenKind → Bool} {item : m α} {item' : Production α},
    kinds .endOfInput = false → item'.Progresses → R (kinds · = true) item item' →
      R (fun _ => True) (many kinds item) (Production.many kinds item')
  commaSeparated : ∀ {α : Type} {item : m α} {item' : Production α}, item'.Progresses →
    R (fun _ => True) item item' →
      R (fun _ => True) (commaSeparated item) (Production.commaSeparated item')

namespace Following

variable {m : Type → Type} [Descent m]
  {R : {α : Type} → (starts : TokenKind → Prop) → m α → Production α → Prop}

theorem simulation (hR : Following m R) :
    Simulation m Production fun reads starts p p' =>
      R starts p p' ∧ Congruence.Relates (fun p p' => p.Steady ∧ p'.Steady) reads starts p' p' := by
  have hsteady := congruence_steady.simulation
  constructor
  case mono => exact fun h hstarts => ⟨hR.mono h.1 hstarts, hsteady.mono h.2 hstarts⟩
  case of_reads => exact fun h => ⟨h.1, h.2.related⟩
  case pure => exact fun a => ⟨hR.pure a, hsteady.pure a⟩
  case bind => exact fun h hf => ⟨hR.bind h.1 fun a => (hf a).1, hsteady.bind h.2 fun a => (hf a).2⟩
  case lookahead_bind => exact fun hf =>
    ⟨hR.lookahead_bind fun t => (hf t).1, hsteady.lookahead_bind fun t => (hf t).2⟩
  case next => exact fun hkind => ⟨hR.next hkind, hsteady.next hkind⟩
  case skip => exact fun hkind => ⟨hR.skip hkind, hsteady.next hkind⟩
  case identifier => exact ⟨hR.identifier, hsteady.identifier⟩
  case literal => exact ⟨hR.literal, hsteady.literal⟩
  case prefixOperator => exact ⟨hR.prefixOperator, hsteady.prefixOperator⟩
  case assignmentOperator => exact fun left =>
    ⟨hR.assignmentOperator left, hsteady.assignmentOperator left⟩
  case noAlternative => exact ⟨hR.noAlternative, hsteady.noAlternative⟩
  case operands => exact fun hkind h =>
    ⟨hR.operands hkind h.2.progresses_left h.1, hsteady.operands hkind h.2⟩
  case many => exact fun hend h =>
    ⟨hR.many hend h.2.progresses_left h.1, hsteady.many hend h.2⟩
  case commaSeparated => exact fun h =>
    ⟨hR.commaSeparated h.2.progresses_left h.1, hsteady.commaSeparated h.2⟩

theorem body (hR : Following m R) {n : Nested} (hn : n.Orderly)
    {call : (q : Procedure) → m q.Result} {deeper : (o : Opening) → m o.procedure.Result}
    {q : Procedure}
    (hcall : ∀ q' : Procedure, q'.rank < q.rank → R q'.Ahead (call q') (q'.production n))
    (hdeeper : ∀ o : Opening, R o.procedure.Ahead (deeper o) (n.opening o)) :
    R q.Ahead (q.body call deeper) (q.production n) := by
  have hbody := hR.simulation.body (fun q => q.production n) n.opening
    (fun q' hrank => ⟨hcall q' hrank, congruence_steady.production hn q'⟩)
    (fun o => ⟨hdeeper o, hn.opening o⟩)
  rw [q.body_production] at hbody
  exact hbody.1

end Following

/-- A budget for as many calls as there are ranks, for every level, is not used up. -/
theorem follows_run {m : Type → Type} [Descent m] {limit : Nat}
    {R : (depth : Nat) → {α : Type} → (starts : TokenKind → Prop) → m α → Production α → Prop}
    {nested : {α : Type} → m α → m α} {run : (budget : Nat) → (q : Procedure) → m q.Result}
    (hR : ∀ depth, Following m (R depth))
    (htooDeep : ∀ {α : Type} {starts : TokenKind → Prop} {p : m α},
      R limit starts (nested p) (.object (.nesting limit)))
    (hnested : ∀ {depth : Nat} {α : Type} {starts : TokenKind → Prop} {p : m α}
      {p' : Production α}, depth < limit → R (depth + 1) starts p p' →
        R depth starts (nested p) p')
    (hrun : ∀ {depth levels budget : Nat} {q : Procedure},
      R depth q.Ahead (q.body (run budget) fun o => nested (run budget o.procedure))
        (q.production (.within limit levels)) →
      R depth q.Ahead (run (budget + 1) q) (q.production (.within limit levels)))
    {depth levels budget : Nat} {q : Procedure} (hlimit : depth + levels = limit)
    (hbudget : q.rank + 32 * levels ≤ budget) :
    R depth q.Ahead (run budget q) (q.production (.within limit levels)) := by
  -- by induction on the budget, since a call within a level has a smaller rank and every
  -- other call opens a level
  induction budget generalizing q depth levels with
  | zero =>
      have hpos := q.rank_pos
      omega
  | succ budget ih =>
      have hpos := q.rank_pos
      have hsame (q' : Procedure) (hrank : q'.rank < q.rank) :
          R depth q'.Ahead (run budget q') (q'.production (.within limit levels)) :=
        ih hlimit (by omega)
      refine hrun ((hR depth).body (Nested.within_related_steady limit levels) hsame fun o => ?_)
      have hrank := o.rank_le
      cases levels with
      | zero =>
          obtain rfl : depth = limit := hlimit
          cases o <;> exact htooDeep
      | succ levels =>
          rw [Nested.opening_within_succ]
          exact hnested (by omega) (ih (by omega) (by omega))

end Descent

end Letter
