import Letter.Proofs.Production.Congruence

/-!
What a production does until it reads a terminal depends on nothing behind that terminal, nor on
whether the text breaks off there. Two productions that differ in how many levels they may open
agree so far, unless one of them objects to the nesting.
-/

namespace Letter

namespace Production

open Grammar

variable {α β : Type} {kept : Objection → Prop}

/-- The second production does what the first one does on inputs that are equal up to a terminal
which the first one leaves unread, if objections are of a kind that is kept. An assignment target is
objected to only when the operator has been read. -/
structure Agrees (kept : Objection → Prop) (p p' : Production α) : Prop where
  steady_left : p.Steady
  steady_right : p'.Steady
  of_ok : ∀ {stuck? before t after a rest}, p stuck? (before ++ t :: after) =
    .ok (a, rest ++ t :: after) → ∀ stuck?' after', p' stuck?' (before ++ t :: after') =
      .ok (a, rest ++ t :: after')
  of_error : ∀ {stuck? before t after objection unread}, p stuck? (before ++ t :: after) =
    .error ⟨objection, unread ++ t :: after⟩ → kept objection → objection ∉ Objection.fallbacks →
      ∀ stuck?' after', (objection = .assignmentTarget → stuck?' = none ∨ after' ≠ []) →
        p' stuck?' (before ++ t :: after') = .error ⟨objection, unread ++ t :: after'⟩

theorem exists_between {before rest middle after : List Terminal} {t : Terminal}
    (hrest : rest ++ t :: after <:+ middle) (hmiddle : middle <:+ before ++ t :: after) :
    ∃ between, middle = between ++ t :: after := by
  obtain ⟨read, rfl⟩ := hrest
  rw [← List.append_assoc] at hmiddle ⊢
  exact ⟨_, rfl⟩

theorem agrees_advance_of_ok {stuck? : Option Char} {before after rest : List Terminal}
    {t u : Terminal} (h : advance stuck? (before ++ t :: after) = .ok (u, rest ++ t :: after)) :
    before = u :: rest ∧ ∀ stuck?' after',
      advance stuck?' (before ++ t :: after') = .ok (u, rest ++ t :: after') := by
  have heq : before ++ t :: after = u :: (rest ++ t :: after) := eq_cons_of_advance h (by simp)
  obtain rfl : before = u :: rest := List.append_cancel_right (heq.trans List.cons_append.symm)
  exact ⟨rfl, fun _ _ => advance_cons (.inr (by simp))⟩

theorem advance_ne_error {stuck? : Option Char} {before after unread : List Terminal}
    {t : Terminal} {objection : Objection} :
    advance stuck? (before ++ t :: after) ≠ .error ⟨objection, unread ++ t :: after⟩ := by
  intro h
  obtain ⟨character, -, heq⟩ := exists_of_advance_eq_error h
  have hunread : unread ++ t :: after = [] := congrArg Failure.unread heq
  simp at hunread

namespace Agrees

variable {p p' : Production α} {f f' : α → Production β}

theorem bind (hp : Agrees kept p p') (hf : ∀ a, Agrees kept (f a) (f' a)) :
    Agrees kept (p >>= f) (p' >>= f') where
  steady_left := hp.steady_left.bind fun a => (hf a).steady_left
  steady_right := hp.steady_right.bind fun a => (hf a).steady_right
  of_ok hok stuck?' after' := by
    obtain ⟨a, middle, hfirst, hsecond⟩ := bind_eq_ok.mp hok
    obtain ⟨between, rfl⟩ :=
      exists_between ((hf a).steady_left.of_ok hsecond) (hp.steady_left.of_ok hfirst)
    rw [bind_of_eq_ok (hp.of_ok hfirst stuck?' after')]
    exact (hf a).of_ok hsecond stuck?' after'
  of_error herror hkept hfallback stuck?' after' htarget := by
    rcases bind_eq_error.mp herror with hfirst | ⟨a, middle, hfirst, hsecond⟩
    · exact bind_of_eq_error (hp.of_error hfirst hkept hfallback stuck?' after' htarget)
    · obtain ⟨between, rfl⟩ :=
        exists_between ((hf a).steady_left.of_error hsecond) (hp.steady_left.of_ok hfirst)
      rw [bind_of_eq_ok (hp.of_ok hfirst stuck?' after')]
      exact (hf a).of_error hsecond hkept hfallback stuck?' after' htarget

end Agrees

theorem agrees_pure (a : α) : Agrees kept (pure a : Production α) (pure a) where
  steady_left := steady_pure a
  steady_right := steady_pure a
  of_ok hok _ _ := by
    obtain ⟨rfl, heq⟩ := pure_eq_ok.mp hok
    obtain rfl := List.append_cancel_right heq
    rfl
  of_error herror := nomatch herror

theorem agrees_lookahead_bind {f f' : Terminal → Production α}
    (hf : ∀ t, Agrees kept (f t) (f' t)) : Agrees kept (lookahead >>= f) (lookahead >>= f') where
  steady_left := steady_lookahead.bind fun t => (hf t).steady_left
  steady_right := steady_lookahead.bind fun t => (hf t).steady_right
  of_ok {stuck?} {before} {t} {after} {a} {rest} hok stuck?' after' := by
    have hhead : (before ++ t :: after').headD .endOfInput =
        (before ++ t :: after).headD .endOfInput := by
      cases before <;> rfl
    rw [lookahead_bind] at hok ⊢
    rw [hhead]
    exact (hf _).of_ok hok stuck?' after'
  of_error {stuck?} {before} {t} {after} {objection} {unread} herror hkept hfallback stuck?' after'
      htarget := by
    have hhead : (before ++ t :: after').headD .endOfInput =
        (before ++ t :: after).headD .endOfInput := by
      cases before <;> rfl
    rw [lookahead_bind] at herror ⊢
    rw [hhead]
    exact (hf _).of_error herror hkept hfallback stuck?' after' htarget

theorem agrees_advance : Agrees kept advance advance where
  steady_left := steady_advance
  steady_right := steady_advance
  of_ok hok := (agrees_advance_of_ok hok).2
  of_error herror := absurd herror advance_ne_error

theorem agrees_object {objection : Objection} (hobjection : ∀ c, objection ≠ .lexical c) :
    Agrees kept (object objection : Production α) (object objection) where
  steady_left := steady_object hobjection
  steady_right := steady_object hobjection
  of_ok hok := nomatch hok
  of_error herror _ _ _ _ _ := by
    obtain ⟨rfl, heq⟩ := Failure.mk.inj (Except.error.inj herror)
    obtain rfl := List.append_cancel_right heq
    rfl

theorem agrees_judge {check : Terminal → Except Objection α}
    (hcheck : ∀ {t objection}, check t = .error objection → objection.IsLate) :
    Agrees kept (judge check) (judge check) where
  steady_left := steady_judge hcheck
  steady_right := steady_judge hcheck
  of_ok hok stuck?' after' := by
    obtain ⟨u, hadvance, hu⟩ := judge_eq_ok.mp hok
    exact judge_eq_ok.mpr ⟨u, (agrees_advance_of_ok hadvance).2 stuck?' after', hu⟩
  of_error {stuck?} {before} {t} {after} {objection} {unread} herror _ hfallback stuck?' after'
      htarget := by
    rcases judge_eq_error.mp herror with hadvance | ⟨u, rest, objection', hadvance, hu, heq⟩
    · exact absurd hadvance advance_ne_error
    · obtain ⟨rfl, hunread⟩ := Failure.mk.inj heq
      obtain rfl := List.append_cancel_right hunread
      have hinput : unread ++ t :: after = u :: rest := eq_cons_of_advance hadvance (by simp)
      refine judge_eq_error.mpr (.inr ?_)
      cases unread with
      | nil =>
          obtain ⟨rfl, -⟩ := List.cons.inj hinput
          rcases hcheck hu with hlate | hlate
          · exact ⟨t, after', _, advance_cons (htarget hlate), hu, rfl⟩
          · exact absurd hlate hfallback
      | cons u' unread =>
          obtain ⟨rfl, -⟩ := List.cons.inj hinput
          exact ⟨u', unread ++ t :: after', _, advance_cons (.inr (by simp)), hu, rfl⟩

namespace Agrees

variable {starts : TokenKind → Bool} {item item' : Production α}

theorem manyWithin (hitem : Agrees kept item item') (bound : List Terminal) :
    Agrees kept (manyWithin starts item bound) (manyWithin starts item' bound) := by
  induction bound with
  | nil => exact agrees_pure _
  | cons t bound ih =>
      refine agrees_lookahead_bind fun t => ?_
      split
      · exact hitem.bind fun first => ih.bind fun others => agrees_pure _
      · exact agrees_pure _

theorem exists_bound (hend : starts .endOfInput = false) (hprogresses : item.Progresses)
    (hprogresses' : item'.Progresses) (stuck? stuck?' : Option Char)
    (input input' : List Terminal) :
    ∃ bound, many starts item stuck? input = Production.manyWithin starts item bound stuck? input ∧
      many starts item' stuck?' input' =
        Production.manyWithin starts item' bound stuck?' input' := by
  refine ⟨input ++ input', manyWithin_eq_manyWithin hprogresses hend (Nat.le_refl _) ?_,
    manyWithin_eq_manyWithin hprogresses' hend (Nat.le_refl _) ?_⟩
  · exact List.length_append ▸ Nat.le_add_right _ _
  · exact List.length_append ▸ Nat.le_add_left _ _

theorem many (hend : starts .endOfInput = false) (hitem : Agrees kept item item')
    (hprogresses : item.Progresses) (hprogresses' : item'.Progresses) :
    Agrees kept (many starts item) (many starts item') where
  steady_left := hitem.steady_left.many
  steady_right := hitem.steady_right.many
  of_ok hok stuck?' after' := by
    obtain ⟨bound, hbound, hbound'⟩ := exists_bound hend hprogresses hprogresses' _ stuck?' _ _
    rw [hbound] at hok
    rw [hbound']
    exact (hitem.manyWithin bound).of_ok hok stuck?' after'
  of_error herror hkept hfallback stuck?' after' htarget := by
    obtain ⟨bound, hbound, hbound'⟩ := exists_bound hend hprogresses hprogresses' _ stuck?' _ _
    rw [hbound] at herror
    rw [hbound']
    exact (hitem.manyWithin bound).of_error herror hkept hfallback stuck?' after' htarget

theorem rightOperand {operand operand' : Production Expression}
    (hoperand : Agrees kept operand operand') :
    Agrees kept (rightOperand operand) (rightOperand operand') where
  steady_left := hoperand.steady_left.rightOperand
  steady_right := hoperand.steady_right.rightOperand
  of_ok {stuck?} {before} {t} {after} {a} {rest} hok stuck?' after' := by
  -- the connective is checked only behind the operand, and that check would be a fallback
    obtain ⟨connective, right⟩ := a
    obtain ⟨token, middle, hadvance, hright, hspelled⟩ := rightOperand_eq_ok.mp hok
    obtain ⟨between, rfl⟩ :=
      exists_between (hoperand.steady_left.of_ok hright) (steady_advance.of_ok hadvance)
    exact rightOperand_eq_ok.mpr ⟨token, _, (agrees_advance_of_ok hadvance).2 stuck?' after',
      hoperand.of_ok hright stuck?' after', hspelled⟩
  of_error {stuck?} {before} {t} {after} {objection} {unread} herror hkept hfallback stuck?' after'
      htarget := by
    rcases rightOperand_eq_error.mp herror with
      hadvance | ⟨token, middle, hadvance, hright | ⟨right, rest, -, -, heq⟩⟩
    · exact absurd hadvance advance_ne_error
    · obtain ⟨between, rfl⟩ :=
        exists_between (hoperand.steady_left.of_error hright) (steady_advance.of_ok hadvance)
      exact rightOperand_eq_error.mpr (.inr ⟨token, _,
        (agrees_advance_of_ok hadvance).2 stuck?' after',
        .inl (hoperand.of_error hright hkept hfallback stuck?' after' htarget)⟩)
    · obtain ⟨rfl, -⟩ := Failure.mk.inj heq
      exact absurd (by decide) hfallback

end Agrees

theorem congruence_agrees : Congruence (Agrees kept) where
  steady_left h := h.steady_left
  steady_right h := h.steady_right
  pure a := agrees_pure a
  bind hp hf := hp.bind hf
  lookahead := agrees_lookahead_bind fun t => agrees_pure t
  advance := agrees_advance
  object h := agrees_object h.ne_lexical
  judge h := agrees_judge h
  many hend h hprogresses hprogresses' := h.many hend hprogresses hprogresses'
  operands hkind h hprogresses hprogresses' := by
    refine h.rightOperand.many ?_ hprogresses.rightOperand hprogresses'.rightOperand
    exact Bool.eq_false_iff.mpr fun hend => by
      obtain rfl := eq_of_beq hend
      cases hkind
      contradiction

end Production

open Production

/-- More levels to open make no difference until there are too many for the fewer. -/
theorem Nested.agrees_within (limit limit' depth spare : Nat) :
    (Nested.within limit depth).Related
      (Agrees fun objection => ∀ limit, objection ≠ .nesting limit)
      (.within limit' (depth + spare)) := by
  have hsteady := within_related_steady limit' spare
  refine congruence_agrees.within ?_ depth
  have hinnermost {α : Type} {p : Production α}
      (hp : Strict (fun p p' => p.Steady ∧ p'.Steady) p p) :
      Strict (Agrees fun objection => ∀ limit, objection ≠ .nesting limit)
        (object (.nesting limit)) p :=
    { related :=
        { steady_left := steady_object nofun
          steady_right := hp.related.1
          of_ok := fun h => nomatch h
          of_error := fun h hkept => by
            obtain ⟨rfl, -⟩ := Failure.mk.inj (Except.error.inj h)
            exact absurd rfl (hkept limit) }
      progresses_left := progresses_object _
      progresses_right := hp.progresses_left }
  exact ⟨hinnermost hsteady.statement, hinnermost hsteady.expression,
    hinnermost hsteady.operation, hinnermost hsteady.construction⟩

theorem Grammar.agrees_program (limit spare : Nat) :
    Agrees (fun objection => ∀ limit, objection ≠ .nesting limit) (program limit)
      (program (limit + spare)) :=
  (congruence_agrees.statements (Nested.agrees_within limit (limit + spare) limit spare) _).bind
    fun _ => agrees_pure _

theorem Nested.agrees_within_self (limit depth : Nat) :
    (Nested.within limit depth).Related (Agrees fun _ => True) (.within limit depth) :=
  congruence_agrees.within_self (agrees_object nofun) depth

theorem Grammar.agrees_program_self (limit : Nat) :
    Agrees (fun _ => True) (program limit) (program limit) :=
  (congruence_agrees.statements (Nested.agrees_within_self limit limit) _).bind
    fun _ => agrees_pure _

end Letter
