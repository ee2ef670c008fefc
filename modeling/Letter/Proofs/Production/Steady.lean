import Letter.Grammar.Production

/-!
The primitive productions by what they read, and steadiness: no production looks back behind the
terminal at which it began. A loop over a steady item that opens with a fixed terminal therefore
comes closer to the end in every round.
-/

namespace Letter

/-- Whether an objection is raised by the grammar, and not by the text or the nesting limit. -/
def Objection.IsSyntactic : Objection → Prop
  | expected _ | noAlternative _ | assignmentTarget => True
  | lexical _ | nesting _ => False

theorem Objection.IsSyntactic.ne_lexical {objection : Objection} (h : objection.IsSyntactic)
    (character : Char) : objection ≠ .lexical character := by
  rintro rfl
  exact h

/-- What is said of an operator or a literal that is not spelled as its kind demands. -/
def Objection.fallbacks : List Objection :=
  [.expected "assignment operator", .expected "binary operator", .expected "unary operator",
   .noAlternative "NumericLiteral", .noAlternative "Literal"]

/-- Whether an objection to a terminal is raised only when the terminal has been read. -/
def Objection.IsLate (objection : Objection) : Prop :=
  objection = .assignmentTarget ∨ objection ∈ fallbacks

theorem Objection.IsLate.isSyntactic {objection : Objection} (h : objection.IsLate) :
    objection.IsSyntactic := by
  cases objection with
  | lexical _ | nesting _ => simp [IsLate, fallbacks] at h
  | _ => trivial

namespace Production

variable {α β : Type} {stuck? : Option Char} {input rest : List Terminal}

theorem bind_of_eq_ok {p : Production α} {f : α → Production β} {a : α}
    (h : p stuck? input = .ok (a, rest)) : (p >>= f) stuck? input = f a stuck? rest := by
  simp only [bind, h]

theorem bind_of_eq_error {p : Production α} {f : α → Production β} {failure : Failure}
    (h : p stuck? input = .error failure) : (p >>= f) stuck? input = .error failure := by
  simp only [bind, h]

theorem lookahead_bind {f : Terminal → Production α} :
    (lookahead >>= f) stuck? input = f (input.headD .endOfInput) stuck? input :=
  rfl

theorem many_append_eq {starts : TokenKind → Bool} {item : Production α} (hitem : item.Progresses)
    (hend : starts .endOfInput = false) (items : List α) :
    (many starts item >>= fun others => pure (items ++ others)) = lookahead >>= fun t =>
      if starts t.kind then
        item >>= fun a => many starts item >>= fun others => pure (items ++ [a] ++ others)
      else pure items := by
  conv =>
    lhs
    rw [many_eq hitem hend, bind_assoc]
  refine congrArg (lookahead >>= ·) (funext fun t => ?_)
  split
  · simp only [bind_assoc, pure_bind, List.append_assoc, List.singleton_append]
  · simp only [pure_bind, List.append_nil]

theorem advance_cons {t : Terminal} (h : stuck? = none ∨ rest ≠ []) :
    advance stuck? (t :: rest) = .ok (t, rest) := by
  rcases rest with _ | ⟨t', rest⟩
  · obtain rfl : stuck? = none := by simpa using h
    rfl
  · rfl

theorem eq_cons_of_advance {t : Terminal} (h : advance stuck? input = .ok (t, rest))
    (hinput : input ≠ []) : input = t :: rest := by
  rcases input with _ | ⟨t', _ | ⟨t'', input⟩⟩
  · exact absurd rfl hinput
  · rcases stuck? with _ | character <;> cases h
    rfl
  · cases h
    rfl

theorem exists_of_advance_eq_error {failure : Failure}
    (h : advance stuck? input = .error failure) :
    ∃ character, stuck? = some character ∧ failure = ⟨.lexical character, []⟩ := by
  rcases input with _ | ⟨t, _ | ⟨t', input⟩⟩
  · cases h
  · rcases stuck? with _ | character <;> cases h
    exact ⟨character, rfl, rfl⟩
  · cases h

theorem expect_of_kind_eq {kind : TokenKind} (h : (input.headD .endOfInput).kind = kind) :
    expect kind stuck? input = advance stuck? input := by
  change (if _ then advance else object _ : Production Terminal) stuck? input = _
  rw [if_pos h]

theorem expect_of_kind_ne {kind : TokenKind} (h : (input.headD .endOfInput).kind ≠ kind) :
    expect kind stuck? input = .error ⟨.expected kind.label, input⟩ := by
  change (if _ then advance else object _ : Production Terminal) stuck? input = _
  rw [if_neg h]
  rfl

theorem skip_cons {t : Terminal} (h : stuck? = none ∨ rest ≠ []) :
    skip t.kind stuck? (t :: rest) = .ok ((), rest) := by
  have hexpect : expect t.kind stuck? (t :: rest) = .ok (t, rest) :=
    (expect_of_kind_eq rfl).trans (advance_cons h)
  exact bind_of_eq_ok hexpect

/-- What is left unread, by success or by failure, ends the input. The last terminal of a text that
breaks off cannot be read, and nothing else is a lexical objection; nor is there any other objection
to what follows that terminal. -/
structure Steady (p : Production α) : Prop where
  of_ok : ∀ {stuck? input a rest}, p stuck? input = .ok (a, rest) → rest <:+ input
  of_error : ∀ {stuck? input failure},
    p stuck? input = .error failure → failure.unread <:+ input
  of_ok_nil : ∀ {character input a}, p (some character) input = .ok (a, []) → input = []
  of_lexical : ∀ {stuck? input character unread},
    p stuck? input = .error ⟨.lexical character, unread⟩ → stuck? = some character
  of_error_nil : ∀ {character input objection},
    p (some character) input = .error ⟨objection, []⟩ →
      input = [] ∨ objection = .lexical character

theorem steady_pure (a : α) : (pure a : Production α).Steady where
  of_ok h := by
    obtain ⟨-, rfl⟩ := pure_eq_ok.mp h
    exact List.suffix_refl _
  of_error h := by cases h
  of_ok_nil h := (pure_eq_ok.mp h).2
  of_lexical h := by cases h
  of_error_nil h := by cases h

theorem steady_object {objection : Objection} (hobjection : ∀ c, objection ≠ .lexical c) :
    (object objection : Production α).Steady where
  of_ok h := by cases h
  of_error h := by
    cases h
    exact List.suffix_refl _
  of_ok_nil h := by cases h
  of_lexical h := by
    cases h
    exact absurd rfl (hobjection _)
  of_error_nil h := by
    cases h
    exact .inl rfl

theorem steady_lookahead : lookahead.Steady where
  of_ok h := by
    cases h
    exact List.suffix_refl _
  of_error h := by cases h
  of_ok_nil h := by
    cases h
    rfl
  of_lexical h := by cases h
  of_error_nil h := by cases h

theorem steady_advance : advance.Steady where
  of_ok {stuck?} {input} {a} {rest} h := by
    rcases input with _ | ⟨t, _ | ⟨t', input⟩⟩
    · cases h
      exact List.suffix_refl _
    · rcases stuck? with _ | character
      · cases h
        exact List.suffix_cons _ _
      · cases h
    · cases h
      exact List.suffix_cons _ _
  of_error {stuck?} {input} {failure} h := by
    obtain ⟨character, -, rfl⟩ := exists_of_advance_eq_error h
    exact List.nil_suffix
  of_ok_nil {character} {input} {a} h := by
    rcases input with _ | ⟨t, _ | ⟨t', input⟩⟩
    · rfl
    · cases h
    · cases h
  of_lexical h := by
    obtain ⟨character, hstuck, heq⟩ := exists_of_advance_eq_error h
    cases heq
    exact hstuck
  of_error_nil h := by
    obtain ⟨character, hstuck, heq⟩ := exists_of_advance_eq_error h
    cases heq
    cases hstuck
    exact .inr rfl

theorem Steady.bind {p : Production α} {f : α → Production β} (hp : p.Steady)
    (hf : ∀ a, (f a).Steady) : (p >>= f).Steady where
  of_ok h := by
    obtain ⟨a, middle, hfirst, hsecond⟩ := bind_eq_ok.mp h
    exact ((hf a).of_ok hsecond).trans (hp.of_ok hfirst)
  of_error h := by
    rcases bind_eq_error.mp h with hfirst | ⟨a, middle, hfirst, hsecond⟩
    · exact hp.of_error hfirst
    · exact ((hf a).of_error hsecond).trans (hp.of_ok hfirst)
  of_ok_nil h := by
    obtain ⟨a, middle, hfirst, hsecond⟩ := bind_eq_ok.mp h
    obtain rfl := (hf a).of_ok_nil hsecond
    exact hp.of_ok_nil hfirst
  of_lexical h := by
    rcases bind_eq_error.mp h with hfirst | ⟨a, middle, -, hsecond⟩
    · exact hp.of_lexical hfirst
    · exact (hf a).of_lexical hsecond
  of_error_nil h := by
    rcases bind_eq_error.mp h with hfirst | ⟨a, middle, hfirst, hsecond⟩
    · exact hp.of_error_nil hfirst
    · rcases (hf a).of_error_nil hsecond with rfl | hlexical
      · exact .inl (hp.of_ok_nil hfirst)
      · exact .inr hlexical

theorem Steady.manyWithin {starts : TokenKind → Bool} {item : Production α}
    (hitem : item.Steady) (bound : List Terminal) : (manyWithin starts item bound).Steady := by
  induction bound with
  | nil => exact steady_pure _
  | cons t bound ih =>
      refine steady_lookahead.bind fun t => ?_
      split
      · exact hitem.bind fun first => ih.bind fun others => steady_pure _
      · exact steady_pure _

theorem Steady.many {starts : TokenKind → Bool} {item : Production α} (hitem : item.Steady) :
    (many starts item).Steady where
  of_ok h := (hitem.manyWithin _).of_ok h
  of_error h := (hitem.manyWithin _).of_error h
  of_ok_nil h := (hitem.manyWithin _).of_ok_nil h
  of_lexical h := (hitem.manyWithin _).of_lexical h
  of_error_nil h := (hitem.manyWithin _).of_error_nil h

/-- Reads a terminal and judges it; what is wrong with it is said of the terminal itself. -/
def judge (check : Terminal → Except Objection α) : Production α := do
  let start ← unread
  let token ← advance
  match check token with
  | .ok a => return a
  | .error objection => objectAt start objection

theorem judge_eq_ok {check : Terminal → Except Objection α} {a : α} :
    judge check stuck? input = .ok (a, rest) ↔
      ∃ t, advance stuck? input = .ok (t, rest) ∧ check t = .ok a := by
  change (advance >>= fun token => match check token with
    | .ok a => pure a
    | .error objection => objectAt input objection : Production α) stuck? input = _ ↔ _
  rw [bind_eq_ok]
  constructor
  · rintro ⟨t, middle, hadvance, h⟩
    cases hcheck : check t with
    | ok a' =>
        rw [hcheck] at h
        obtain ⟨rfl, rfl⟩ := pure_eq_ok.mp h
        exact ⟨t, hadvance, hcheck⟩
    | error objection =>
        rw [hcheck] at h
        cases h
  · rintro ⟨t, hadvance, hcheck⟩
    refine ⟨t, rest, hadvance, ?_⟩
    rw [hcheck]
    rfl

theorem judge_eq_error {check : Terminal → Except Objection α} {failure : Failure} :
    judge check stuck? input = .error failure ↔
      advance stuck? input = .error failure ∨
        ∃ t rest objection, advance stuck? input = .ok (t, rest) ∧
          check t = .error objection ∧ failure = ⟨objection, input⟩ := by
  change (advance >>= fun token => match check token with
    | .ok a => pure a
    | .error objection => objectAt input objection : Production α) stuck? input = _ ↔ _
  rw [bind_eq_error]
  refine or_congr_right ⟨?_, ?_⟩
  · rintro ⟨t, rest, hadvance, h⟩
    cases hcheck : check t with
    | ok a =>
        rw [hcheck] at h
        cases h
    | error objection =>
        rw [hcheck] at h
        cases h
        exact ⟨t, rest, objection, hadvance, hcheck, rfl⟩
  · rintro ⟨t, rest, objection, hadvance, hcheck, rfl⟩
    refine ⟨t, rest, hadvance, ?_⟩
    rw [hcheck]
    rfl

theorem steady_judge {check : Terminal → Except Objection α}
    (hcheck : ∀ {t objection}, check t = .error objection → objection.IsLate) :
    (judge check).Steady where
  of_ok h := by
    obtain ⟨t, hadvance, -⟩ := judge_eq_ok.mp h
    exact steady_advance.of_ok hadvance
  of_error h := by
    rcases judge_eq_error.mp h with hadvance | ⟨t, rest, objection, -, -, rfl⟩
    · exact steady_advance.of_error hadvance
    · exact List.suffix_refl _
  of_ok_nil h := by
    obtain ⟨t, hadvance, -⟩ := judge_eq_ok.mp h
    exact steady_advance.of_ok_nil hadvance
  of_lexical h := by
    rcases judge_eq_error.mp h with hadvance | ⟨t, rest, objection, -, ht, heq⟩
    · exact steady_advance.of_lexical hadvance
    · cases heq
      exact absurd (hcheck ht).isSyntactic id
  of_error_nil h := by
    rcases judge_eq_error.mp h with hadvance | ⟨t, rest, objection, -, -, heq⟩
    · exact steady_advance.of_error_nil hadvance
    · cases heq
      exact .inl rfl

theorem progresses_object (objection : Objection) :
    (object objection : Production α).Progresses := by
  intro stuck? input a rest h
  cases h

theorem Progresses.bind_steady {p : Production α} {f : α → Production β} (hp : p.Progresses)
    (hf : ∀ a, (f a).Steady) : (p >>= f).Progresses := by
  intro stuck? input b rest h
  obtain ⟨a, middle, hfirst, hsecond⟩ := bind_eq_ok.mp h
  exact Nat.lt_of_le_of_lt ((hf a).of_ok hsecond).length_le (hp _ _ _ _ hfirst)

theorem Steady.bind_progresses {p : Production α} {f : α → Production β} (hp : p.Steady)
    (hf : ∀ a, (f a).Progresses) : (p >>= f).Progresses := by
  intro stuck? input b rest h
  obtain ⟨a, middle, hfirst, hsecond⟩ := bind_eq_ok.mp h
  exact Nat.lt_of_lt_of_le (hf a _ _ _ _ hsecond) (hp.of_ok hfirst).length_le

theorem progresses_expect {kind : TokenKind} (hkind : kind ≠ .endOfInput) :
    (expect kind).Progresses := by
  intro stuck? input t rest h
  by_cases hk : (input.headD .endOfInput).kind = kind
  · rw [expect_of_kind_eq hk] at h
    rw [eq_cons_of_advance h (by rintro rfl; exact hkind hk.symm)]
    exact Nat.lt_succ_self _
  · rw [expect_of_kind_ne hk] at h
    cases h

theorem progresses_skip {kind : TokenKind} (hkind : kind ≠ .endOfInput) :
    (skip kind).Progresses :=
  (progresses_expect hkind).bind_steady fun _ => steady_pure _

theorem progresses_judge {check : Terminal → Except Objection α}
    (hcheck : ∀ {a}, check .endOfInput ≠ .ok a) : (judge check).Progresses := by
  intro stuck? input a rest h
  obtain ⟨t, hadvance, ht⟩ := judge_eq_ok.mp h
  by_cases hinput : input = []
  · subst hinput
    cases hadvance
    exact absurd ht hcheck
  · rw [eq_cons_of_advance hadvance hinput]
    exact Nat.lt_succ_self _

end Production

end Letter
