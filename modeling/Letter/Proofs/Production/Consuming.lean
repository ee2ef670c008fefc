import Letter.Proofs.Grammar.Language
import Letter.Proofs.Production.Congruence

namespace Letter

namespace Production

variable {α β : Type} {starts : TokenKind → Bool} {ts ts' rest : List Terminal} {a : α} {b : β}

/-- In front of `rest` a production reads `ts`, with the value `a`. -/
def Consumes (p : Production α) (ts : List Terminal) (a : α) (rest : List Terminal) : Prop :=
  p none (ts ++ rest) = .ok (a, rest)

theorem consumes_pure (a : α) (rest : List Terminal) : (pure a : Production α).Consumes [] a rest :=
  rfl

theorem Consumes.bind_apply {p : Production α} {f : α → Production β}
    (hp : p.Consumes ts a rest) : (p >>= f) none (ts ++ rest) = f a none rest :=
  bind_of_eq_ok hp

theorem Consumes.bind {p : Production α} {f : α → Production β}
    (hp : p.Consumes ts a (ts' ++ rest)) (hf : (f a).Consumes ts' b rest) :
    (p >>= f).Consumes (ts ++ ts') b rest := by
  rw [Consumes, List.append_assoc]
  exact hp.bind_apply.trans hf

theorem Consumes.map {p : Production α} {f : α → β} (hp : p.Consumes ts a rest) :
    (p >>= fun a => pure (f a)).Consumes ts (f a) rest :=
  hp.bind_apply

theorem Consumes.after {p : Unit → Production α} (t : Terminal)
    (hp : (p ()).Consumes ts a rest) : (skip t.kind >>= p).Consumes (t :: ts) a rest := by
  have hskip : (skip t.kind).Consumes [t] () (ts ++ rest) := skip_cons (.inl rfl)
  exact hskip.bind hp

theorem Consumes.before {p : Production α} {f : α → Unit → Production β} (t : Terminal)
    (hp : p.Consumes ts a (t :: (ts' ++ rest))) (hf : (f a ()).Consumes ts' b rest) :
    (p >>= fun a => skip t.kind >>= f a).Consumes (ts ++ t :: ts') b rest := by
  have hnext : (skip t.kind >>= f a).Consumes (t :: ts') b rest := .after t hf
  exact .bind hp hnext

theorem consumes_expect (t : Terminal) (rest : List Terminal) :
    (expect t.kind).Consumes [t] t rest :=
  (expect_of_kind_eq rfl).trans (advance_cons (.inl rfl))

theorem consumes_judge {check : Terminal → Except Objection α} {t : Terminal}
    (ht : check t = .ok a) (rest : List Terminal) : (judge check).Consumes [t] a rest :=
  judge_eq_ok.mpr ⟨t, advance_cons (.inl rfl), ht⟩

theorem headD_of_begins (hts : Begins starts ts) :
    starts ((ts ++ rest).headD .endOfInput).kind = true := by
  obtain ⟨t, ts, rfl, ht⟩ := hts
  exact ht

theorem optional_apply {item : Production α} {stuck? : Option Char} {input : List Terminal} :
    Descent.optional starts item stuck? input =
      (if starts (input.headD .endOfInput).kind then item >>= fun a => pure (some a)
        else pure none : Production (Option α)) stuck? input :=
  rfl

theorem consumes_optional_none {item : Production α}
    (hrest : starts (rest.headD .endOfInput).kind = false) :
    (Descent.optional starts item).Consumes [] none rest := by
  rw [Consumes, List.nil_append, optional_apply, hrest]
  rfl

theorem Consumes.optional {item : Production α} (hts : Begins starts ts)
    (hitem : item.Consumes ts a rest) :
    (Descent.optional starts item).Consumes ts (some a) rest := by
  rw [Consumes, optional_apply, headD_of_begins hts]
  exact hitem.map

theorem consumes_optional {item : Production α} {L : Language α} {h : Nat} {a? : Option α}
    (hL : ∀ {ts a}, L h ts a → Begins starts ts ∧ item.Consumes ts a rest)
    (hrest : starts (rest.headD .endOfInput).kind = false) (ha : L.optional h ts a?) :
    (Descent.optional starts item).Consumes ts a? rest := by
  cases a? with
  | none =>
      obtain ⟨rfl, rfl⟩ := ha
      exact consumes_optional_none hrest
  | some a => exact .optional (hL ha).1 (hL ha).2

section Many

variable {item : Production α}

theorem many_bind_of_not_starts (hitem : item.Progresses) (hend : starts .endOfInput = false)
    {f : List α → Production β} (hrest : starts (rest.headD .endOfInput).kind = false) :
    (many starts item >>= f) none rest = f [] none rest := by
  have hnil : many starts item none rest = .ok ([], rest) := by
    rw [many_eq hitem hend, lookahead_bind, hrest]
    rfl
  exact bind_of_eq_ok hnil

theorem many_of_eq_ok {stuck? : Option Char} (hitem : item.Progresses)
    (hend : starts .endOfInput = false) (hts : Begins starts ts)
    (ha : item stuck? (ts ++ rest) = .ok (a, rest)) :
    many starts item stuck? (ts ++ rest) =
      (many starts item >>= fun as => pure (a :: as)) stuck? rest := by
  rw [many_eq hitem hend, lookahead_bind, headD_of_begins hts, ← many_eq hitem hend]
  exact bind_of_eq_ok ha

theorem many_bind_of_consumes (hitem : item.Progresses) (hend : starts .endOfInput = false)
    {f : List α → Production β} (hts : Begins starts ts) (ha : item.Consumes ts a rest) :
    (many starts item >>= f) none (ts ++ rest) =
      (many starts item >>= fun as => f (a :: as)) none rest := by
  have hmany := many_of_eq_ok hitem hend hts ha
  simp only [bind, hmany]
  cases many starts item none rest <;> rfl

theorem consumes_many_nil (hitem : item.Progresses) (hend : starts .endOfInput = false)
    (hrest : starts (rest.headD .endOfInput).kind = false) :
    (many starts item).Consumes [] [] rest := by
  rw [← bind_pure (many starts item)]
  exact many_bind_of_not_starts hitem hend hrest

theorem consumes_many_cons {as : List α} (hitem : item.Progresses)
    (hend : starts .endOfInput = false) (hts : Begins starts ts)
    (ha : item.Consumes ts a (ts' ++ rest)) (has : (many starts item).Consumes ts' as rest) :
    (many starts item).Consumes (ts ++ ts') (a :: as) rest := by
  rw [Consumes, List.append_assoc, ← bind_pure (many starts item),
    many_bind_of_consumes hitem hend hts ha]
  exact has.map

/-- Sentences of which each ends where the next begins, and the last at `rest`. -/
theorem consumes_many {L : Language α} (follow : TokenKind → Prop) {h depth : Nat} {as : List α}
    (hitem : item.Progresses) (hend : starts .endOfInput = false)
    (hL : ∀ {h ts a}, h ≤ depth → L h ts a → Begins starts ts ∧
      (∀ t ∈ ts.head?, follow t.kind) ∧
      ∀ rest, follow (rest.headD .endOfInput).kind → item.Consumes ts a rest)
    (hrest : starts (rest.headD .endOfInput).kind = false)
    (hfollow : follow (rest.headD .endOfInput).kind) (hle : h ≤ depth) (has : L.many h ts as) :
    (many starts item).Consumes ts as rest := by
  induction as generalizing h ts with
  | nil =>
      obtain ⟨rfl, rfl⟩ := has
      exact consumes_many_nil hitem hend hrest
  | cons a as ih =>
      obtain ⟨h₁, h₂, ts₁, ts₂, rfl, rfl, ha, has⟩ := has
      obtain ⟨hle₁, hle₂⟩ := Nat.max_le.mp hle
      have hmany := ih hle₂ has
      obtain ⟨hbegins, -, hconsumes⟩ := hL hle₁ ha
      refine consumes_many_cons hitem hend hbegins (hconsumes _ ?_) hmany
      cases as with
      | nil =>
          obtain ⟨rfl, rfl⟩ := has
          exact hfollow
      | cons a' as =>
          obtain ⟨h₃, h₄, ts₃, ts₄, rfl, rfl, ha', -⟩ := has
          obtain ⟨⟨t, ts₃, rfl, ht⟩, hhead, -⟩ := hL (Nat.max_le.mp hle₂).1 ha'
          exact hhead _ rfl

end Many

section CommaSeparated

variable {item : Production α} {L : Language α} {h depth : Nat} (follow : TokenKind → Prop)

theorem consumes_many_comma {as : List α} (hitem : item.Steady)
    (hL : ∀ {h ts a}, h ≤ depth → L h ts a → ∀ rest, follow (rest.headD .endOfInput).kind →
      item.Consumes ts a rest)
    (hcomma : follow Punctuator.comma)
    (hrest : (rest.headD .endOfInput).kind ≠ Punctuator.comma)
    (hfollow : follow (rest.headD .endOfInput).kind) (hle : h ≤ depth)
    (has : L.commaSeparated h ts as) :
    (many (· == Punctuator.comma) (skip Punctuator.comma >>= fun _ => item)).Consumes
      (Punctuator.comma.terminal :: ts) as rest := by
  have hnext : (skip Punctuator.comma >>= fun _ => item).Progresses :=
    (progresses_skip (by decide)).bind_steady fun _ => hitem
  induction as generalizing h ts with
  | nil => exact absurd has id
  | cons a as ih =>
      cases as with
      | nil =>
          have ha : (skip Punctuator.comma >>= fun _ => item).Consumes
              (Punctuator.comma.terminal :: ts) a rest :=
            .after Punctuator.comma.terminal (hL hle has rest hfollow)
          have hnil :
              (many (· == Punctuator.comma) (skip Punctuator.comma >>= fun _ => item)).Consumes
                [] [] rest :=
            consumes_many_nil hnext rfl (beq_eq_false_iff_ne.mpr hrest)
          rw [← List.append_nil ts]
          exact consumes_many_cons hnext rfl (.cons rfl) ha hnil
      | cons a' as =>
          obtain ⟨h₁, h₂, ts₁, ts₂, rfl, rfl, ha, has⟩ := has
          obtain ⟨hle₁, hle₂⟩ := Nat.max_le.mp hle
          exact consumes_many_cons hnext rfl (.cons rfl)
            (.after Punctuator.comma.terminal (hL hle₁ ha _ hcomma)) (ih hle₂ has)

theorem consumes_commaSeparated {as : List α} (hitem : item.Steady)
    (hL : ∀ {h ts a}, h ≤ depth → L h ts a → ∀ rest, follow (rest.headD .endOfInput).kind →
      item.Consumes ts a rest)
    (hcomma : follow Punctuator.comma)
    (hrest : (rest.headD .endOfInput).kind ≠ Punctuator.comma)
    (hfollow : follow (rest.headD .endOfInput).kind) (hle : h ≤ depth)
    (has : L.commaSeparated h ts as) :
    (commaSeparated item).Consumes ts as rest := by
  have hnext : (skip Punctuator.comma >>= fun _ => item).Progresses :=
    (progresses_skip (by decide)).bind_steady fun _ => hitem
  rcases as with _ | ⟨a, _ | ⟨a', as⟩⟩
  · exact absurd has id
  · have hnil : (many (· == Punctuator.comma) (skip Punctuator.comma >>= fun _ => item)).Consumes
        [] [] rest := consumes_many_nil hnext rfl (beq_eq_false_iff_ne.mpr hrest)
    rw [← List.append_nil ts]
    exact .bind (hL hle has _ hfollow) hnil.map
  · obtain ⟨h₁, h₂, ts₁, ts₂, rfl, rfl, ha, has⟩ := has
    obtain ⟨hle₁, hle₂⟩ := Nat.max_le.mp hle
    have hmany := consumes_many_comma follow hitem hL hcomma hrest hfollow hle₂ has
    exact .bind (hL hle₁ ha _ hcomma) hmany.map

end CommaSeparated

end Production

end Letter
