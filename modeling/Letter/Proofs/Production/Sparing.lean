import Letter.Grammar.Expression
import Letter.Proofs.Production.Steady

/-!
Inputs too short for the nesting limit. A production has room for inputs below some length if on
none of them it objects to the nesting; whatever reads a terminal before it has room for more.
-/

namespace Letter.Production

variable {α β : Type} {starts : TokenKind → Bool} {room room' : Nat}

/-- Behind a lookahead of certain kinds, and with less input than there is room for, a production
does not object to the nesting. -/
structure SparesFrom (starts : TokenKind → Bool) (p : Production α) (room : Nat) : Prop where
  steady : p.Steady
  ne_nesting : ∀ {stuck? input limit unread}, starts (input.headD .endOfInput).kind →
    input.length < room → p stuck? input ≠ .error ⟨.nesting limit, unread⟩

abbrev Spares (p : Production α) (room : Nat) : Prop :=
  p.SparesFrom (fun _ => true) room

namespace SparesFrom

variable {p : Production α} {f : α → Production β}

theorem mono (hp : p.SparesFrom starts room) (hroom : room' ≤ room) :
    p.SparesFrom starts room' where
  steady := hp.steady
  ne_nesting hstarts hlt := hp.ne_nesting hstarts (Nat.lt_of_lt_of_le hlt hroom)

theorem mono_starts {starts' : TokenKind → Bool} (hp : p.SparesFrom starts room)
    (hstarts : ∀ kind, starts' kind → starts kind) : p.SparesFrom starts' room where
  steady := hp.steady
  ne_nesting h := hp.ne_nesting (hstarts _ h)

theorem restrict (hp : p.SparesFrom (fun _ => true) room) : p.SparesFrom starts room :=
  hp.mono_starts fun _ _ => rfl

theorem bind (hp : p.SparesFrom starts room) (hf : ∀ a, (f a).Spares room) :
    (p >>= f).SparesFrom starts room where
  steady := hp.steady.bind fun a => (hf a).steady
  ne_nesting hstarts hlt herror := by
    rcases bind_eq_error.mp herror with hfirst | ⟨a, middle, hfirst, hsecond⟩
    · exact hp.ne_nesting hstarts hlt hfirst
    · have hle := (hp.steady.of_ok hfirst).length_le
      exact (hf a).ne_nesting rfl (Nat.lt_of_le_of_lt hle hlt) hsecond

theorem bind_progresses (hp : p.SparesFrom starts room) (hprogresses : p.Progresses)
    (hf : ∀ a, (f a).Spares (room - 1)) : (p >>= f).SparesFrom starts room where
  steady := hp.steady.bind fun a => (hf a).steady
  ne_nesting hstarts hlt herror := by
    rcases bind_eq_error.mp herror with hfirst | ⟨a, middle, hfirst, hsecond⟩
    · exact hp.ne_nesting hstarts hlt hfirst
    · have hrest := hprogresses _ _ _ _ hfirst
      exact (hf a).ne_nesting rfl (by omega) hsecond

end SparesFrom

theorem spares_pure (a : α) : (pure a : Production α).SparesFrom starts room where
  steady := steady_pure a
  ne_nesting _ _ := nofun

theorem SparesFrom.map {p : Production α} {f : α → β} (hp : p.SparesFrom starts room) :
    (p >>= fun a => pure (f a)).SparesFrom starts room :=
  hp.bind fun _ => spares_pure _

theorem spares_object {objection : Objection} (hobjection : objection.IsSyntactic) :
    (object objection : Production α).SparesFrom starts room where
  steady := steady_object fun character h => by
    subst h
    exact hobjection
  ne_nesting _ _ herror := by
    cases herror
    exact hobjection

theorem spares_advance : advance.SparesFrom starts room where
  steady := steady_advance
  ne_nesting _ _ herror := by
    obtain ⟨character, -, heq⟩ := exists_of_advance_eq_error herror
    cases heq

theorem spares_judge {check : Terminal → Except Objection α}
    (hcheck : ∀ {t objection}, check t = .error objection → objection.IsLate) :
    (judge check).SparesFrom starts room where
  steady := steady_judge hcheck
  ne_nesting hstarts hlt herror := by
    rcases judge_eq_error.mp herror with hadvance | ⟨t, rest, objection, -, ht, heq⟩
    · exact spares_advance.ne_nesting hstarts hlt hadvance
    · cases heq
      exact (hcheck ht).isSyntactic

theorem spares_lookahead_bind {f : Terminal → Production α}
    (hf : ∀ t, (f t).SparesFrom (· == t.kind) room) : (lookahead >>= f).Spares room where
  steady := steady_lookahead.bind fun t => (hf t).steady
  ne_nesting {_} {input} {_} {_} _ hlt herror :=
    (hf (input.headD .endOfInput)).ne_nesting (beq_self_eq_true _) hlt herror

theorem spares_expect (kind : TokenKind) : (expect kind).Spares room :=
  spares_lookahead_bind fun t => by
    split
    · exact spares_advance
    · exact spares_object trivial

theorem spares_skip (kind : TokenKind) : (skip kind).Spares room :=
  (spares_expect kind).map

theorem spares_after {kind : TokenKind} (hkind : kind ≠ .endOfInput) {p : Unit → Production α}
    (hp : (p ()).Spares (room - 1)) : (skip kind >>= p).Spares room :=
  (spares_skip kind).bind_progresses (progresses_skip hkind) fun _ => hp

theorem spares_between {kind kind' : TokenKind} (hkind : kind ≠ .endOfInput) {p : Production α}
    {f : α → β} (hp : p.Spares (room - 1)) :
    (skip kind >>= fun _ => p >>= fun a => skip kind' >>= fun _ => pure (f a)).Spares room :=
  spares_after hkind (hp.bind fun _ => (spares_skip kind').map)

namespace SparesFrom

variable {item : Production α}

theorem optional (hitem : item.SparesFrom starts room) :
    (Descent.optional starts item).Spares room :=
  spares_lookahead_bind fun t => by
    split
    · rename_i ht
      exact (hitem.mono_starts fun kind hkind => by rwa [eq_of_beq hkind]).map
    · exact spares_pure none

theorem manyWithin (hitem : item.SparesFrom starts room) (bound : List Terminal) :
    (manyWithin starts item bound).Spares room := by
  induction bound with
  | nil => exact spares_pure _
  | cons t bound ih =>
      refine spares_lookahead_bind fun t => ?_
      split
      · rename_i ht
        exact (hitem.mono_starts fun kind hkind => by rwa [eq_of_beq hkind]).bind fun _ => ih.map
      · exact spares_pure []

theorem many (hitem : item.SparesFrom starts room) : (many starts item).Spares room where
  steady := hitem.steady.many
  ne_nesting hstarts hlt := (hitem.manyWithin _).ne_nesting hstarts hlt

end SparesFrom

theorem Spares.optional {item : Production α} (hitem : item.Spares room)
    (starts : TokenKind → Bool) : (Descent.optional starts item).Spares room :=
  hitem.restrict.optional

theorem Spares.many {item : Production α} (hitem : item.Spares room)
    (starts : TokenKind → Bool) : (many starts item).Spares room :=
  hitem.restrict.many

theorem Spares.commaSeparated {item : Production α} (hitem : item.Spares room) :
    (commaSeparated item).Spares room :=
  have hnext : (skip Punctuator.comma >>= fun _ => item).Spares room :=
    (spares_skip _).bind fun _ => hitem
  hitem.bind fun _ => (hnext.many _).map

end Letter.Production
