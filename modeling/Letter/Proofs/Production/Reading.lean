import Letter.Grammar.Expression
import Letter.Proofs.Grammar.Language
import Letter.Proofs.Production.Steady

/-!
Productions as readers of a language: what they read are sentences of it, and where one objects to
a terminal, what it has read until then can be continued to a sentence. Both are kept by sequence,
choice and repetition, so what a production reads follows from its parts.
-/

namespace Letter

namespace Production

variable {α β : Type} {starts : TokenKind → Bool} {depth : Nat}

/-- What a production does behind a lookahead of certain kinds: it reads sentences of a language
of no more than a given height, and fails behind what can be continued to one. -/
structure ReadsFrom (starts : TokenKind → Bool) (p : Production α) (depth : Nat)
    (L : Language α) : Prop where
  sound : ∀ {stuck? input a rest}, starts (input.headD .endOfInput).kind →
    (∀ t ∈ input, t.Genuine) → p stuck? input = .ok (a, rest) →
      ∃ h read, h ≤ depth ∧ input = read ++ rest ∧ L h read a
  viable : ∀ {stuck? input objection unread}, starts (input.headD .endOfInput).kind →
    (∀ t ∈ input, t.Genuine) → p stuck? input = .error ⟨objection, unread⟩ →
      objection.IsSyntactic → ∃ read, input = read ++ unread ∧ L.Viable read ∧
        (objection = .assignmentTarget → unread ≠ [])
  inhabited : L.Viable []

/-- What a production does on every input. -/
abbrev Reads (p : Production α) (depth : Nat) (L : Language α) : Prop :=
  p.ReadsFrom (fun _ => true) depth L

/-- What holds of the value and of the next kind whenever a production succeeds. -/
structure Ensures (p : Production α) (P : α → TokenKind → Prop) : Prop where
  of_ok : ∀ {stuck? input a rest}, p stuck? input = .ok (a, rest) →
    P a (rest.headD .endOfInput).kind

namespace Ensures

variable {p : Production α} {P : β → TokenKind → Prop}

theorem mono {Q : β → TokenKind → Prop} {p : Production β} (hp : p.Ensures P)
    (hPQ : ∀ b kind, P b kind → Q b kind) : p.Ensures Q where
  of_ok h := hPQ _ _ (hp.of_ok h)

theorem bind {f : α → Production β} (hf : ∀ a, (f a).Ensures P) : (p >>= f).Ensures P where
  of_ok h := by
    obtain ⟨a, middle, -, hsecond⟩ := bind_eq_ok.mp h
    exact (hf a).of_ok hsecond

theorem map {f : α → β} (hp : p.Ensures fun a kind => P (f a) kind) :
    (p >>= fun a => pure (f a)).Ensures P where
  of_ok h := by
    obtain ⟨a, middle, hfirst, hpure⟩ := bind_eq_ok.mp h
    obtain ⟨rfl, rfl⟩ := pure_eq_ok.mp hpure
    exact hp.of_ok hfirst

theorem of_pure {b : β} (hb : ∀ kind, P b kind) : (pure b : Production β).Ensures P where
  of_ok h := by
    obtain ⟨rfl, rfl⟩ := pure_eq_ok.mp h
    exact hb _

theorem optional {starts : TokenKind → Bool} {item : Production α}
    {Q : Option α → TokenKind → Prop} (hitem : item.Ensures fun a kind => Q (some a) kind)
    (hnone : ∀ kind, starts kind = false → Q none kind) :
    (Descent.optional starts item).Ensures Q where
  of_ok {stuck?} {input} {a?} {rest} h := by
    change (if starts (input.headD .endOfInput).kind then item >>= fun a => pure (some a)
      else pure none : Production (Option α)) stuck? input = _ at h
    split at h
    · exact hitem.map.of_ok h
    · rename_i hstarts
      obtain ⟨rfl, rfl⟩ := pure_eq_ok.mp h
      exact hnone _ (by simpa using hstarts)

end Ensures

namespace ReadsFrom

variable {p : Production α} {L L' : Language α}

theorem mono (hp : p.ReadsFrom starts depth L) (hL : ∀ {h ts a}, L h ts a → L' h ts a) :
    p.ReadsFrom starts depth L' where
  sound hstarts hinput hok := by
    obtain ⟨h, read, hle, heq, hread⟩ := hp.sound hstarts hinput hok
    exact ⟨h, read, hle, heq, hL hread⟩
  viable hstarts hinput herror hobjection := by
    obtain ⟨read, heq, ⟨h, more, a, hmore⟩, htarget⟩ :=
      hp.viable hstarts hinput herror hobjection
    exact ⟨read, heq, ⟨h, more, a, hL hmore⟩, htarget⟩
  inhabited := by
    obtain ⟨h, ts, a, hts⟩ := hp.inhabited
    exact ⟨h, ts, a, hL hts⟩

theorem mono_starts {starts' : TokenKind → Bool} (hp : p.ReadsFrom starts depth L)
    (hstarts : ∀ kind, starts' kind → starts kind) : p.ReadsFrom starts' depth L where
  sound h := hp.sound (hstarts _ h)
  viable h := hp.viable (hstarts _ h)
  inhabited := hp.inhabited

theorem restrict (hp : p.ReadsFrom (fun _ => true) depth L) : p.ReadsFrom starts depth L :=
  hp.mono_starts fun _ _ => rfl

theorem raise (hp : p.ReadsFrom starts depth L.raised) : p.ReadsFrom starts (depth + 1) L where
  sound hstarts hinput hok := by
    obtain ⟨h, read, hle, heq, hread⟩ := hp.sound hstarts hinput hok
    exact ⟨h + 1, read, Nat.succ_le_succ hle, heq, hread⟩
  viable hstarts hinput herror hobjection := by
    obtain ⟨read, heq, ⟨h, more, a, hmore⟩, htarget⟩ :=
      hp.viable hstarts hinput herror hobjection
    exact ⟨read, heq, ⟨h + 1, more, a, hmore⟩, htarget⟩
  inhabited := by
    obtain ⟨h, ts, a, hts⟩ := hp.inhabited
    exact ⟨h + 1, ts, a, hts⟩

theorem bind_from {f : α → Production β} {F : α → Language β} {follows : α → TokenKind → Bool}
    (hp : p.ReadsFrom starts depth L) (hfollows : p.Ensures fun a kind => follows a kind)
    (hf : ∀ a, (f a).ReadsFrom (follows a) depth (F a)) :
    (p >>= f).ReadsFrom starts depth (L.bind F) where
  sound hstarts hinput hok := by
    obtain ⟨a, middle, hfirst, hsecond⟩ := bind_eq_ok.mp hok
    have hfollow := hfollows.of_ok hfirst
    obtain ⟨h₁, read₁, hle₁, rfl, hread₁⟩ := hp.sound hstarts hinput hfirst
    obtain ⟨h₂, read₂, hle₂, rfl, hread₂⟩ :=
      (hf a).sound hfollow (fun t ht => hinput t (List.mem_append_right _ ht)) hsecond
    exact ⟨max h₁ h₂, read₁ ++ read₂, Nat.max_le.mpr ⟨hle₁, hle₂⟩,
      (List.append_assoc ..).symm, h₁, h₂, read₁, read₂, a, rfl, rfl, hread₁, hread₂⟩
  viable hstarts hinput herror hobjection := by
    rcases bind_eq_error.mp herror with hfirst | ⟨a, middle, hfirst, hsecond⟩
    · obtain ⟨read, heq, ⟨h₁, more₁, a, hmore₁⟩, htarget⟩ :=
        hp.viable hstarts hinput hfirst hobjection
      obtain ⟨h₂, more₂, b, hmore₂⟩ := (hf a).inhabited
      exact ⟨read, heq, ⟨max h₁ h₂, more₁ ++ more₂, b, h₁, h₂, read ++ more₁, more₂, a, rfl,
        (List.append_assoc ..).symm, hmore₁, hmore₂⟩, htarget⟩
    · have hfollow := hfollows.of_ok hfirst
      obtain ⟨h₁, read₁, -, rfl, hread₁⟩ := hp.sound hstarts hinput hfirst
      obtain ⟨read₂, rfl, ⟨h₂, more, b, hmore⟩, htarget⟩ :=
        (hf a).viable hfollow (fun t ht => hinput t (List.mem_append_right _ ht)) hsecond
          hobjection
      exact ⟨read₁ ++ read₂, (List.append_assoc ..).symm, ⟨max h₁ h₂, more, b, h₁, h₂, read₁,
        read₂ ++ more, a, rfl, List.append_assoc .., hread₁, hmore⟩, htarget⟩
  inhabited := by
    obtain ⟨h₁, ts₁, a, hts₁⟩ := hp.inhabited
    obtain ⟨h₂, ts₂, b, hts₂⟩ := (hf a).inhabited
    exact ⟨max h₁ h₂, ts₁ ++ ts₂, b, h₁, h₂, ts₁, ts₂, a, rfl, rfl, hts₁, hts₂⟩

theorem bind {f : α → Production β} {F : α → Language β} (hp : p.ReadsFrom starts depth L)
    (hf : ∀ a, (f a).Reads depth (F a)) : (p >>= f).ReadsFrom starts depth (L.bind F) := by
  exact hp.bind_from ⟨fun _ => rfl⟩ hf

theorem map {f : α → β} (hp : p.ReadsFrom starts depth L) :
    (p >>= fun a => Pure.pure (f a)).ReadsFrom starts depth (L.map f) where
  sound hstarts hinput hok := by
    obtain ⟨a, middle, hfirst, hpure⟩ := bind_eq_ok.mp hok
    obtain ⟨rfl, rfl⟩ := pure_eq_ok.mp hpure
    obtain ⟨h, read, hle, heq, hread⟩ := hp.sound hstarts hinput hfirst
    exact ⟨h, read, hle, heq, a, rfl, hread⟩
  viable hstarts hinput herror hobjection := by
    rcases bind_eq_error.mp herror with hfirst | ⟨a, middle, -, hpure⟩
    · obtain ⟨read, heq, ⟨h, more, a, hmore⟩, htarget⟩ :=
        hp.viable hstarts hinput hfirst hobjection
      exact ⟨read, heq, ⟨h, more, f a, a, rfl, hmore⟩, htarget⟩
    · cases hpure
  inhabited := by
    obtain ⟨h, ts, a, hts⟩ := hp.inhabited
    exact ⟨h, ts, f a, a, rfl, hts⟩

end ReadsFrom

theorem reads_pure (a : α) : (pure a : Production α).Reads depth (Language.pure a) where
  sound {stuck?} {input} {b} {rest} _ _ hok := by
    obtain ⟨rfl, rfl⟩ := pure_eq_ok.mp hok
    exact ⟨0, [], Nat.zero_le _, rfl, rfl, rfl, rfl⟩
  viable _ _ herror := by cases herror
  inhabited := ⟨0, [], a, rfl, rfl, rfl⟩

theorem reads_object {L : Language α} (hL : L.Viable []) (objection : Objection)
    (htarget : objection ≠ .assignmentTarget) :
    (object objection : Production α).Reads depth L where
  sound _ _ hok := by cases hok
  viable _ _ herror _ := by
    cases herror
    exact ⟨[], rfl, hL, fun h => absurd h htarget⟩
  inhabited := hL

theorem reads_lookahead_bind {f : Terminal → Production α} {L : Language α}
    (hf : ∀ t, starts t.kind → (f t).ReadsFrom (· == t.kind) depth L) (hL : L.Viable []) :
    (lookahead >>= f).ReadsFrom starts depth L where
  sound {_} {input} {_} {_} hstarts hinput hok :=
    (hf (input.headD .endOfInput) hstarts).sound (beq_self_eq_true _) hinput hok
  viable {_} {input} {_} {_} hstarts hinput herror hobjection :=
    (hf (input.headD .endOfInput) hstarts).viable (beq_self_eq_true _) hinput herror hobjection
  inhabited := hL

theorem reads_expect {kind : TokenKind} (hkind : ∃ t : Terminal, t.kind = kind ∧ t.Genuine) :
    (expect kind).Reads depth
      fun h ts t => h = 0 ∧ ts = [t] ∧ t.kind = kind ∧ t.Genuine where
  sound {stuck?} {input} {t} {rest} _ hinput hok := by
    by_cases hk : (input.headD .endOfInput).kind = kind
    · rw [expect_of_kind_eq hk] at hok
      have hne : input ≠ [] := by
        rintro rfl
        obtain ⟨t', rfl, ht'⟩ := hkind
        exact ht'.kind_ne_endOfInput hk.symm
      obtain rfl := eq_cons_of_advance hok hne
      exact ⟨0, [t], Nat.zero_le _, rfl, rfl, rfl, hk, hinput t List.mem_cons_self⟩
    · rw [expect_of_kind_ne hk] at hok
      cases hok
  viable {stuck?} {input} {objection} {unread} _ hinput herror hobjection := by
    obtain ⟨t, hk', ht⟩ := hkind
    by_cases hk : (input.headD .endOfInput).kind = kind
    · rw [expect_of_kind_eq hk] at herror
      obtain ⟨character, -, heq⟩ := exists_of_advance_eq_error herror
      cases heq
      exact absurd hobjection id
    · rw [expect_of_kind_ne hk] at herror
      cases herror
      exact ⟨[], rfl, ⟨0, [t], t, rfl, rfl, hk', ht⟩, nofun⟩
  inhabited := by
    obtain ⟨t, hk, ht⟩ := hkind
    exact ⟨0, [t], t, rfl, rfl, hk, ht⟩

theorem reads_skip {t : Terminal} (ht : t.Sole) :
    (skip t.kind).Reads depth fun h ts _ => h = 0 ∧ ts = [t] := by
  refine (reads_expect ⟨t, rfl, ht.genuine⟩).map.mono ?_
  rintro h ts _ ⟨t', -, rfl, rfl, hkind, ht'⟩
  exact ⟨rfl, by rw [ht.eq_of_kind_eq ht' hkind]⟩

theorem Reads.after {t : Terminal} (ht : t.Sole) {p : Unit → Production α} {L : Language α}
    (hp : (p ()).Reads depth L) : (skip t.kind >>= p).Reads depth (L.after t) := by
  refine ((reads_skip ht).bind (F := fun _ => L) fun _ => hp).mono ?_
  rintro h ts a ⟨h₁, h₂, ts₁, ts₂, -, rfl, rfl, ⟨rfl, rfl⟩, hts⟩
  exact ⟨ts₂, rfl, by rwa [Nat.zero_max]⟩

theorem Reads.between {t t' : Terminal} (ht : t.Sole) (ht' : t'.Sole) {p : Production α}
    {f : α → β} {L : Language α} (hp : p.Reads depth L) :
    (skip t.kind >>= fun _ => p >>= fun a => skip t'.kind >>= fun _ => pure (f a)).Reads depth
      fun h ts b => ∃ ts' a, ts = t :: (ts' ++ [t']) ∧ b = f a ∧ L h ts' a := by
  refine (Reads.after ht (hp.bind fun a => Reads.after ht' (reads_pure (f a)))).mono ?_
  rintro h ts _ ⟨_, rfl, h₁, h₂, ts₁, _, a, rfl, rfl, ha, _, rfl, rfl, rfl, rfl⟩
  exact ⟨ts₁, a, rfl, rfl, by rwa [Nat.max_zero]⟩

theorem reads_judge_bind {check : Terminal → Except Objection α} {f : α → Production β}
    {F : α → Language β} {L : Language β} (hend : starts .endOfInput = false)
    (hf : ∀ a, (f a).Reads depth (F a))
    (hcheck : ∀ {t a h ts b}, starts t.kind → t.Genuine → check t = .ok a → F a h ts b →
      L h (t :: ts) b)
    (hL : L.Viable []) : (judge check >>= f).ReadsFrom starts depth L where
  sound {stuck?} {input} {b} {rest} hstarts hinput hok := by
    obtain ⟨a, middle, hjudge, hsecond⟩ := bind_eq_ok.mp hok
    obtain ⟨t, hadvance, ht⟩ := judge_eq_ok.mp hjudge
    rcases input with _ | ⟨t', input⟩
    · exact absurd hstarts (by simp [Terminal.endOfInput, hend])
    · obtain ⟨rfl, rfl⟩ := List.cons.inj (eq_cons_of_advance hadvance (List.cons_ne_nil _ _))
      obtain ⟨h, read, hle, rfl, hread⟩ :=
        (hf a).sound rfl (fun t ht => hinput t (List.mem_cons_of_mem _ ht)) hsecond
      exact ⟨h, t' :: read, hle, rfl, hcheck hstarts (hinput t' List.mem_cons_self) ht hread⟩
  viable {stuck?} {input} {objection} {unread} hstarts hinput herror hobjection := by
    rcases input with _ | ⟨t', input⟩
    · exact absurd hstarts (by simp [Terminal.endOfInput, hend])
    · rcases bind_eq_error.mp herror with hjudge | ⟨a, middle, hjudge, hsecond⟩
      · rcases judge_eq_error.mp hjudge with hadvance | ⟨t, rest, objection', -, -, heq⟩
        · obtain ⟨character, -, heq⟩ := exists_of_advance_eq_error hadvance
          cases heq
          exact absurd hobjection id
        · cases heq
          exact ⟨[], rfl, hL, fun _ => List.cons_ne_nil _ _⟩
      · obtain ⟨t, hadvance, ht⟩ := judge_eq_ok.mp hjudge
        obtain ⟨rfl, rfl⟩ := List.cons.inj (eq_cons_of_advance hadvance (List.cons_ne_nil _ _))
        obtain ⟨read, rfl, ⟨h, more, b, hmore⟩, htarget⟩ :=
          (hf a).viable rfl (fun t ht => hinput t (List.mem_cons_of_mem _ ht)) hsecond hobjection
        exact ⟨t' :: read, rfl, ⟨h, more, b,
          hcheck hstarts (hinput t' List.mem_cons_self) ht hmore⟩, htarget⟩
  inhabited := hL

theorem reads_judge {check : Terminal → Except Objection α} {L : Language α}
    (hend : starts .endOfInput = false)
    (hcheck : ∀ {t a}, starts t.kind → t.Genuine → check t = .ok a → L 0 [t] a)
    (hL : L.Viable []) : (judge check).ReadsFrom starts depth L := by
  rw [← bind_pure (judge check)]
  refine reads_judge_bind hend reads_pure ?_ hL
  rintro t a h ts b hstarts ht hok ⟨rfl, rfl, rfl⟩
  exact hcheck hstarts ht hok

theorem ReadsFrom.optional {item : Production α} {L : Language α}
    (hitem : item.ReadsFrom starts depth L) :
    (Descent.optional starts item).Reads depth L.optional := by
  refine reads_lookahead_bind (fun t _ => ?_) ⟨0, [], none, rfl, rfl⟩
  split
  · rename_i ht
    refine (hitem.mono_starts fun kind hkind => ?_).map.mono ?_
    · rwa [eq_of_beq hkind]
    · rintro h ts _ ⟨a, rfl, hts⟩
      exact hts
  · refine (reads_pure none).restrict.mono ?_
    rintro h ts _ ⟨rfl, rfl, rfl⟩
    exact ⟨rfl, rfl⟩

theorem ReadsFrom.manyWithin {item : Production α} {L : Language α}
    (hitem : item.ReadsFrom starts depth L) (bound : List Terminal) :
    (manyWithin starts item bound).Reads depth L.many := by
  have hnil : ∀ {h ts as}, Language.pure ([] : List α) h ts as → L.many h ts as := by
    rintro h ts _ ⟨rfl, rfl, rfl⟩
    exact ⟨rfl, rfl⟩
  induction bound with
  | nil => exact (reads_pure []).mono hnil
  | cons t bound ih =>
      refine reads_lookahead_bind (fun t _ => ?_) ⟨0, [], [], rfl, rfl⟩
      split
      · rename_i ht
        refine ((hitem.mono_starts fun kind hkind => ?_).bind fun first => ih.map).mono ?_
        · rwa [eq_of_beq hkind]
        · rintro h ts _ ⟨h₁, h₂, ts₁, ts₂, first, rfl, rfl, hfirst, others, rfl, hothers⟩
          exact ⟨h₁, h₂, ts₁, ts₂, rfl, rfl, hfirst, hothers⟩
      · exact (reads_pure []).restrict.mono hnil

theorem ReadsFrom.many {item : Production α} {L : Language α}
    (hitem : item.ReadsFrom starts depth L) : (many starts item).Reads depth L.many where
  sound hstarts hinput hok := (hitem.manyWithin _).sound hstarts hinput hok
  viable hstarts hinput herror := (hitem.manyWithin _).viable hstarts hinput herror
  inhabited := ⟨0, [], [], rfl, rfl⟩

theorem ReadsFrom.commaSeparated {item : Production α} {L : Language α}
    (hitem : item.Reads depth L) : (commaSeparated item).Reads depth L.commaSeparated := by
  have hnext : (skip Punctuator.comma >>= fun _ => item).ReadsFrom (· == Punctuator.comma) depth
      (L.after Punctuator.comma.terminal) :=
    (Reads.after (Punctuator.sole_terminal .comma) hitem).restrict
  refine (hitem.bind fun first => hnext.many.map).mono ?_
  rintro h ts _ ⟨h₁, h₂, ts₁, ts₂, first, rfl, rfl, hfirst, others, rfl, hothers⟩
  induction others generalizing h₁ h₂ ts₁ ts₂ first with
  | nil =>
      obtain ⟨rfl, rfl⟩ := hothers
      rwa [Nat.max_zero, List.append_nil]
  | cons second others ih =>
      obtain ⟨h₃, h₄, _, ts₄, rfl, rfl, ⟨ts₃, rfl, hsecond⟩, hothers⟩ := hothers
      exact ⟨h₁, max h₃ h₄, ts₁, ts₃ ++ ts₄, rfl, rfl, hfirst, ih _ _ _ _ _ hsecond hothers⟩

theorem ensures_manyWithin {item : Production α} (hitem : item.Progresses)
    (hend : starts .endOfInput = false) {bound : List Terminal} {stuck? : Option Char}
    {input rest : List Terminal} {as : List α} (hbound : input.length ≤ bound.length)
    (h : manyWithin starts item bound stuck? input = .ok (as, rest)) :
    starts (rest.headD .endOfInput).kind = false := by
  induction bound generalizing input as with
  | nil =>
      obtain rfl := List.length_eq_zero_iff.mp (Nat.le_zero.mp hbound)
      cases h
      exact hend
  | cons t bound ih =>
      rw [manyWithin_cons] at h
      split at h
      · obtain ⟨first, middle, hfirst, hsecond⟩ := bind_eq_ok.mp h
        obtain ⟨others, rest', hothers, hpure⟩ := bind_eq_ok.mp hsecond
        obtain ⟨-, rfl⟩ := pure_eq_ok.mp hpure
        have hlt := hitem _ _ _ _ hfirst
        exact ih (Nat.le_of_lt_succ (Nat.lt_of_lt_of_le hlt hbound)) hothers
      · rename_i hstarts
        cases h
        exact Bool.eq_false_iff.mpr hstarts

theorem ensures_many {item : Production α} (hitem : item.Progresses)
    (hend : starts .endOfInput = false) :
    (many starts item).Ensures fun _ kind => starts kind = false where
  of_ok h := ensures_manyWithin hitem hend (Nat.le_refl _) h

end Production

end Letter
