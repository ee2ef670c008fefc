import Letter.Proofs.Journal.Basic
import Letter.Proofs.Production.Congruence
import Letter.Proofs.Token.Bookmark

namespace Letter

namespace Journal

open Machine (Outcome)

variable {α β γ δ : Type} {source : String} {limit depth : Nat} {s s' : State}

section Evaluation

theorem bind_of_value {m : Journal α} {f : α → Journal β} {a : α} (h : m s = (.value a, s')) :
    (m >>= f) s = f a s' := by
  simp only [bind, h]

theorem bind_of_error {m : Journal α} {f : α → Journal β} {e : SourceError}
    (h : m s = (.error e, s')) : (m >>= f) s = (.error e, s') := by
  simp only [bind, h]

theorem advance_eq (s : State) :
    advance s = (look >>= fun _ => pure s.lookahead)
      { s with consumed := s.consumed ++ [s.lookahead] } :=
  rfl

theorem eq_lookahead_of_advance {token : Token} (h : advance s = (.value token, s')) :
    token = s.lookahead := by
  rw [advance_eq] at h
  simp only [bind] at h
  generalize look _ = result at h
  rcases result with ⟨_ | _ | _, s''⟩ <;> cases h
  rfl

end Evaluation

/-- Something that came to a value has closed the levels that it opened, and has consumed tokens of
the source, of which only a list of statements need not have any. -/
structure Entry.InOrder (source : String) (entry : Entry) : Prop where
  depth_eq : entry.after.depth = entry.before.depth
  consumed_le : entry.before.consumed ≤ entry.after.consumed
  consumed_lt : entry.activity.isList = false → entry.before.consumed < entry.after.consumed
  le_length : entry.after.consumed ≤ (Scan.ofSource source).tokens.length

/-- What holds of a reader also when it has failed. -/
structure State.InOrder (source : String) (limit depth : Nat) (s : State) : Prop where
  consumed : s.consumed <+: (Scan.ofSource source).tokens
  entries : ∀ entry ∈ s.entries, entry.InOrder source
  depth_eq : s.depth = depth
  limit_eq : s.limit = limit

theorem State.InOrder.looking (h : s.InOrder source limit depth) (tokenizer : Tokenizer)
    (lookahead : Token) :
    State.InOrder source limit depth { s with tokenizer := tokenizer, lookahead := lookahead } :=
  ⟨h.consumed, h.entries, h.depth_eq, h.limit_eq⟩

/-- A reader has looked at the first of the tokens that are unread, or at the end if there are none,
and has consumed those before it. -/
structure StandsBefore (source : String) (limit depth : Nat) (unread : List Token) (s : State) :
    Prop where
  inOrder : s.InOrder source limit depth
  append : s.consumed ++ unread = (Scan.ofSource source).tokens
  lookahead : s.lookahead = unread.headD (.endOfInput (Scan.ofSource source).stop)
  follows : s.tokenizer.Follows ⟨source, s.consumed.length + 1⟩
  readable : unread = [] → (Scan.ofSource source).stuck? = none

namespace StandsBefore

variable {unread : List Token}

theorem headD (h : StandsBefore source limit depth unread s) :
    (unread.map (·.toTerminal)).headD .endOfInput = s.lookahead.toTerminal := by
  rw [h.lookahead]
  cases unread <;> rfl

theorem length_add (h : StandsBefore source limit depth unread s) :
    s.consumed.length + unread.length = (Scan.ofSource source).tokens.length := by
  rw [← h.append, List.length_append]

theorem tokenBefore (h : StandsBefore source limit depth unread s) :
    (Scan.ofSource source).tokenBefore unread.length = s.lookahead := by
  have hlength : (s.consumed ++ unread).length - unread.length = s.consumed.length := by simp
  rw [Scan.tokenBefore, ← h.append, hlength, List.drop_left, h.lookahead]

theorem length_le (h : StandsBefore source limit depth unread s) :
    unread.length ≤ s.tokenizer.source.length := by
  have hsource : s.tokenizer.source = source := h.follows.source_eq
  have hlength := h.length_add
  have htokens := Scan.length_tokens_le source
  rw [hsource]
  omega

theorem exists_cons (h : StandsBefore source limit depth unread s)
    (hkind : s.lookahead.kind ≠ .endOfInput) :
    ∃ unread', unread = s.lookahead :: unread' := by
  have hlookahead := h.lookahead
  cases unread with
  | nil => exact absurd (congrArg (·.kind) hlookahead) hkind
  | cons token unread => exact ⟨unread, by rw [hlookahead]; rfl⟩

theorem readable_or (h : StandsBefore source limit depth unread s) :
    (Scan.ofSource source).stuck? = none ∨ unread.map (·.toTerminal) ≠ [] := by
  rw [ne_eq, List.map_eq_nil_iff]
  exact (Decidable.em _).imp_left h.readable

theorem withDepth (h : StandsBefore source limit depth unread s) (depth' : Nat) :
    StandsBefore source limit depth' unread { s with depth := depth' } :=
  ⟨⟨h.inOrder.consumed, h.inOrder.entries, rfl, h.inOrder.limit_eq⟩, h.append, h.lookahead,
    h.follows, h.readable⟩

end StandsBefore

/-- A reader comes to the result of a production and stands where the production ends. A failure of
the production is the error that is reported of it. -/
inductive Matches (source : String) (limit depth : Nat) (f : β → α) :
    Outcome β × State → Except Failure (α × List Terminal) → Prop
  | value {b unread s} (hs : StandsBefore source limit depth unread s) :
      Matches source limit depth f (.value b, s) (.ok (f b, unread.map (·.toTerminal)))
  | error (failure) {s} (hs : s.InOrder source limit depth) :
      Matches source limit depth f (.error (failure.objection.report source
        ((Scan.ofSource source).tokenBefore failure.unread.length)), s) (.error failure)

theorem matches_object {f : β → α} {unread : List Token} (objection : Objection)
    (hs : StandsBefore source limit depth unread s)
    (hsource : s'.tokenizer.source = source) (hs' : s'.InOrder source limit depth) :
    Matches source limit depth f (object s.lookahead objection s')
      (.error ⟨objection, unread.map (·.toTerminal)⟩) := by
  rw [object, hsource, ← hs.tokenBefore, ← List.length_map (f := (·.toTerminal))]
  exact .error ⟨objection, _⟩ hs'

/-- A reader keeps track of a production where `starts` holds of the token looked at and `depth`
levels are open. -/
structure TracksFrom (source : String) (limit depth : Nat) (starts : Token → Prop) (f : β → α)
    (m : Journal β) (p : Production α) : Prop where
  results : ∀ {unread s}, StandsBefore source limit depth unread s → starts s.lookahead →
    Matches source limit depth f (m s)
      (p (Scan.ofSource source).stuck? (unread.map (·.toTerminal)))

abbrev Tracks (source : String) (limit depth : Nat) (m : Journal α) (p : Production α) : Prop :=
  TracksFrom source limit depth (fun _ => True) id m p

section Productions

open Production Grammar

variable {starts starts' : Token → Prop} {f : β → α} {g : δ → γ}

namespace TracksFrom

variable {m : Journal β} {p : Production α}

theorem mono (h : TracksFrom source limit depth starts f m p)
    (hstarts : ∀ token, starts' token → starts token) :
    TracksFrom source limit depth starts' f m p :=
  ⟨fun hs hahead => h.results hs (hstarts _ hahead)⟩

theorem seeing {token : Token} (h : TracksFrom source limit depth starts f m p)
    (htoken : starts token) : TracksFrom source limit depth (· = token) f m p := by
  refine h.mono ?_
  rintro _ rfl
  exact htoken

theorem bind {k : β → Journal δ} {q : α → Production γ}
    (h : TracksFrom source limit depth starts f m p)
    (hk : ∀ b, TracksFrom source limit depth (fun _ => True) g (k b) (q (f b))) :
    TracksFrom source limit depth starts g (m >>= k) (p >>= q) := by
  constructor
  intro unread s hs hahead
  have hfirst := h.results hs hahead
  simp only [Bind.bind]
  generalize m s = result, p _ _ = result' at hfirst
  cases hfirst with
  | value hs' => exact (hk _).results hs' trivial
  | error failure hs' => exact .error failure hs'

end TracksFrom

theorem tracks_pure (b : β) : TracksFrom source limit depth starts f (pure b) (pure (f b)) :=
  ⟨fun hs _ => .value hs⟩

theorem tracks_lookahead_bind {k : Token → Journal β} {q : Terminal → Production α}
    (hk : ∀ token, starts token →
      TracksFrom source limit depth (· = token) f (k token) (q token.toTerminal)) :
    TracksFrom source limit depth starts f (lookahead >>= k) (Production.lookahead >>= q) := by
  constructor
  intro unread s hs hahead
  rw [lookahead_bind, hs.headD]
  exact (hk s.lookahead hahead).results hs rfl

theorem tracks_object (found : Token) (objection : Objection) :
    TracksFrom source limit depth (· = found) f (object found objection)
      (Production.object objection : Production α) := by
  constructor
  rintro unread s hs rfl
  exact matches_object objection hs hs.follows.source_eq hs.inOrder

section Consuming

/-- What is met when the next token is looked for in front of some tokens: the first of them, or the
end, unless the source breaks off. -/
inductive Looked (source : String) (limit depth : Nat) :
    (unread : List Token) → Outcome Unit × State → Prop
  | value {unread s} (hs : StandsBefore source limit depth unread s) :
      Looked source limit depth unread (.value (), s)
  | stuck {character s} (hstuck : (Scan.ofSource source).stuck? = some character)
      (hs : s.InOrder source limit depth) :
      Looked source limit depth []
        (.error (.lexical source (Scan.ofSource source).stop character), s)

theorem looked {unread : List Token} (hs : s.InOrder source limit depth)
    (happend : s.consumed ++ unread = (Scan.ofSource source).tokens)
    (hfollows : s.tokenizer.Follows ⟨source, s.consumed.length⟩) :
    Looked source limit depth unread (look s) := by
  have hnext : (Scan.ofSource source).tokens[s.consumed.length]? = unread.head? := by
    rw [← happend, List.getElem?_append_right (Nat.le_refl _), Nat.sub_self]
    cases unread <;> rfl
  obtain ⟨hanswer, hfollows'⟩ := hfollows.ask .token
  change some s.tokenizer.nextToken.1 =
    Bookmark.answer ⟨source, s.consumed.length⟩ .token at hanswer
  change s.tokenizer.nextToken.2.Follows _ at hfollows'
  simp only [Bookmark.answer, hnext] at hanswer
  rw [look]
  generalize s.tokenizer.nextToken = result at hanswer hfollows'
  obtain ⟨answer, tokenizer⟩ := result
  rcases unread with _ | ⟨next, unread⟩
  · cases hstuck : (Scan.ofSource source).stuck? with
    | none =>
        rw [hstuck, ← Scan.stop_of_stuck?_eq_none hstuck] at hanswer
        obtain rfl : answer = .ok _ := Option.some.inj hanswer
        exact .value ⟨hs.looking _ _, happend, rfl, hfollows', fun _ => hstuck⟩
    | some character =>
        rw [hstuck] at hanswer
        obtain rfl : answer = .error _ := Option.some.inj hanswer
        exact .stuck hstuck (hs.looking tokenizer s.lookahead)
  · obtain rfl : answer = .ok next := Option.some.inj hanswer
    exact .value ⟨hs.looking _ _, happend, rfl, hfollows',
      fun hnil => absurd hnil (List.cons_ne_nil next unread)⟩

theorem tracks_advance (hstarts : ∀ token, starts token → token.kind ≠ .endOfInput) :
    TracksFrom source limit depth starts Token.toTerminal advance Production.advance := by
  constructor
  intro unread s hs hahead
  obtain ⟨unread, rfl⟩ := hs.exists_cons (hstarts _ hahead)
  have happend : (s.consumed ++ [s.lookahead]) ++ unread = (Scan.ofSource source).tokens := by
    rw [List.append_assoc]
    exact hs.append
  have hfollows : s.tokenizer.Follows ⟨source, (s.consumed ++ [s.lookahead]).length⟩ := by
    rw [List.length_append]
    exact hs.follows
  have hinOrder : State.InOrder source limit depth
      { s with consumed := s.consumed ++ [s.lookahead] } :=
    ⟨⟨unread, happend⟩, hs.inOrder.entries, hs.inOrder.depth_eq, hs.inOrder.limit_eq⟩
  have hlooked := looked hinOrder happend hfollows
  rw [advance_eq]
  generalize hlook : look _ = result at hlooked
  cases hlooked with
  | value hs' =>
      have hadvance : Production.advance (Scan.ofSource source).stuck?
          ((s.lookahead :: unread).map (·.toTerminal)) =
            .ok (s.lookahead.toTerminal, unread.map (·.toTerminal)) := advance_cons hs'.readable_or
      rw [bind_of_value hlook, hadvance]
      exact .value hs'
  | @stuck character s' hstuck hs' =>
      have hmatches : Matches source limit depth Token.toTerminal
          (.error ((Objection.lexical character).report source
            ((Scan.ofSource source).tokenBefore 0)), s') (.error ⟨.lexical character, []⟩) :=
        .error ⟨_, []⟩ hs'
      rw [Scan.tokenBefore_zero] at hmatches
      rw [bind_of_error hlook, hstuck]
      exact hmatches

theorem tracks_next {kind : TokenKind} (hkind : kind ≠ .endOfInput) :
    TracksFrom source limit depth (·.kind = kind) id next (Production.skip kind) := by
  have hexpect : TracksFrom source limit depth (·.kind = kind) Token.toTerminal advance
      (Production.expect kind) := by
    constructor
    intro unread s hs hahead
    rw [expect_of_kind_eq (by rw [hs.headD]; exact hahead)]
    have hadvance : TracksFrom source limit depth (·.kind = kind) Token.toTerminal advance
        Production.advance := tracks_advance fun _ hahead => hahead ▸ hkind
    exact hadvance.results hs hahead
  exact hexpect.bind fun _ => tracks_pure (f := id) ()

theorem tracks_expect {kind : TokenKind} (hkind : kind ≠ .endOfInput) :
    TracksFrom source limit depth starts Token.toTerminal (expect kind)
      (Production.expect kind) := by
  refine tracks_lookahead_bind fun found _ => ?_
  split
  · rename_i hfound
    refine tracks_advance ?_
    rintro _ rfl
    exact fun hend => hkind (hfound.symm.trans hend)
  · exact tracks_object found _

theorem tracks_skip {kind : TokenKind} (hkind : kind ≠ .endOfInput) :
    TracksFrom source limit depth starts id (skip kind) (Production.skip kind) :=
  (tracks_expect hkind).bind fun _ => tracks_pure (f := id) ()

theorem tracks_judge (hstarts : ∀ token, starts token → token.kind ≠ .endOfInput)
    (check : Terminal → Except Objection α) :
    TracksFrom source limit depth starts id (advance >>= judge check)
      (Production.judge check) := by
  constructor
  intro unread s hs hahead
  have hread : TracksFrom source limit depth starts Token.toTerminal advance Production.advance :=
    tracks_advance hstarts
  have hadvance := hread.results hs hahead
  generalize hm : advance s = result, hp : Production.advance _ _ = result' at hadvance
  cases hadvance with
  | error failure hs' =>
      rw [bind_of_error hm, judge_eq_error.mpr (.inl hp)]
      exact .error failure hs'
  | value hs' =>
      obtain rfl := eq_lookahead_of_advance hm
      rw [bind_of_value hm, judge]
      cases hcheck : check s.lookahead.toTerminal with
      | ok a =>
          rw [judge_eq_ok.mpr ⟨_, hp, hcheck⟩]
          exact .value hs'
      | error objection =>
          rw [judge_eq_error.mpr (.inr ⟨_, _, _, hp, hcheck, rfl⟩)]
          exact matches_object objection hs hs'.follows.source_eq hs'.inOrder

end Consuming

section Noting

variable {m : Journal α} {p : Production α}

/-- What is written down is in order if nothing is unread again, and something more has been read
where that is said. -/
theorem TracksFrom.noting {activity : Activity}
    (h : TracksFrom source limit depth starts id m p)
    (hle : ∀ {stuck? input a rest}, p stuck? input = .ok (a, rest) → rest.length ≤ input.length)
    (hlt : activity.isList = false → p.Progresses) :
    TracksFrom source limit depth starts id (noting activity m) p := by
  constructor
  intro unread s hs hahead
  have hresults := h.results hs hahead
  rw [Journal.noting]
  generalize m s = result, hp : p _ _ = result' at hresults
  cases hresults with
  | error failure hs' => exact .error failure hs'
  | @value a unread' s' hs' =>
      have hlength := hs.length_add
      have hlength' := hs'.length_add
      have hunread : unread'.length ≤ unread.length := by simpa using hle hp
      have hentry : Entry.InOrder source ⟨activity, s.mark, s'.mark⟩ := by
        constructor
        · exact hs'.inOrder.depth_eq.trans hs.inOrder.depth_eq.symm
        · change s.consumed.length ≤ s'.consumed.length
          omega
        · intro hactivity
          have hread : unread'.length < unread.length := by
            simpa using hlt hactivity _ _ _ _ hp
          change s.consumed.length < s'.consumed.length
          omega
        · exact Nat.le.intro hlength'
      have hentries : ∀ entry ∈ s'.entries ++ [⟨activity, s.mark, s'.mark⟩],
          entry.InOrder source :=
        List.forall_mem_append.mpr ⟨hs'.inOrder.entries, by simpa using hentry⟩
      have hinOrder : State.InOrder source limit depth
          { s' with entries := s'.entries ++ [⟨activity, s.mark, s'.mark⟩] } :=
        ⟨hs'.inOrder.consumed, hentries, hs'.inOrder.depth_eq, hs'.inOrder.limit_eq⟩
      exact .value ⟨hinOrder, hs'.append, hs'.lookahead, hs'.follows, hs'.readable⟩

theorem TracksFrom.noting_round (h : TracksFrom source limit depth starts id m p)
    (hp : p.Progresses) :
    TracksFrom source limit depth starts id (Journal.noting .round m) p :=
  h.noting (fun hok => Nat.le_of_lt (hp _ _ _ _ hok)) fun _ => hp

end Noting

section Levels

variable {m : Journal β} {p : Production α}

theorem tracks_nested (hdepth : depth < limit)
    (h : TracksFrom source limit (depth + 1) starts f m p) :
    TracksFrom source limit depth starts f (nested m) p := by
  constructor
  intro unread s hs hahead
  have hopen : ¬ s.limit ≤ s.depth := by
    rw [hs.inOrder.limit_eq, hs.inOrder.depth_eq]
    omega
  have hlevel := h.results (hs.withDepth (depth + 1)) hahead
  rw [nested, if_neg hopen, hs.inOrder.depth_eq]
  generalize m { s with depth := depth + 1 } = result, p _ _ = result' at hlevel
  cases hlevel with
  | @value b unread' s' hs' =>
      have hclosed := hs'.withDepth (s'.depth - 1)
      rw [hs'.inOrder.depth_eq] at hclosed
      dsimp only
      rw [hs'.inOrder.depth_eq]
      exact .value hclosed
  | @error failure s' hs' =>
      have hdepth' : s'.depth - 1 = depth := by
        rw [hs'.depth_eq]
        rfl
      have hclosed : State.InOrder source limit depth { s' with depth := s'.depth - 1 } :=
        ⟨hs'.consumed, hs'.entries, hdepth', hs'.limit_eq⟩
      exact .error failure hclosed

theorem tracks_tooDeep (hdepth : limit = depth) :
    TracksFrom source limit depth starts f (nested m)
      (Production.object (.nesting limit) : Production α) := by
  constructor
  intro unread s hs hahead
  have hclosed : s.limit ≤ s.depth :=
    Nat.le_of_eq (hs.inOrder.limit_eq.trans (hdepth.trans hs.inOrder.depth_eq.symm))
  rw [nested, if_pos hclosed, hs.inOrder.limit_eq]
  exact matches_object (.nesting limit) hs hs.follows.source_eq hs.inOrder

end Levels

section Loops

variable {kinds : TokenKind → Bool} {m : Journal α} {item : Production α}

theorem matches_manyWithin (hend : kinds .endOfInput = false) (hitem : item.Progresses)
    (h : TracksFrom source limit depth (fun token => kinds token.kind) id m item) {bound : Nat}
    {unread : List Token} (hbound : unread.length < bound)
    (hs : StandsBefore source limit depth unread s) (items : List α) :
    Matches source limit depth id (manyWithin kinds m bound items s)
      ((Production.many kinds item >>= fun others => pure (items ++ others) :
        Production (List α)) (Scan.ofSource source).stuck? (unread.map (·.toTerminal))) := by
  -- by induction on the bound, since every round consumes a token
  induction bound generalizing unread s items with
  | zero => exact absurd hbound (Nat.not_lt_zero _)
  | succ bound ih =>
      rw [many_append_eq hitem hend, lookahead_bind, hs.headD]
      change Matches source limit depth id ((if kinds s.lookahead.kind then
        noting .round m >>= fun a => manyWithin kinds m bound (items ++ [a]) else pure items :
          Journal (List α)) s) _
      split
      · rename_i hkind
        have hround := (h.noting_round hitem).results hs hkind
        simp only [Bind.bind]
        generalize noting .round m s = result, hresult : item _ _ = result' at hround
        cases hround with
        | error failure hs' => exact .error failure hs'
        | value hs' =>
            have hlt := hitem _ _ _ _ hresult
            simp only [List.length_map] at hlt
            exact ih (by omega) hs' _
      · exact .value hs

theorem tracks_many (hend : kinds .endOfInput = false) (hitem : item.Progresses)
    (h : TracksFrom source limit depth (fun token => kinds token.kind) id m item) :
    TracksFrom source limit depth starts id (many kinds m) (Production.many kinds item) := by
  constructor
  intro unread s hs hahead
  have hmatches := matches_manyWithin hend hitem h (Nat.lt_succ_of_le hs.length_le) hs []
  simp only [List.nil_append, bind_pure] at hmatches
  exact hmatches

end Loops

section Lists

variable {item : Production α}

/-- An item and, if there is one, the comma behind it. -/
def listedOne (item : Production α) (items : List α) : Production (List α × Bool) := do
  let a ← item
  if (← Production.lookahead).kind = Punctuator.comma then
    Production.skip Punctuator.comma
    return (items ++ [a], true)
  else return (items ++ [a], false)

theorem progresses_listedOne (hitem : item.Progresses) (items : List α) :
    (listedOne item items).Progresses := by
  refine hitem.bind_steady fun a => steady_lookahead.bind fun t => ?_
  split
  · exact (congruence_steady.skip (by decide)).related.1.bind fun _ => steady_pure _
  · exact steady_pure _

theorem commaSeparated_bind_eq (hitem : item.Progresses) (items : List α) :
    (Production.commaSeparated item >>= fun others => pure (items ++ others)) =
      listedOne item items >>= fun (items, more) =>
        if more then Production.commaSeparated item >>= fun others => pure (items ++ others)
        else pure items := by
  have hnext : (Production.skip Punctuator.comma >>= fun _ => item).Progresses :=
    (congruence_steady.skip (by decide)).related.1.bind_progresses fun _ => hitem
  simp only [listedOne, bind_assoc]
  change (item >>= fun first =>
    Production.many (· == Punctuator.comma) (Production.skip Punctuator.comma >>= fun _ => item) >>=
      fun others => pure (first :: others)) >>= _ = _
  simp only [bind_assoc, pure_bind]
  refine congrArg (item >>= ·) (funext fun a => ?_)
  rw [many_eq hnext rfl, bind_assoc]
  refine congrArg (Production.lookahead >>= ·) (funext fun t => ?_)
  by_cases hcomma : t.kind = Punctuator.comma
  · simp [hcomma, Production.commaSeparated]
  · simp [hcomma]

variable {m : Journal α} (h : Tracks source limit depth m item)

include h

theorem tracks_listOne (items : List α) :
    Tracks source limit depth (listOne m items) (listedOne item items) := by
  refine h.bind fun a => tracks_lookahead_bind fun token _ => ?_
  split
  · rename_i hcomma
    exact ((tracks_next (by decide)).seeing hcomma).bind fun _ => tracks_pure _
  · exact tracks_pure (f := id) _

theorem matches_listWithin (hitem : item.Progresses) {bound : Nat} {unread : List Token}
    (hbound : unread.length < bound) (hs : StandsBefore source limit depth unread s)
    (items : List α) :
    Matches source limit depth id (listWithin m bound items s)
      ((Production.commaSeparated item >>= fun others => pure (items ++ others) :
        Production (List α)) (Scan.ofSource source).stuck? (unread.map (·.toTerminal))) := by
  induction bound generalizing unread s items with
  | zero => exact absurd hbound (Nat.not_lt_zero _)
  | succ bound ih =>
      have hprogresses := progresses_listedOne hitem items
      have hround := ((tracks_listOne h items).noting_round hprogresses).results hs trivial
      rw [commaSeparated_bind_eq hitem, listWithin]
      simp only [Bind.bind]
      generalize noting .round (listOne m items) s = result,
        hresult : listedOne item items _ _ = result' at hround
      cases hround with
      | error failure hs' => exact .error failure hs'
      | @value a unread' s' hs' =>
          obtain ⟨items, more⟩ := a
          have hlt := hprogresses _ _ _ _ hresult
          simp only [List.length_map] at hlt
          cases more with
          | false => exact .value hs'
          | true => exact ih (by omega) hs' items

theorem tracks_list (hitem : item.Progresses) :
    TracksFrom source limit depth starts id (list m) (Production.commaSeparated item) := by
  constructor
  intro unread s hs hahead
  have hmatches := matches_listWithin h hitem (Nat.lt_succ_of_le hs.length_le) hs []
  simp only [List.nil_append, bind_pure] at hmatches
  exact hmatches

end Lists

end Productions

end Journal

end Letter
