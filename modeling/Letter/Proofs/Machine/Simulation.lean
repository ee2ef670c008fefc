import Letter.Proofs.Machine.Basic
import Letter.Proofs.Production.Congruence
import Letter.Proofs.Token.Marks

namespace Letter

namespace Machine

variable {α β γ δ : Type} {setting : Setting} {s s' : State}

section Evaluation

theorem bind_of_value {m : Machine α} {f : α → Machine β} {a : α}
    (h : m setting s = (.value a, s')) : (m >>= f) setting s = f a setting s' := by
  simp only [bind, h]

theorem bind_of_error {m : Machine α} {f : α → Machine β} {e : SourceError}
    (h : m setting s = (.error e, s')) : (m >>= f) setting s = (.error e, s') := by
  simp only [bind, h]

end Evaluation

/-- A source of which all positions can be counted, and a limit that the counter of levels can
hold. -/
structure Setting.Admissible (setting : Setting) : Prop where
  length : setting.source.length < Position.counterSize - 1
  limit_le : setting.limit ≤ setting.capacity

theorem advance_eq : advance setting s = (look >>= fun _ => pure s.lookahead) setting s :=
  rfl

theorem advance_of_value {next : Token} (h : nextToken setting s = (.value next, s')) :
    advance setting s = (.value s.lookahead, { s' with lookahead := next }) := by
  have hlook : look setting s = (.value (), { s' with lookahead := next }) := bind_of_value h
  rw [advance_eq, bind_of_value hlook]
  rfl

theorem advance_of_error {e : SourceError} (h : nextToken setting s = (.error e, s')) :
    advance setting s = (.error e, s') := by
  have hlook : look setting s = (.error e, s') := bind_of_error h
  rw [advance_eq, bind_of_error hlook]

theorem eq_lookahead_of_advance {token : Token} (h : advance setting s = (.value token, s')) :
    token = s.lookahead := by
  rw [advance_eq] at h
  simp only [bind] at h
  generalize look setting s = result at h
  rcases result with ⟨_ | _ | _, s''⟩ <;> cases h
  rfl

section Errors

variable (hsetting : setting.Admissible) {found : Token}

include hsetting

theorem locate_eq (offset : Nat) :
    locate offset setting s = (.value (.ofOffset setting.source offset), s) := by
  change require (Position.locate? setting.source offset) setting s = _
  rw [Position.locate?_eq hsetting.length]
  rfl

theorem unexpectedToken_eq {expected : String} : (unexpectedToken found expected : Machine α)
    setting s = (.error (.unexpectedToken setting.source found expected), s) := by
  rw [unexpectedToken, bind_of_value (locate_eq hsetting _), SourceError.unexpectedToken]
  split <;> rfl

theorem unexpectedProduction_eq {production : String} :
    (unexpectedProduction found production : Machine α) setting s =
      (.error (.unexpectedProduction setting.source found production), s) := by
  rw [unexpectedProduction, SourceError.unexpectedProduction]
  split
  · change (locate setting.source.utf8ByteSize >>= _ : Machine α) setting s = _
    rw [bind_of_value (locate_eq hsetting _)]
    rfl
  · rw [bind_of_value (locate_eq hsetting _)]
    rfl

theorem invalidAssignmentTarget_eq : (invalidAssignmentTarget found : Machine α) setting s =
    (.error (.invalidAssignmentTarget setting.source found), s) := by
  rw [invalidAssignmentTarget, bind_of_value (locate_eq hsetting _)]
  rfl

theorem nestingTooDeep_eq : (nestingTooDeep found : Machine α) setting s =
    (.error (.nestingTooDeep setting.source found setting.limit), s) := by
  change (locate found.offset >>= _ : Machine α) setting s = _
  rw [bind_of_value (locate_eq hsetting _)]
  rfl

theorem operatorOf_eq [Spelled α] {what : String} :
    (operatorOf found what : Machine α) setting s =
      match (Spelled.ofSpelling? found.lexeme : Option α) with
      | some operator => (.value operator, s)
      | none => (.error (.unexpectedToken setting.source found what), s) := by
  rw [operatorOf]
  cases (Spelled.ofSpelling? found.lexeme : Option α) with
  | some operator => rfl
  | none => exact unexpectedToken_eq hsetting

end Errors

section Tokens

/-- The tokens of a source that are cut off its text behind a cursor. -/
def Behind (source : String) (cursor : Nat) (tokens : List Token) : Prop :=
  ∃ before rest, source.toList = before ++ rest ∧ Text.size before = cursor ∧
    Scan.tokensAt cursor (Piece.cut rest).1 = tokens ∧
      (Piece.cut rest).2 = (Piece.cut source.toList).2

/-- What is met when the next token is looked for in front of some tokens. -/
inductive Looked (source : String) (s : State) :
    (tokens : List Token) → Outcome Token × State → Prop
  | token {token tokens cursor} (hbehind : Behind source cursor tokens) :
      Looked source s (token :: tokens) (.value token, { s with cursor := cursor })
  | close {cursor} (hstuck : (Scan.ofSource source).stuck? = none)
      (hbehind : Behind source cursor []) :
      Looked source s [] (.value (.endOfInput (Scan.ofSource source).stop),
        { s with cursor := cursor })
  | stuck {character cursor} (hstuck : (Scan.ofSource source).stuck? = some character) :
      Looked source s [] (.error (.lexical source (Scan.ofSource source).stop character),
        { s with cursor := cursor })

theorem Looked.of_moved {source : String} {cursor : Nat} {tokens : List Token}
    {result : Outcome Token × State} (h : Looked source { s with cursor := cursor } tokens result) :
    Looked source s tokens result := by
  cases h with
  | token hbehind => exact .token hbehind
  | close hstuck hbehind => exact .close hstuck hbehind
  | stuck hstuck => exact .stuck hstuck

theorem utf8ByteSize_eq {source : String} {before rest : List Char}
    (h : source.toList = before ++ rest) :
    source.utf8ByteSize = Text.size before + Text.size rest := by
  rw [← Text.size_toList, h, Text.size_append]

section Rounds

variable {bound : Nat} {rest rest' : List Char} {piece : Piece}

theorem nextTokenWithin_of_le (h : setting.source.utf8ByteSize ≤ s.cursor) :
    nextTokenWithin (bound + 1) setting s = (.value (.endOfInput s.cursor), s) := by
  change (if setting.source.utf8ByteSize ≤ s.cursor then _ else _ : Machine Token) setting s = _
  rw [if_pos h]
  rfl

theorem nextTokenWithin_of_lt (h : s.cursor < setting.source.utf8ByteSize)
    (hfrom : Text.from? s.cursor setting.source.toList = some rest) :
    nextTokenWithin (bound + 1) setting s =
      (match Piece.first? rest with
        | none => do fail ⟨.lexical (rest.headD default), ← locate s.cursor⟩
        | some (piece, _) => do
          moveTo (s.cursor + piece.size)
          match piece.kind? with
          | none => nextTokenWithin bound
          | some kind => return ⟨⟨kind, .ofList piece.text⟩, s.cursor⟩ : Machine Token)
        setting s := by
  change (if setting.source.utf8ByteSize ≤ s.cursor then _ else _ : Machine Token) setting s = _
  rw [if_neg (Nat.not_le.mpr h)]
  change (require (Text.from? s.cursor setting.source.toList) >>= _ : Machine Token) setting s = _
  rw [hfrom]
  rfl

theorem nextTokenWithin_of_first?_eq_none (hsetting : setting.Admissible)
    (h : s.cursor < setting.source.utf8ByteSize)
    (hfrom : Text.from? s.cursor setting.source.toList = some rest)
    (hfirst : Piece.first? rest = none) : nextTokenWithin (bound + 1) setting s =
      (.error (.lexical setting.source s.cursor (rest.headD default)), s) := by
  rw [nextTokenWithin_of_lt h hfrom, hfirst]
  exact bind_of_value (locate_eq hsetting s.cursor)

theorem nextTokenWithin_of_first?_eq_some (h : s.cursor < setting.source.utf8ByteSize)
    (hfrom : Text.from? s.cursor setting.source.toList = some rest)
    (hfirst : Piece.first? rest = some (piece, rest'))
    (hle : s.cursor + piece.size ≤ setting.source.utf8ByteSize) :
    nextTokenWithin (bound + 1) setting s =
      match piece.kind? with
      | none => nextTokenWithin bound setting { s with cursor := s.cursor + piece.size }
      | some kind => (.value ⟨⟨kind, .ofList piece.text⟩, s.cursor⟩,
          { s with cursor := s.cursor + piece.size }) := by
  have hmove : moveTo (s.cursor + piece.size) setting s =
      (.value (), { s with cursor := s.cursor + piece.size }) := if_pos hle
  rw [nextTokenWithin_of_lt h hfrom, hfirst]
  refine (bind_of_value hmove).trans ?_
  cases piece.kind? <;> rfl

theorem from?_eq {source : String} {before : List Char} (hsource : source.toList = before ++ rest)
    (hbefore : Text.size before = s.cursor) : Text.from? s.cursor source.toList = some rest := by
  rw [hsource, ← hbefore]
  exact Text.from?_append before rest

theorem looked_of_first?_eq_none (hsetting : setting.Admissible) {before : List Char}
    (hsource : setting.source.toList = before ++ rest) (hbefore : Text.size before = s.cursor)
    (hfirst : Piece.first? rest = none) (hcut : rest = (Piece.cut setting.source.toList).2) :
    Looked setting.source s [] (nextTokenWithin (bound + 1) setting s) := by
  have hsize := utf8ByteSize_eq hsource
  have hstuck : (Scan.ofSource setting.source).stuck? = rest.head? := by
    rw [Scan.ofSource, Scan.stuck?_ofText, ← hcut]
  have hcursor : (Scan.ofSource setting.source).stop = s.cursor := by
    have hstop := Scan.stop_add_size setting.source
    rw [← hcut] at hstop
    omega
  cases rest with
  | nil =>
      rw [Text.size] at hsize
      have hend : (Piece.cut []).2 = (Piece.cut setting.source.toList).2 := by
        rw [← hcut, Piece.cut_of_first?_eq_none hfirst]
      rw [nextTokenWithin_of_le (by omega), ← hcursor]
      refine .close hstuck ⟨before, [], hsource, hbefore, ?_, hend⟩
      rw [Piece.cut_of_first?_eq_none hfirst]
      rfl
  | cons c rest =>
      have hpos := c.utf8Size_pos
      have hfrom := from?_eq hsource hbefore
      rw [Text.size] at hsize
      rw [nextTokenWithin_of_first?_eq_none hsetting (by omega) hfrom hfirst, ← hcursor]
      exact .stuck hstuck

end Rounds

/-- The cursor passes one piece after the other and does not leave the source. -/
theorem looked_nextTokenWithin (hsetting : setting.Admissible) {bound : Nat}
    {before rest : List Char} (hsource : setting.source.toList = before ++ rest)
    (hbefore : Text.size before = s.cursor) (hbound : rest.length < bound)
    (hcut : (Piece.cut rest).2 = (Piece.cut setting.source.toList).2) :
    Looked setting.source s (Scan.tokensAt s.cursor (Piece.cut rest).1)
      (nextTokenWithin bound setting s) := by
  induction rest using Piece.cut_induction generalizing bound before s with
  | stuck rest hfirst =>
      obtain ⟨bound, rfl⟩ := Nat.exists_eq_add_one.mpr (Nat.zero_lt_of_lt hbound)
      rw [Piece.cut_of_first?_eq_none hfirst] at hcut ⊢
      exact looked_of_first?_eq_none hsetting hsource hbefore hfirst hcut
  | piece rest piece rest' hfirst ih =>
      have hrest := Piece.append_of_first? hfirst
      have hlength := Piece.length_lt_of_first? hfirst
      have hsize := utf8ByteSize_eq hsource
      have hfrom := from?_eq hsource hbefore
      have hpos := Piece.size_pos (Piece.ne_nil_of_first? hfirst)
      have hpiece : Text.size rest = piece.size + Text.size rest' := by
        rw [hrest, Text.size_append, Piece.size]
      have hsource' : setting.source.toList = before ++ piece.text ++ rest' := by
        rw [hsource, hrest, List.append_assoc]
      have hbefore' : Text.size (before ++ piece.text) = s.cursor + piece.size := by
        rw [Text.size_append, hbefore, Piece.size]
      obtain ⟨bound, rfl⟩ := Nat.exists_eq_add_one.mpr (Nat.zero_lt_of_lt hbound)
      rw [Piece.cut_of_first?_eq_some hfirst] at hcut ⊢
      rw [nextTokenWithin_of_first?_eq_some (by omega) hfrom hfirst (by omega), Scan.tokensAt]
      cases hkind : piece.kind? with
      | none =>
          have hlooked : Looked setting.source { s with cursor := s.cursor + piece.size }
              (Scan.tokensAt (s.cursor + piece.size) (Piece.cut rest').1)
              (nextTokenWithin bound setting { s with cursor := s.cursor + piece.size }) :=
            ih hsource' hbefore' (by omega) hcut
          exact hlooked.of_moved
      | some kind => exact .token ⟨before ++ piece.text, rest', hsource', hbefore', rfl, hcut⟩

end Tokens

/-- The machine has looked at the first of the tokens that are unread, or at the end if there are
none, and a number of levels are open. -/
structure StandsBefore (setting : Setting) (depth : Nat) (unread : List Token) (s : State) :
    Prop where
  suffix : unread <:+ (Scan.ofSource setting.source).tokens
  lookahead : s.lookahead = unread.headD (.endOfInput (Scan.ofSource setting.source).stop)
  behind : Behind setting.source s.cursor unread.tail
  readable : unread = [] → (Scan.ofSource setting.source).stuck? = none
  depth : s.depth = depth

namespace StandsBefore

variable {depth : Nat} {unread : List Token}

theorem headD (h : StandsBefore setting depth unread s) :
    (unread.map (·.toTerminal)).headD .endOfInput = s.lookahead.toTerminal := by
  rw [h.lookahead]
  cases unread <;> rfl

theorem tokenBefore (h : StandsBefore setting depth unread s) :
    (Scan.ofSource setting.source).tokenBefore unread.length = s.lookahead := by
  obtain ⟨read, htokens⟩ := h.suffix
  have hlength : (read ++ unread).length - unread.length = read.length := by simp
  rw [Scan.tokenBefore, ← htokens, hlength, List.drop_left, h.lookahead]

theorem lexed (h : StandsBefore setting depth unread s) :
    s.lookahead.Lexed ∨ s.lookahead.kind = .endOfInput := by
  rw [h.lookahead]
  cases unread with
  | nil => exact .inr rfl
  | cons token unread =>
      have hmem := h.suffix.subset List.mem_cons_self
      exact .inl (Scan.lexed_of_mem_terminals _ (List.mem_map_of_mem hmem))

theorem length_le (h : StandsBefore setting depth unread s) :
    unread.length ≤ setting.source.length :=
  Nat.le_trans h.suffix.length_le (Scan.length_tokens_le setting.source)

theorem withDepth (h : StandsBefore setting depth unread s) (depth' : Nat) :
    StandsBefore setting depth' unread { s with depth := depth' } :=
  ⟨h.suffix, h.lookahead, h.behind, h.readable, rfl⟩

end StandsBefore

/-- The machine comes to the same result as a production and stands where the production ends. A
failure of the production is the error that is reported of it. -/
inductive Matches (setting : Setting) (depth : Nat) (f : β → α) :
    Outcome β × State → Except Failure (α × List Terminal) → Prop
  | value {b unread s} (hs : StandsBefore setting depth unread s) :
      Matches setting depth f (.value b, s) (.ok (f b, unread.map (·.toTerminal)))
  | error (failure) {s} (hdepth : s.depth = depth) :
      Matches setting depth f (.error (failure.objection.report setting.source
        ((Scan.ofSource setting.source).tokenBefore failure.unread.length)), s) (.error failure)

theorem matches_error {depth : Nat} {f : β → α} (objection : Objection) {unread : List Token}
    (hs : StandsBefore setting depth unread s) (hdepth : s'.depth = depth) :
    Matches setting depth f (.error (objection.report setting.source s.lookahead), s')
      (.error ⟨objection, unread.map (·.toTerminal)⟩) := by
  rw [← hs.tokenBefore, ← List.length_map (f := (·.toTerminal))]
  exact .error ⟨objection, _⟩ hdepth

/-- The machine does what a production does, where `starts` holds of the token looked at and with
`depth` levels open. -/
structure SimulatesFrom (setting : Setting) (depth : Nat) (starts : Token → Prop) (f : β → α)
    (m : Machine β) (p : Production α) : Prop where
  results : ∀ {unread s}, StandsBefore setting depth unread s → starts s.lookahead →
    Matches setting depth f (m setting s)
      (p (Scan.ofSource setting.source).stuck? (unread.map (·.toTerminal)))

abbrev Simulates (setting : Setting) (depth : Nat) (m : Machine α) (p : Production α) : Prop :=
  SimulatesFrom setting depth (fun _ => True) id m p

section Productions

open Production

variable {depth : Nat} {starts starts' : Token → Prop} {f : β → α} {g : δ → γ}

namespace SimulatesFrom

variable {m : Machine β} {p : Production α}

theorem mono (h : SimulatesFrom setting depth starts f m p)
    (hstarts : ∀ token, starts' token → starts token) :
    SimulatesFrom setting depth starts' f m p :=
  ⟨fun hs hahead => h.results hs (hstarts _ hahead)⟩

theorem restrict (h : SimulatesFrom setting depth (fun _ => True) f m p) :
    SimulatesFrom setting depth starts f m p :=
  h.mono fun _ _ => trivial

theorem bind {k : β → Machine δ} {q : α → Production γ}
    (h : SimulatesFrom setting depth starts f m p)
    (hk : ∀ b, SimulatesFrom setting depth (fun _ => True) g (k b) (q (f b))) :
    SimulatesFrom setting depth starts g (m >>= k) (p >>= q) := by
  constructor
  intro unread s hs hahead
  have hfirst := h.results hs hahead
  simp only [Bind.bind]
  generalize m setting s = result, p _ _ = result' at hfirst
  cases hfirst with
  | value hs' => exact (hk _).results hs' trivial
  | error failure hdepth => exact .error failure hdepth

end SimulatesFrom

theorem simulates_pure (b : β) :
    SimulatesFrom setting depth starts f (pure b) (pure (f b)) :=
  ⟨fun hs _ => .value hs⟩

theorem SimulatesFrom.map {m : Machine β} {p : Production β} {k : β → δ}
    (h : SimulatesFrom setting depth starts id m p) :
    SimulatesFrom setting depth starts id (m >>= fun b => pure (k b))
      (p >>= fun b => pure (k b)) :=
  h.bind fun b => simulates_pure (f := id) (k b)

theorem simulates_lookahead_bind {k : Token → Machine β} {q : Terminal → Production α}
    (hk : ∀ token, starts token →
      SimulatesFrom setting depth (· = token) f (k token) (q token.toTerminal)) :
    SimulatesFrom setting depth starts f (lookahead >>= k) (Production.lookahead >>= q) := by
  constructor
  intro unread s hs hahead
  rw [lookahead_bind, hs.headD]
  exact (hk s.lookahead hahead).results hs rfl

theorem simulates_object {m : Machine β} {objection : Objection}
    (hm : ∀ {s}, starts s.lookahead →
      m setting s = (.error (objection.report setting.source s.lookahead), s)) :
    SimulatesFrom setting depth starts f m (object objection : Production α) := by
  constructor
  intro unread s hs hahead
  have hmatches := matches_error (f := f) objection hs hs.depth
  rw [← hm hahead] at hmatches
  exact hmatches

section Reading

variable (hsetting : setting.Admissible)

include hsetting

theorem StandsBefore.looked {unread : List Token} (h : StandsBefore setting depth unread s) :
    Looked setting.source s unread.tail (nextToken setting s) := by
  obtain ⟨before, rest, hsource, hbefore, htokens, hcut⟩ := h.behind
  have hlength : rest.length < setting.source.length + 1 := by
    rw [← String.length_toList, hsource, List.length_append]
    omega
  rw [← htokens]
  exact looked_nextTokenWithin hsetting hsource hbefore hlength hcut

theorem simulates_advance :
    SimulatesFrom setting depth starts Token.toTerminal advance Production.advance := by
  constructor
  intro unread s hs hahead
  have hlooked := hs.looked hsetting
  generalize hnext : nextToken setting s = result at hlooked
  cases unread with
  | nil =>
      have hlookahead : s.lookahead = .endOfInput (Scan.ofSource setting.source).stop :=
        hs.lookahead
      cases hlooked with
      | close hstuck hbehind =>
          have hvalue := advance_of_value hnext
          rw [hlookahead] at hvalue
          have hstands : StandsBefore setting depth [] { s with
              cursor := _, lookahead := .endOfInput (Scan.ofSource setting.source).stop } :=
            ⟨hs.suffix, rfl, hbehind, hs.readable, hs.depth⟩
          rw [hvalue]
          exact .value hstands
      | stuck hstuck => cases (hs.readable rfl).symm.trans hstuck
  | cons u unread =>
      have hlookahead : s.lookahead = u := hs.lookahead
      have hsuffix := (List.suffix_cons u unread).trans hs.suffix
      have hread (h : (Scan.ofSource setting.source).stuck? = none ∨
          unread.map (·.toTerminal) ≠ []) :
          Production.advance (Scan.ofSource setting.source).stuck?
            ((u :: unread).map (·.toTerminal)) = .ok (u.toTerminal, unread.map (·.toTerminal)) :=
        advance_cons h
      cases hlooked with
      | token hbehind =>
          rw [advance_of_value hnext, hread (.inr (List.cons_ne_nil _ _)), hlookahead]
          exact .value ⟨hsuffix, rfl, hbehind, nofun, hs.depth⟩
      | close hstuck hbehind =>
          rw [advance_of_value hnext, hread (.inl hstuck), hlookahead]
          exact .value ⟨hsuffix, rfl, hbehind, fun _ => hstuck, hs.depth⟩
      | @stuck character cursor hstuck =>
          have hmatches : Matches setting depth Token.toTerminal
              (.error ((Objection.lexical character).report setting.source
                ((Scan.ofSource setting.source).tokenBefore 0)), { s with cursor := cursor })
              (.error ⟨.lexical character, []⟩) := .error ⟨_, []⟩ hs.depth
          rw [Scan.tokenBefore_zero] at hmatches
          rw [advance_of_error hnext, hstuck]
          exact hmatches

theorem simulates_next {kind : TokenKind} :
    SimulatesFrom setting depth (·.kind = kind) id next (Production.skip kind) := by
  have hexpect : SimulatesFrom setting depth (·.kind = kind) Token.toTerminal advance
      (Production.expect kind) := by
    constructor
    intro unread s hs hkind
    rw [expect_of_kind_eq (by rw [hs.headD]; exact hkind)]
    have hadvance : SimulatesFrom setting depth (fun _ => True) Token.toTerminal advance
        Production.advance := simulates_advance hsetting
    exact hadvance.results hs trivial
  exact hexpect.bind fun _ => simulates_pure (f := id) ()

theorem simulates_expect (kind : TokenKind) :
    SimulatesFrom setting depth starts Token.toTerminal (expect kind)
      (Production.expect kind) := by
  refine simulates_lookahead_bind fun found _ => ?_
  split
  · exact simulates_advance hsetting
  · refine simulates_object fun hfound => ?_
    subst hfound
    exact unexpectedToken_eq hsetting

theorem simulates_skip (kind : TokenKind) :
    SimulatesFrom setting depth starts id (skip kind) (Production.skip kind) :=
  (simulates_expect hsetting kind).bind fun _ => simulates_pure (f := id) ()

/-- What a check of a token that has been read comes to. -/
def Judges (setting : Setting) (judged : Token → Machine α)
    (check : Terminal → Except Objection α) : Prop :=
  ∀ {token s}, token.Lexed ∨ token.kind = .endOfInput → judged token setting s =
    match check token.toTerminal with
    | .ok a => (.value a, s)
    | .error objection => (.error (objection.report setting.source token), s)

theorem simulates_judge {check : Terminal → Except Objection α} {judged : Token → Machine α}
    (hjudged : Judges setting judged check) :
    SimulatesFrom setting depth starts id (advance >>= judged) (judge check) := by
  constructor
  intro unread s hs hahead
  have hadvance := (simulates_advance hsetting).results hs hahead
  change Matches setting depth id _ ((Production.advance >>= fun t =>
    match check t with
    | .ok a => pure a
    | .error objection => objectAt (unread.map (·.toTerminal)) objection : Production α) _ _)
  simp only [Bind.bind]
  generalize hm : advance setting s = result, Production.advance _ _ = result' at hadvance
  cases hadvance with
  | error failure hdepth => exact .error failure hdepth
  | value hs' =>
      obtain rfl := eq_lookahead_of_advance hm
      dsimp only
      rw [hjudged hs.lexed]
      cases check s.lookahead.toTerminal with
      | ok a => exact .value hs'
      | error objection => exact matches_error objection hs hs'.depth

end Reading

section Loops

variable {kinds : TokenKind → Bool} {m : Machine α} {item : Production α}

theorem matches_manyWithin (hend : kinds .endOfInput = false) (hitem : item.Progresses)
    (h : SimulatesFrom setting depth (fun token => kinds token.kind) id m item) {bound : Nat}
    {unread : List Token} (hbound : unread.length < bound)
    (hs : StandsBefore setting depth unread s) (items : List α) :
    Matches setting depth id (manyWithin kinds m bound items setting s)
      ((Production.many kinds item >>= fun others => pure (items ++ others) :
        Production (List α)) (Scan.ofSource setting.source).stuck?
          (unread.map (·.toTerminal))) := by
  -- by induction on the bound, since every round reads a token
  induction bound generalizing unread s items with
  | zero => exact absurd hbound (Nat.not_lt_zero _)
  | succ bound ih =>
      rw [many_append_eq hitem hend, lookahead_bind, hs.headD]
      change Matches setting depth id ((if kinds s.lookahead.kind then
        m >>= fun a => manyWithin kinds m bound (items ++ [a]) else pure items :
          Machine (List α)) setting s) _
      split
      · rename_i hkind
        have hround := h.results hs hkind
        simp only [Bind.bind]
        generalize m setting s = result, hresult : item _ _ = result' at hround
        cases hround with
        | error failure hdepth => exact .error failure hdepth
        | value hs' =>
            have hlt := hitem _ _ _ _ hresult
            simp only [List.length_map] at hlt
            exact ih (by omega) hs' _
      · exact .value hs

theorem simulates_many (hend : kinds .endOfInput = false) (hitem : item.Progresses)
    (h : SimulatesFrom setting depth (fun token => kinds token.kind) id m item) :
    SimulatesFrom setting depth starts id (many kinds m) (Production.many kinds item) := by
  constructor
  intro unread s hs hahead
  have hlength := hs.length_le
  have hmatches := matches_manyWithin hend hitem h
    (show unread.length < setting.source.length + 1 by omega) hs []
  simp only [List.nil_append, bind_pure] at hmatches
  exact hmatches

theorem simulates_commaSeparated (hsetting : setting.Admissible)
    (h : Simulates setting depth m item) (hitem : item.Progresses) :
    SimulatesFrom setting depth starts id (commaSeparated m)
      (Production.commaSeparated item) := by
  have hcomma : (Punctuator.comma : TokenKind) ≠ .endOfInput := nofun
  have hnext : (Production.skip Punctuator.comma >>= fun _ => item).Progresses :=
    (congruence_steady.skip hcomma).related.1.bind_progresses fun _ => hitem
  refine h.restrict.bind fun first => (simulates_many rfl hnext ?_).map
  have hcomma : SimulatesFrom setting depth (·.kind = Punctuator.comma) id (next >>= fun _ => m)
      (Production.skip Punctuator.comma >>= fun _ => item) :=
    (simulates_next hsetting).bind fun _ => h
  exact hcomma.mono fun token hkind => eq_of_beq hkind

end Loops

section Levels

variable {m : Machine β} {p : Production α}

theorem simulates_nested (hsetting : setting.Admissible) (hdepth : depth < setting.limit)
    (h : SimulatesFrom setting (depth + 1) starts f m p) :
    SimulatesFrom setting depth starts f (nested m) p := by
  constructor
  intro unread s hs hahead
  have henter : enter setting s = (.value (), { s with depth := depth + 1 }) := by
    have hcapacity := hsetting.limit_le
    rw [enter, hs.depth, if_pos (by omega)]
  have hnested : nested m setting s = leaving m setting { s with depth := depth + 1 } := by
    change (if setting.limit ≤ s.depth then _ else enter >>= fun _ => leaving m : Machine β)
      setting s = _
    rw [hs.depth, if_neg (by omega), bind_of_value henter]
  have hlevel := h.results (hs.withDepth (depth + 1)) hahead
  rw [hnested, leaving]
  generalize m setting { s with depth := depth + 1 } = result, p _ _ = result' at hlevel
  cases hlevel with
  | @value b unread' s' hs' =>
      have hleave : leave setting s' = (.value (), { s' with depth := depth }) := by
        rw [leave, hs'.depth, if_pos (by omega), Nat.add_sub_cancel]
      dsimp only
      rw [hleave]
      exact .value (hs'.withDepth depth)
  | @error failure s' hdepth' =>
      have hleave : leave setting s' = (.value (), { s' with depth := depth }) := by
        rw [leave, hdepth', if_pos (by omega), Nat.add_sub_cancel]
      dsimp only
      rw [hleave]
      exact .error failure rfl

theorem simulates_tooDeep (hsetting : setting.Admissible) (hdepth : setting.limit = depth) :
    SimulatesFrom setting depth starts f (nested m)
      (object (.nesting setting.limit) : Production α) := by
  constructor
  intro unread s hs hahead
  have hnested : nested m setting s =
      (.error (.nestingTooDeep setting.source s.lookahead setting.limit), s) := by
    change (if setting.limit ≤ s.depth then lookahead >>= nestingTooDeep
      else enter >>= fun _ => leaving m : Machine β) setting s = _
    rw [hs.depth, if_pos (Nat.le_of_eq hdepth)]
    exact nestingTooDeep_eq hsetting
  rw [hnested]
  exact matches_error (.nesting setting.limit) hs hs.depth

end Levels

end Productions

end Machine

end Letter
