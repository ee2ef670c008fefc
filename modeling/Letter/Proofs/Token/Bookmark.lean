import Letter.Proofs.Token.Tiling
import Mathlib.Logic.Function.Basic

/-!
A tokenizer is a bookmark in a fixed stream of tokens. All that matters is which source it is bound
to and how often it has been asked since, in whichever way, and neither copies of it nor other
tokenizers have a part in that.
-/

namespace Letter

/-- The ways to ask for what is next. -/
inductive Request where
  /-- The next token, or the end of input. -/
  | token
  /-- The next element of the sequence, if it is not over. -/
  | element
deriving DecidableEq, Repr

/-- What a request is answered, nothing where the sequence is over. -/
abbrev Answer := Option (Except SourceError Token)

/-- What is done with readers, which are kept in numbered places. -/
inductive Action where
  | create (place : Nat) (source : String)
  | copy (place target : Nat)
  | rebind (place : Nat) (source : String)
  | ask (place : Nat) (request : Request)
deriving DecidableEq, Repr

/-- A kind of reader, by how it is made, bound to another source and asked. -/
structure Reader (σ : Type) where
  create : String → σ
  rebind : σ → String → σ
  ask : Request → σ → Answer × σ

namespace Reader

variable {σ τ : Type}

/-- The answer, to a request only, and the readers after an action. -/
def step (reader : Reader σ) (places : Nat → σ) : Action → Option Answer × (Nat → σ)
  | .create place source => (none, Function.update places place (reader.create source))
  | .copy place target => (none, Function.update places target (places place))
  | .rebind place source =>
    (none, Function.update places place (reader.rebind (places place) source))
  | .ask place request =>
    let (answer, state) := reader.ask request (places place)
    (some answer, Function.update places place state)

/-- The answers to the requests among some actions, and the readers after all of them. -/
def run (reader : Reader σ) (places : Nat → σ) : List Action → List Answer × (Nat → σ)
  | [] => ([], places)
  | action :: actions =>
    let (answer?, places') := reader.step places action
    let (answers, last) := reader.run places' actions
    (answer?.toList ++ answers, last)

/-- A session, in which every place first holds a reader of nothing. -/
def session (reader : Reader σ) (actions : List Action) : List Answer × (Nat → σ) :=
  reader.run (fun _ => reader.create "") actions

/-- Readers of one kind answer as those of another that they stand for. -/
structure Simulates (reader : Reader σ) (reader' : Reader τ) (related : σ → τ → Prop) : Prop where
  create : ∀ source, related (reader.create source) (reader'.create source)
  rebind : ∀ {s s'} source, related s s' →
    related (reader.rebind s source) (reader'.rebind s' source)
  ask : ∀ {s s'} request, related s s' → (reader.ask request s).1 = (reader'.ask request s').1 ∧
    related (reader.ask request s).2 (reader'.ask request s').2

namespace Simulates

variable {reader : Reader σ} {reader' : Reader τ} {related : σ → τ → Prop} {places : Nat → σ}
  {places' : Nat → τ}

theorem update {s : σ} {s' : τ} (hplaces : ∀ i, related (places i) (places' i))
    (hs : related s s') (place i : Nat) :
    related (Function.update places place s i) (Function.update places' place s' i) := by
  by_cases hi : i = place
  · subst hi
    rwa [Function.update_self, Function.update_self]
  · rw [Function.update_of_ne hi, Function.update_of_ne hi]
    exact hplaces i

theorem step (h : reader.Simulates reader' related)
    (hplaces : ∀ i, related (places i) (places' i)) (action : Action) :
    (reader.step places action).1 = (reader'.step places' action).1 ∧
      ∀ i, related ((reader.step places action).2 i) ((reader'.step places' action).2 i) := by
  cases action with
  | create place source => exact ⟨rfl, update hplaces (h.create source) place⟩
  | copy place target => exact ⟨rfl, update hplaces (hplaces place) target⟩
  | rebind place source => exact ⟨rfl, update hplaces (h.rebind source (hplaces place)) place⟩
  | ask place request =>
      obtain ⟨hanswer, hstate⟩ := h.ask request (hplaces place)
      exact ⟨congrArg some hanswer, update hplaces hstate place⟩

theorem run (h : reader.Simulates reader' related)
    (hplaces : ∀ i, related (places i) (places' i)) (actions : List Action) :
    (reader.run places actions).1 = (reader'.run places' actions).1 ∧
      ∀ i, related ((reader.run places actions).2 i) ((reader'.run places' actions).2 i) := by
  induction actions generalizing places places' with
  | nil => exact ⟨rfl, hplaces⟩
  | cons action actions ih =>
      obtain ⟨hanswer, hplaces⟩ := h.step hplaces action
      obtain ⟨hanswers, hlast⟩ := ih hplaces
      simp only [Reader.run, hanswer, hanswers]
      exact ⟨trivial, hlast⟩

theorem session (h : reader.Simulates reader' related) (actions : List Action) :
    (reader.session actions).1 = (reader'.session actions).1 ∧
      ∀ i, related ((reader.session actions).2 i) ((reader'.session actions).2 i) :=
  h.run (fun _ => h.create "") actions

end Simulates

end Reader

/-- A place in the stream of tokens that a source makes. -/
structure Bookmark where
  source : String
  /-- How often has been asked since the source was bound. -/
  asked : Nat
deriving DecidableEq, Repr

namespace Bookmark

/-- The tokens come one by one. Behind them, tokens are asked for without end, with the end of
input or the lexical error as the answer, and the sequence is over once the error has been told. -/
def answer (b : Bookmark) (request : Request) : Answer :=
  let scan := Scan.ofSource b.source
  match scan.tokens[b.asked]?, scan.stuck?, request with
  | some token, _, _ => some (.ok token)
  | none, none, .token => some (.ok (.endOfInput b.source.utf8ByteSize))
  | none, none, .element => none
  | none, some character, .token => some (.error (.lexical b.source scan.stop character))
  | none, some character, .element =>
    if b.asked = scan.tokens.length then some (.error (.lexical b.source scan.stop character))
    else none

def next (b : Bookmark) : Bookmark :=
  { b with asked := b.asked + 1 }

def reader : Reader Bookmark where
  create source := ⟨source, 0⟩
  rebind _ source := ⟨source, 0⟩
  ask request b := (b.answer request, b.next)

end Bookmark

namespace Tokenizer

def reader : Reader Tokenizer where
  create := ofSource
  rebind := rebind
  ask
    | .token, t => (some t.nextToken.1, t.nextToken.2)
    | .element, t => t.next?

variable {source : String} {t : Tokenizer} {b : Bookmark} {cs : List Char} {cursor : Nat}
  {failed : Bool} {token : Token} {tokens : List Token}

theorem nextToken_of_tokensAt_eq_cons (source : String) (failed : Bool)
    (h : Scan.tokensAt cursor (Piece.cut cs).1 = token :: tokens) :
    ∃ before rest, cs = before ++ rest ∧
      nextToken ⟨source, cs, cursor, failed⟩ =
        (.ok token, ⟨source, rest, cursor + Text.size before, failed⟩) ∧
      Scan.tokensAt (cursor + Text.size before) (Piece.cut rest).1 = tokens ∧
      (Piece.cut rest).2 = (Piece.cut cs).2 := by
  induction cs using Piece.cut_induction generalizing cursor with
  | stuck cs hfirst =>
      rw [Piece.cut_of_first?_eq_none hfirst] at h
      cases h
  | piece cs piece rest hfirst ih =>
      rw [Piece.cut_of_first?_eq_some hfirst, Scan.tokensAt] at h
      rw [Piece.cut_of_first?_eq_some hfirst]
      cases hkind : piece.kind? with
      | none =>
          rw [hkind] at h
          obtain ⟨before, rest', rfl, hnext, htokens, hstuck⟩ := ih h
          rw [Piece.size, Nat.add_assoc, ← Text.size_append] at hnext htokens
          refine ⟨piece.text ++ before, rest', ?_, ?_, htokens, hstuck⟩
          · rw [Piece.append_of_first? hfirst, List.append_assoc]
          · rw [nextToken_of_separator hfirst hkind, Piece.size, hnext]
      | some kind =>
          rw [hkind] at h
          obtain ⟨rfl, rfl⟩ := List.cons.inj h
          exact ⟨piece.text, rest, Piece.append_of_first? hfirst,
            nextToken_of_token hfirst hkind, rfl, rfl⟩

theorem nextToken_of_tokensAt_eq_nil (source : String) (failed : Bool)
    (h : Scan.tokensAt cursor (Piece.cut cs).1 = []) :
    ∃ before, cs = before ++ (Piece.cut cs).2 ∧
      nextToken ⟨source, cs, cursor, failed⟩ =
        nextToken ⟨source, (Piece.cut cs).2, cursor + Text.size before, failed⟩ := by
  induction cs using Piece.cut_induction generalizing cursor with
  | stuck cs hfirst =>
      rw [Piece.cut_of_first?_eq_none hfirst]
      exact ⟨[], rfl, rfl⟩
  | piece cs piece rest hfirst ih =>
      rw [Piece.cut_of_first?_eq_some hfirst, Scan.tokensAt] at h
      rw [Piece.cut_of_first?_eq_some hfirst]
      cases hkind : piece.kind? with
      | none =>
          rw [hkind] at h
          obtain ⟨before, hrest, hnext⟩ := ih h
          refine ⟨piece.text ++ before, ?_, ?_⟩
          · rw [Piece.append_of_first? hfirst, List.append_assoc, ← hrest]
          · rw [nextToken_of_separator hfirst hkind, hnext, Piece.size, Text.size_append,
              Nat.add_assoc]
      | some kind =>
          rw [hkind] at h
          cases h

/-- Where a bookmark has the cursor: between characters, and where the scan stops once there was
nothing more to read. -/
structure IsAt (t : Tokenizer) (b : Bookmark) : Prop where
  source_eq : t.source = b.source
  cursor_le : t.cursor ≤ b.source.utf8ByteSize
  isBoundary : Text.IsBoundary b.source.toList t.cursor
  cursor_eq : (Scan.ofSource b.source).tokens.length < b.asked →
    t.cursor = (Scan.ofSource b.source).stop

/-- A tokenizer that can read no further. -/
def stopped (source : String) : Tokenizer :=
  ⟨source, (Piece.cut source.toList).2, (Scan.ofSource source).stop,
    (Scan.ofSource source).stuck?.isSome⟩

/-- The tokenizer reads on as a bookmark says: what is unread makes the tokens that have not been
asked for, and stops where the source does. -/
structure Follows (t : Tokenizer) (b : Bookmark) : Prop where
  source_eq : t.source = b.source
  read : ∃ before, b.source.toList = before ++ t.rest ∧ Text.size before = t.cursor
  tokens_eq : Scan.tokensAt t.cursor (Piece.cut t.rest).1 =
    (Scan.ofSource b.source).tokens.drop b.asked
  stuck_eq : (Piece.cut t.rest).2 = (Piece.cut b.source.toList).2
  failed_iff : t.failed ↔ (Scan.ofSource b.source).stuck?.isSome ∧
    (Scan.ofSource b.source).tokens.length < b.asked
  rest_eq : (Scan.ofSource b.source).tokens.length < b.asked →
    t.rest = (Piece.cut b.source.toList).2

theorem follows_ofSource (source : String) : (ofSource source).Follows ⟨source, 0⟩ where
  source_eq := rfl
  read := ⟨[], rfl, rfl⟩
  tokens_eq := rfl
  stuck_eq := rfl
  failed_iff := by simp [ofSource]
  rest_eq h := absurd h (Nat.not_lt_zero _)

namespace Follows

theorem ask_of_lt (h : t.Follows b) (request : Request)
    (hasked : b.asked < (Scan.ofSource b.source).tokens.length) :
    (reader.ask request t).1 = some (.ok (Scan.ofSource b.source).tokens[b.asked]) ∧
      (reader.ask request t).2.Follows b.next := by
  obtain ⟨source, cs, cursor, failed⟩ := t
  obtain rfl : source = b.source := h.source_eq
  obtain ⟨front, hsource, rfl⟩ := h.read
  obtain rfl : failed = false :=
    Bool.eq_false_iff.mpr fun hfailed => Nat.lt_asymm hasked (h.failed_iff.mp hfailed).2
  obtain ⟨before, rest, rfl, hnext, htokens, hstuck⟩ := nextToken_of_tokensAt_eq_cons b.source false
    (h.tokens_eq.trans (List.drop_eq_getElem_cons hasked))
  have hend : ((Scan.ofSource b.source).tokens[b.asked]).isEnd = false :=
    beq_eq_false_iff_ne.mpr (Scan.kind_ne_endOfInput_of_mem_terminals _
      (List.mem_map_of_mem (List.getElem_mem hasked)))
  have hfollows : Follows ⟨b.source, rest, Text.size front + Text.size before, false⟩ b.next :=
    { source_eq := rfl
      read := ⟨front ++ before, by rw [List.append_assoc]; exact hsource, Text.size_append _ _⟩
      tokens_eq := htokens
      stuck_eq := hstuck.trans h.stuck_eq
      failed_iff := iff_of_false Bool.false_ne_true fun ⟨_, hlt⟩ => Nat.not_lt.mpr hasked hlt
      rest_eq := fun hlt => absurd hlt (Nat.not_lt.mpr hasked) }
  cases request with
  | token =>
      simp only [reader, hnext]
      exact ⟨trivial, hfollows⟩
  | element =>
      simp only [reader, next?, hnext, hend, Bool.false_eq_true, if_false]
      exact ⟨trivial, hfollows⟩

theorem nextToken_eq (h : t.Follows b)
    (hasked : (Scan.ofSource b.source).tokens.length ≤ b.asked) :
    t.nextToken =
      (match (Scan.ofSource b.source).stuck? with
        | none => .ok (.endOfInput b.source.utf8ByteSize)
        | some character =>
          .error (.lexical b.source (Scan.ofSource b.source).stop character),
        stopped b.source) := by
  obtain ⟨source, cs, cursor, failed⟩ := t
  obtain rfl : source = b.source := h.source_eq
  obtain ⟨front, hsource, rfl⟩ := h.read
  obtain ⟨back, hrest, hnext⟩ := nextToken_of_tokensAt_eq_nil b.source failed
    (h.tokens_eq.trans (List.drop_eq_nil_of_le hasked))
  have hstuck : (Piece.cut cs).2 = (Piece.cut b.source.toList).2 := h.stuck_eq
  rw [hstuck] at hrest hnext
  have hstop : (Scan.ofSource b.source).stop = Text.size front + Text.size back := by
    rw [← Text.size_append]
    exact Scan.stop_eq_size (by rw [List.append_assoc, ← hrest]; exact hsource)
  rw [← hstop] at hnext
  have hfirst := Piece.first?_cut b.source.toList
  cases hcut : (Piece.cut b.source.toList).2 with
  | nil =>
      have hnone : (Scan.ofSource b.source).stuck? = none := congrArg List.head? hcut
      obtain rfl : failed = false :=
        Bool.eq_false_iff.mpr fun hfailed => by simpa [hnone] using h.failed_iff.mp hfailed
      rw [hnext, hcut, stopped, hcut, hnone, ← Scan.stop_of_stuck?_eq_none hnone]
      rfl
  | cons c rest =>
      have hsome : (Scan.ofSource b.source).stuck? = some c := congrArg List.head? hcut
      rw [hcut] at hfirst
      rw [hnext, hcut, nextToken_of_first?_eq_none hfirst, stopped, hcut, hsome]
      rfl

theorem eq_stopped (h : t.Follows b) (hasked : (Scan.ofSource b.source).tokens.length < b.asked) :
    t = stopped b.source := by
  obtain ⟨source, cs, cursor, failed⟩ := t
  obtain rfl : source = b.source := h.source_eq
  obtain rfl : cs = (Piece.cut b.source.toList).2 := h.rest_eq hasked
  obtain ⟨front, hsource, rfl⟩ := h.read
  obtain rfl : failed = (Scan.ofSource b.source).stuck?.isSome :=
    Bool.eq_iff_iff.mpr (h.failed_iff.trans (and_iff_left hasked))
  rw [stopped, Scan.stop_eq_size hsource]

theorem follows_stopped (hasked : (Scan.ofSource b.source).tokens.length < b.asked) :
    (stopped b.source).Follows b where
  source_eq := rfl
  read := ⟨_, (Piece.append_of_cut b.source.toList).symm, rfl⟩
  tokens_eq := by
    rw [stopped, Piece.cut_of_first?_eq_none (Piece.first?_cut _),
      List.drop_eq_nil_of_le (Nat.le_of_lt hasked)]
    rfl
  stuck_eq := by rw [stopped, Piece.cut_of_first?_eq_none (Piece.first?_cut _)]
  failed_iff := (and_iff_left hasked).symm
  rest_eq _ := rfl

/-- Behind the tokens, the end of input or the error is met again and again, and the sequence tells
of an error once. -/
theorem ask_of_le (h : t.Follows b) (request : Request)
    (hasked : (Scan.ofSource b.source).tokens.length ≤ b.asked) :
    (reader.ask request t).1 = b.answer request ∧ (reader.ask request t).2.Follows b.next := by
  have hnext := h.nextToken_eq hasked
  have hfollows : (stopped b.source).Follows b.next :=
    follows_stopped (b := b.next) (Nat.lt_succ_of_le hasked)
  have hnone := List.getElem?_eq_none hasked
  have hfailed := h.failed_iff
  cases request with
  | token =>
      simp only [reader, hnext, Bookmark.answer, hnone]
      refine ⟨?_, hfollows⟩
      cases (Scan.ofSource b.source).stuck? <;> rfl
  | element =>
      cases hstuck : (Scan.ofSource b.source).stuck? with
      | none =>
          rw [hstuck] at hnext
          simp only [reader, next?, hfailed, hstuck, hnext, Bookmark.answer, hnone]
          exact ⟨rfl, hfollows⟩
      | some character =>
          rw [hstuck] at hnext
          rcases Nat.lt_or_eq_of_le hasked with hlt | heq
          · have htold : t.failed = true := hfailed.mpr ⟨hstuck ▸ rfl, hlt⟩
            simp only [reader, next?, htold, if_true, Bookmark.answer, hnone, hstuck,
              if_neg (Nat.ne_of_gt hlt)]
            exact ⟨trivial, h.eq_stopped hlt ▸ hfollows⟩
          · have hfresh : t.failed = false :=
              Bool.eq_false_iff.mpr fun htold => Nat.ne_of_lt (hfailed.mp htold).2 heq
            simp only [reader, next?, hfresh, Bool.false_eq_true, if_false, hnext, Bookmark.answer,
              hnone, hstuck, if_pos heq.symm]
            exact ⟨trivial, hfollows⟩

theorem ask (h : t.Follows b) (request : Request) :
    (reader.ask request t).1 = b.answer request ∧ (reader.ask request t).2.Follows b.next := by
  rcases Nat.lt_or_ge b.asked (Scan.ofSource b.source).tokens.length with hlt | hle
  · have hanswer : b.answer request = some (.ok (Scan.ofSource b.source).tokens[b.asked]) := by
      simp only [Bookmark.answer, List.getElem?_eq_getElem hlt]
    rw [hanswer]
    exact h.ask_of_lt request hlt
  · exact h.ask_of_le request hle

theorem isAt (h : t.Follows b) : t.IsAt b := by
  obtain ⟨front, hsource, hcursor⟩ := h.read
  have hboundary : Text.IsBoundary b.source.toList t.cursor := ⟨front, t.rest, hsource, hcursor⟩
  exact
    { source_eq := h.source_eq
      cursor_le := Text.size_toList b.source ▸ hboundary.le_size
      isBoundary := hboundary
      cursor_eq := fun hlt => congrArg cursor (h.eq_stopped hlt) }

end Follows

theorem simulates_bookmark : reader.Simulates Bookmark.reader Follows where
  create := follows_ofSource
  rebind source _ := follows_ofSource source
  ask request h := h.ask request

/-- Whatever is done with tokenizers, each of them answers as if it were a bookmark in the tokens
of its source, and its cursor stands between characters. Binding it to a source makes a new
tokenizer of it. -/
theorem session_eq_bookmark (actions : List Action) :
    (reader.session actions).1 = (Bookmark.reader.session actions).1 ∧
      (∀ place, ((reader.session actions).2 place).IsAt
        ((Bookmark.reader.session actions).2 place)) ∧
      ∀ (t : Tokenizer) (source : String), t.rebind source = ofSource source := by
  obtain ⟨hanswers, hfollows⟩ := simulates_bookmark.session actions
  exact ⟨hanswers, fun place => (hfollows place).isAt, fun _ _ => rfl⟩

end Tokenizer

end Letter
