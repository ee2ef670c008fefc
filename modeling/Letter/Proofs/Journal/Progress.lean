import Letter.Proofs.Descent.Following
import Letter.Proofs.Grammar.Acceptance
import Letter.Proofs.Journal.Run
import Letter.Proofs.Journal.Tracking
import Letter.Proofs.Token.Stream

namespace Letter

namespace Journal

open Machine (Outcome)
open Grammar

variable {α β : Type} {source : String} {limit depth levels : Nat} {starts : Token → Prop}
  {s : State}

section Productions

variable {n : Nested} (hn : n.Orderly)

include hn

/-- All but lists of statements read at least one terminal. -/
theorem progresses_production {q : Procedure} (hq : (Activity.procedure q).isList = false) :
    (q.production n).Progresses :=
  (congruence_steady.strict_production hn q hq).progresses_left

theorem length_le_of_production {q : Procedure} {stuck? : Option Char} {input rest : List Terminal}
    {a : q.Result} (h : q.production n stuck? input = .ok (a, rest)) :
    rest.length ≤ input.length := by
  have hproduction := congruence_steady.production hn q
  cases hq : q.isList with
  | false => exact Nat.le_of_lt (progresses_production hn hq _ _ _ _ h)
  | true =>
      rw [hq] at hproduction
      exact (hproduction.1.of_ok h).length_le

end Productions

theorem tracks_rightOperand {m : Journal Expression} {operand : Production Expression}
    (hstarts : ∀ token, starts token → token.kind ≠ .endOfInput)
    (h : Tracks source limit depth m operand) :
    TracksFrom source limit depth starts id (rightOperand m) (Grammar.rightOperand operand) := by
  -- the connective is looked up when the operand to its right has been read
  constructor
  intro unread s hs hahead
  have hadvance : TracksFrom source limit depth starts Token.toTerminal advance
      Production.advance := tracks_advance hstarts
  have hread := hadvance.results hs hahead
  change Matches source limit depth id _ ((Production.advance >>= fun t => operand >>= fun right =>
    (Production.require (Spelled.ofSpelling? t.lexeme) (unread.map (·.toTerminal))
      (.expected "binary operator") : Production Connective) >>= fun connective =>
        pure (connective, right) : Production (Connective × Expression)) _ _)
  rw [rightOperand]
  simp only [Bind.bind]
  generalize hm : advance s = result, Production.advance _ _ = result' at hread
  cases hread with
  | error failure hs' => exact .error failure hs'
  | value hs' =>
      obtain rfl := eq_lookahead_of_advance hm
      have hright := h.results hs' trivial
      dsimp only
      generalize m _ = result, operand _ _ = result' at hright
      cases hright with
      | error failure hs'' => exact .error failure hs''
      | value hs'' =>
          dsimp only [judge, connectiveOf]
          cases (Spelled.ofSpelling? s.lookahead.lexeme : Option Connective) with
          | some connective => exact .value hs''
          | none => exact matches_object (f := id) _ hs hs''.follows.source_eq hs''.inOrder

theorem following (source : String) (limit depth : Nat) :
    Descent.Following Journal fun starts m p =>
      TracksFrom source limit depth (fun token => starts token.kind) id m p where
  mono h hstarts := h.mono fun token => hstarts token.kind
  pure a := tracks_pure (f := id) a
  bind h hf := h.bind hf
  lookahead_bind hf := by
    refine tracks_lookahead_bind fun token _ => (hf token.toTerminal).mono ?_
    rintro _ rfl
    rfl
  next hkind := tracks_next hkind
  skip hkind := tracks_skip hkind
  identifier := (tracks_expect (by decide)).bind fun _ => tracks_pure (f := id) _
  literal := by
    rw [literal_eq]
    exact tracks_judge (fun _ hahead => hahead) literalOf
  prefixOperator := by
    rw [prefixOperator_eq]
    exact tracks_judge (fun _ hahead => hahead) prefixOf
  assignmentOperator left := by
    rw [assignmentOperator_eq]
    exact tracks_judge (fun _ hahead => hahead) (assignmentTo left)
  noAlternative := ⟨fun hs _ => matches_object _ hs hs.follows.source_eq hs.inOrder⟩
  operands {kind _ _} hkind hoperand h := by
    have hne := ne_endOfInput_of_mem_precedence hkind
    have hend : (TokenKind.endOfInput == kind) = false := beq_eq_false_iff_ne.mpr hne.symm
    refine tracks_many hend hoperand.rightOperand (tracks_rightOperand (fun token hahead => ?_) h)
    rw [eq_of_beq hahead]
    exact hne
  many hend hitem h := tracks_many hend hitem h
  commaSeparated hitem h := tracks_list h hitem

theorem tracks_run {budget : Nat} {q : Procedure} (hlimit : depth + levels = limit)
    (hbudget : q.rank + 32 * levels ≤ budget) :
    TracksFrom source limit depth (fun token => q.Ahead token.kind) id (run budget q)
      (q.production (.within limit levels)) :=
  Descent.follows_run (following source limit) (tracks_tooDeep rfl) tracks_nested
    (fun {_ levels _ _} h =>
      have hn := Nested.within_related_steady limit levels
      h.noting (length_le_of_production hn) (progresses_production hn))
    hlimit hbudget

section Parsing

theorem run_program_eq (hs : StandsBefore source limit 0 (Scan.ofSource source).tokens s) :
    ∃ s', run (32 * (limit + 1)) .program s =
        (.ofExcept (Program.parseWithin limit source), s') ∧
      s'.InOrder source limit 0 ∧
      ∀ p, Program.parseWithin limit source = .ok p →
        s'.consumed = (Scan.ofSource source).tokens ∧ (Scan.ofSource source).stuck? = none := by
  have hbudget : Procedure.program.rank + 32 * limit ≤ 32 * (limit + 1) := by
    change 3 + 32 * limit ≤ _
    omega
  have hrun := (tracks_run (Nat.zero_add limit) hbudget).results hs trivial
  change Matches source limit 0 id _ (Grammar.program limit _ (Scan.ofSource source).terminals)
    at hrun
  have hreadable : (Scan.ofSource source).stuck? = none ∨ (Scan.ofSource source).terminals ≠ [] :=
    hs.readable_or
  dsimp only [Program.parseWithin]
  rw [Program.ofTerminals_eq hreadable]
  generalize run _ .program s = result, hprogram : Grammar.program _ _ _ = result' at hrun ⊢
  cases hrun with
  | @value p unread s' hs' =>
      have hend := Grammar.eq_nil_of_program_eq_ok Scan.kind_ne_endOfInput_of_mem_terminals hprogram
      obtain rfl := List.map_eq_nil_iff.mp hend
      have hconsumed : s'.consumed = (Scan.ofSource source).tokens := by
        rw [← hs'.append, List.append_nil]
      exact ⟨s', rfl, hs'.inOrder, fun _ _ => ⟨hconsumed, hs'.readable rfl⟩⟩
  | @error failure s' hs' =>
      refine ⟨s', rfl, hs', fun p hp => ?_⟩
      cases hp

theorem exists_parse_eq (limit : Nat) (source : String) :
    ∃ s', parse limit source = (.ofExcept (Program.parseWithin limit source), s') ∧
      s'.InOrder source limit 0 ∧
      ∀ p, Program.parseWithin limit source = .ok p →
        s'.consumed = (Scan.ofSource source).tokens ∧ (Scan.ofSource source).stuck? = none := by
  have hstart : (State.start limit source).InOrder source limit 0 :=
    ⟨List.nil_prefix, List.forall_mem_nil _, rfl, rfl⟩
  have hlooked : Looked source limit 0 (Scan.ofSource source).tokens (look (.start limit source)) :=
    looked hstart rfl (Tokenizer.follows_ofSource source)
  generalize hlook : look (.start limit source) = result,
    htokens : (Scan.ofSource source).tokens = tokens at hlooked
  cases hlooked with
  | value hs =>
      have hrun := run_program_eq (htokens ▸ hs)
      rw [parse, bind_of_value hlook]
      rwa [htokens] at hrun
  | @stuck character s' hstuck hs' =>
      have hterminals : (Scan.ofSource source).terminals = [] := by
        rw [Scan.terminals, htokens]
        rfl
      have hparse : Program.parseWithin limit source =
          .error (.lexical source (Scan.ofSource source).stop character) := by
        dsimp only [Program.parseWithin]
        rw [hterminals, hstuck]
        change Except.error (Objection.report source ((Scan.ofSource source).tokenBefore 0)
          (.lexical character)) = _
        rw [Scan.tokenBefore_zero]
        rfl
      rw [parse, bind_of_error hlook, hparse]
      refine ⟨s', rfl, hs', fun p hp => ?_⟩
      cases hp

/-- What is written down last of a source that is read as a program is the program. -/
theorem getLast?_entries_parse {limit : Nat} {source : String} {p : Program}
    (h : Program.parseWithin limit source = .ok p) :
    (parse limit source).2.entries.getLast? =
      some ⟨.procedure .program, ⟨0, 0⟩, ⟨(Scan.ofSource source).tokens.length, 0⟩⟩ := by
  obtain ⟨s', hparse, hs', hprogram⟩ := exists_parse_eq limit source
  have hmark : s'.mark = ⟨(Scan.ofSource source).tokens.length, 0⟩ := by
    rw [State.mark, (hprogram p h).1, hs'.depth_eq]
  rw [h] at hparse
  rw [hparse, ← hmark]
  have hlooked : (look (.start limit source)).2.mark = ⟨0, 0⟩ := by
    rw [look]
    rcases (State.start limit source).tokenizer.nextToken with ⟨_ | _, tokenizer⟩ <;> rfl
  rw [parse] at hparse
  simp only [Bind.bind] at hparse
  generalize look (.start limit source) = result at hparse hlooked
  obtain ⟨_ | _ | _, s⟩ := result
  case value =>
    have hlast := getLast?_entries_of_run hparse
    rwa [show s.mark = ⟨0, 0⟩ from hlooked] at hlast
  case error | breach => cases hparse

/-- However a source is read, its tokens are consumed one by one in their order, each once, and the
end of input is not. Whatever comes to a value on the way has consumed a token, a list of statements
apart, and so has every round of a loop; and it leaves as many levels open as it found. No
production of the grammar but those lists succeeds without a token. A source is read as a program
only if nothing is left of it. -/
theorem parse_consumes_in_order (limit : Nat) (source : String) :
    (parse limit source).1 = .ofExcept (Program.parseWithin limit source) ∧
      (parse limit source).2.consumed.map .ok <+: (Tokenizer.ofSource source).toList.1 ∧
      (∀ token ∈ (parse limit source).2.consumed, token.kind ≠ .endOfInput) ∧
      (∀ entry ∈ (parse limit source).2.entries, entry.InOrder source) ∧
      (∀ (levels : Nat) (q : Procedure), (Activity.procedure q).isList = false →
        (q.production (.within limit levels)).Progresses) ∧
      ∀ p, Program.parseWithin limit source = .ok p →
        (parse limit source).2.consumed.map .ok = (Tokenizer.ofSource source).toList.1 := by
  obtain ⟨s', hparse, hs', hprogram⟩ := exists_parse_eq limit source
  rw [hparse, Tokenizer.toList_ofSource]
  refine ⟨rfl, ?_, ?_, hs'.entries, fun levels q => ?_, ?_⟩
  · exact (hs'.consumed.map _).trans (List.prefix_append _ _)
  · intro token htoken
    exact Scan.kind_ne_endOfInput_of_mem_terminals _
      (List.mem_map_of_mem (hs'.consumed.subset htoken))
  · exact progresses_production (Nested.within_related_steady limit levels)
  · intro p hp
    obtain ⟨hconsumed, hstuck⟩ := hprogram p hp
    simp [hconsumed, hstuck]

example : ((parse 3 "f(a, b);").2.entries.filterMap fun entry =>
    match entry.activity with
    | .round => some (entry.before.consumed, entry.after.consumed)
    | .procedure _ => none) = [(2, 4), (4, 5), (1, 6), (0, 7)] := by
  decide +kernel

end Parsing

end Journal

end Letter
