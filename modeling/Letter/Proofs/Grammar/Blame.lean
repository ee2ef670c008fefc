import Letter.Proofs.Grammar.Layout
import Letter.Proofs.Production.Bounding
import Letter.Proofs.Token.Tiling

namespace Letter

/-- A token that the tokenizer makes of a source. -/
def Tokenizer.Yields (source : String) (token : Token) : Prop :=
  Except.ok token ∈ (ofSource source).toList.1

theorem Tokenizer.yields_of_mem_tokens {source : String} {token : Token}
    (h : token ∈ (Scan.ofSource source).tokens) : Yields source token := by
  rw [Yields, toList_ofSource]
  exact List.mem_append_left _ (List.mem_map_of_mem h)

theorem Tokenizer.yields_iff {source : String} {token : Token} :
    Yields source token ↔ token ∈ (Scan.ofSource source).tokens := by
  refine ⟨fun h => ?_, yields_of_mem_tokens⟩
  rw [Yields, toList_ofSource] at h
  rcases List.mem_append.mp h with htoken | herror
  · obtain ⟨token', htoken', heq⟩ := List.mem_map.mp htoken
    cases heq
    exact htoken'
  · obtain ⟨e, -, heq⟩ := Option.map_eq_some_iff.mp (Option.mem_toList.mp herror)
    cases heq

/-- What a fault says of the offset at which it is reported. -/
def Fault.HoldsAt (source : String) (limit offset : Nat) : Fault → Prop
  | lexical character => ∃ after, Text.StandsAt source.toList offset [character] after
  | unexpectedToken found _ | unexpectedProduction _ found =>
    found ≠ "" ∧ (∃ kind, Tokenizer.Yields source ⟨⟨kind, found⟩, offset⟩) ∧
      ∃ after, Text.StandsAt source.toList offset found.toList after
  | unexpectedEndOfInput _ => offset = source.utf8ByteSize
  | invalidAssignmentTarget =>
    ∃ operator : AssignmentOperator, Tokenizer.Yields source ⟨operator.terminal, offset⟩
  | nestingTooDeep limit' => limit' = limit ∧
    ((∃ t, Tokenizer.Yields source ⟨t, offset⟩) ∨ offset = source.utf8ByteSize)

namespace Scan

variable {source : String} {token : Token} {character : Char}

theorem standsAt_of_mem_tokens (h : token ∈ (ofSource source).tokens) :
    token.lexeme ≠ "" ∧
      ∃ after, Text.StandsAt source.toList token.offset token.lexeme.toList after :=
  have hsource : source.toList = [] ++ source.toList := rfl
  (Tiled.of_cut 0 source.toList).standsAt hsource rfl h

theorem standsAt_of_stuck? (h : (ofSource source).stuck? = some character) :
    ∃ after, Text.StandsAt source.toList (ofSource source).stop [character] after := by
  obtain ⟨after, hrest⟩ : ∃ after, (Piece.cut source.toList).2 = character :: after :=
    List.head?_eq_some_iff.mp h
  have hcut := Piece.append_of_cut source.toList
  rw [hrest] at hcut
  exact ⟨after, _, hcut.symm, rfl⟩

end Scan

namespace Program

variable {limit : Nat} {source : String} {objection : Objection} {front : List Token}
  {token : Token} {e : SourceError}

theorem isBounded_of_ofTerminals_eq_error {stuck? : Option Char} {ts : List Terminal}
    {failure : Failure} (h : ofTerminals limit stuck? ts = .error failure) :
    failure.IsBounded limit := by
  rcases program_of_ofTerminals_eq_error h with hprogram | ⟨-, character, -, rfl⟩
  · exact (Grammar.bounded_program limit).of_error hprogram
  · rfl

theorem lexical_of_parseWithin_eq_error (he : parseWithin limit source = .error e)
    (hlexical : e.isLexical) : ∃ character, (Scan.ofSource source).stuck? = some character ∧
      ofTerminals limit (some character) (Scan.ofSource source).terminals =
        .error ⟨.lexical character, []⟩ ∧
      e = .lexical source (Scan.ofSource source).stop character := by
  obtain ⟨⟨objection, unread⟩, hfailure, rfl⟩ := parseWithin_eq_error_iff.mp he
  have hobjection : ∃ character, objection = .lexical character := by
    rw [SourceError.isLexical, Objection.fault_report] at hlexical
    cases objection with
    | lexical character => exact ⟨character, rfl⟩
    | expected what | noAlternative production =>
        rw [Objection.fault] at hlexical
        split at hlexical <;> cases hlexical
    | _ => cases hlexical
  obtain ⟨character, rfl⟩ := hobjection
  obtain rfl : unread = [] := isBounded_of_ofTerminals_eq_error hfailure
  have hstuck : (Scan.ofSource source).stuck? = some character := by
    rcases program_of_ofTerminals_eq_error hfailure with hprogram | ⟨-, character', hstuck, heq⟩
    · exact (Grammar.steady_program limit).of_lexical hprogram
    · cases heq
      exact hstuck
  refine ⟨character, hstuck, hstuck ▸ hfailure, ?_⟩
  simp [Objection.report, Scan.tokenBefore, Token.endOfInput]

namespace FailsAt

theorem holdsAt_token {back : List Token} (htokens : (Scan.ofSource source).tokens =
    front ++ token :: back) (hfailure : ofTerminals limit (Scan.ofSource source).stuck?
      (Scan.ofSource source).terminals = .error ⟨objection, (token :: back).map (·.toTerminal)⟩) :
    (objection.fault token.toTerminal).HoldsAt source limit token.offset := by
  have hmem : token ∈ (Scan.ofSource source).tokens := by
    rw [htokens]
    exact List.mem_append_right _ List.mem_cons_self
  have hyields : Tokenizer.Yields source token := Tokenizer.yields_of_mem_tokens hmem
  obtain ⟨hne, hstands⟩ := Scan.standsAt_of_mem_tokens hmem
  have hlexed : ∀ t ∈ (Scan.ofSource source).terminals, t.Lexed := Scan.lexed_of_mem_terminals
  have hend : token.isEnd = false :=
    beq_eq_false_iff_ne.mpr (hlexed _ (List.mem_map_of_mem hmem)).kind_ne_endOfInput
  have hbounded := isBounded_of_ofTerminals_eq_error hfailure
  cases objection with
  | lexical character => cases hbounded
  | expected what =>
      rw [Objection.fault, hend]
      exact ⟨hne, ⟨token.kind, hyields⟩, hstands⟩
  | noAlternative production =>
      rw [Objection.fault, hend]
      exact ⟨hne, ⟨token.kind, hyields⟩, hstands⟩
  | assignmentTarget =>
      have hprogram := (program_of_ofTerminals_eq_error hfailure).resolve_right (by
        rintro ⟨-, _, -, heq⟩
        cases heq)
      obtain ⟨operator, hoperator⟩ := (Grammar.foresees_program limit).of_error rfl hlexed hprogram
      obtain hterminal : token.toTerminal = operator.terminal := Option.some.inj hoperator
      exact ⟨operator, hterminal ▸ hyields⟩
  | nesting limit' => exact ⟨hbounded, .inl ⟨token.toTerminal, hyields⟩⟩

theorem holdsAt_end (hstuck : (Scan.ofSource source).stuck? = none)
    (hfailure : ofTerminals limit none (Scan.ofSource source).terminals =
      .error ⟨objection, []⟩) :
    (objection.fault .endOfInput).HoldsAt source limit (Scan.ofSource source).stop := by
  have hstop := Scan.stop_of_stuck?_eq_none hstuck
  have hprogram := (program_of_ofTerminals_eq_error hfailure).resolve_right nofun
  cases objection with
  | lexical character => cases (Grammar.steady_program limit).of_lexical hprogram
  | expected what => exact hstop
  | noAlternative production => exact hstop
  | assignmentTarget =>
      obtain ⟨operator, hoperator⟩ :=
        (Grammar.foresees_program limit).of_error rfl Scan.lexed_of_mem_terminals hprogram
      cases hoperator
  | nesting limit' => exact ⟨isBounded_of_ofTerminals_eq_error hfailure, .inr hstop⟩

theorem holdsAt (h : FailsAt limit (Scan.ofSource source) objection front token) :
    Text.IsBoundary source.toList token.offset ∧
      (objection.fault token.toTerminal).HoldsAt source limit token.offset := by
  cases h with
  | token htokens hfailure =>
      have hmem : token ∈ (Scan.ofSource source).tokens := by
        rw [htokens]
        exact List.mem_append_right _ List.mem_cons_self
      obtain ⟨-, after, hstands⟩ := Scan.standsAt_of_mem_tokens hmem
      exact ⟨hstands.isBoundary, holdsAt_token htokens hfailure⟩
  | close hstuck hfailure =>
      refine ⟨?_, holdsAt_end hstuck hfailure⟩
      change Text.IsBoundary source.toList (Scan.ofSource source).stop
      rw [Scan.stop_of_stuck?_eq_none hstuck, ← Text.size_toList]
      exact Text.isBoundary_size source.toList

end FailsAt

/-- Every error is reported at a boundary of the source at which what it says holds: a token that
is found stands there, and where the end of input is found the source ends. -/
theorem holdsAt_of_parseWithin_eq_error (he : parseWithin limit source = .error e) :
    ∃ offset ≤ source.utf8ByteSize, Text.IsBoundary source.toList offset ∧
      e.position = .ofOffset source offset ∧ e.fault.HoldsAt source limit offset := by
  suffices h : ∃ offset, Text.IsBoundary source.toList offset ∧
      e.position = .ofOffset source offset ∧ e.fault.HoldsAt source limit offset by
    obtain ⟨offset, hboundary, hrest⟩ := h
    exact ⟨offset, Text.size_toList source ▸ hboundary.le_size, hboundary, hrest⟩
  cases hlexical : e.isLexical with
  | true =>
      obtain ⟨character, hstuck, -, rfl⟩ := lexical_of_parseWithin_eq_error he hlexical
      obtain ⟨after, hstands⟩ := Scan.standsAt_of_stuck? hstuck
      exact ⟨_, hstands.isBoundary, rfl, after, hstands⟩
  | false =>
      obtain ⟨objection, front, token, hfails⟩ := exists_failsAt he hlexical
      obtain rfl := Except.error.inj (he.symm.trans hfails.parseWithin_eq)
      exact ⟨token.offset, hfails.holdsAt.1, rfl, hfails.holdsAt.2⟩

/-- The value of an assignment would open a third level, where the source ends. -/
theorem holdsAt_of_missing_value :
    parseWithin 2 "/*é*/ a =\n" = .error ⟨.nestingTooDeep 2, ⟨2, 1, 11⟩⟩ ∧
      ∃ offset ≤ 11, Text.IsBoundary "/*é*/ a =\n".toList offset ∧
        (⟨2, 1, 11⟩ : Position) = .ofOffset "/*é*/ a =\n" offset ∧
          (Fault.nestingTooDeep 2).HoldsAt "/*é*/ a =\n" 2 offset := by
  have he : parseWithin 2 "/*é*/ a =\n" = .error ⟨.nestingTooDeep 2, ⟨2, 1, 11⟩⟩ := by
    decide +kernel
  exact ⟨he, holdsAt_of_parseWithin_eq_error he⟩

end Program

end Letter
