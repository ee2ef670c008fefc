import Letter.Proofs.Grammar.Acceptance
import Letter.Proofs.Grammar.Foreseen
import Letter.Proofs.Grammar.Nesting
import Letter.Proofs.Grammar.Report
import Letter.Proofs.Production.Deepening
import Letter.Proofs.Token.Marks
import Letter.Proofs.Token.Stream

namespace Letter

namespace Program

variable {limit limit' : Nat} {stuck? : Option Char} {ts : List Terminal} {source : String}

/-- With more levels to open the outcome is the same, or where there were too few of them all that
can still go wrong goes wrong no earlier. -/
theorem ofTerminals_of_le (hts : ∀ t ∈ ts, t.Lexed) (hle : limit ≤ limit') :
    ofTerminals limit' stuck? ts = ofTerminals limit stuck? ts ∨
      ∃ failure : Failure, ofTerminals limit stuck? ts = .error failure ∧
        (∃ bound, failure.objection = .nesting bound) ∧
        ∀ failure', ofTerminals limit' stuck? ts = .error failure' →
          failure'.unread <:+ failure.unread := by
  rcases readable_or stuck? ts with hts' | ⟨character, rfl, rfl⟩
  · obtain ⟨spare, rfl⟩ := Nat.exists_eq_add_of_le hle
    have hforeseen {failure : Failure}
        (h : Grammar.program (limit + spare) stuck? ts = .error failure) :=
      (Grammar.foresees_program (limit + spare)).of_error rfl hts h
    have hdeepened := (Grammar.deepens_program limit spare).deepened stuck? ts
    rw [ofTerminals_eq hts', ofTerminals_eq hts']
    generalize Grammar.program limit stuck? ts = result,
      Grammar.program (limit + spare) stuck? ts = result' at hdeepened hforeseen
    cases hdeepened with
    | same => exact .inl rfl
    | further hending =>
        refine .inr ⟨_, rfl, ⟨_, rfl⟩, fun failure' hfailure' => ?_⟩
        cases result' with
        | ok result' => cases hfailure'
        | error failure =>
            cases hfailure'
            exact hending
    | fallback hobjection => exact absurd hobjection (hforeseen rfl).notMem_fallbacks
  · exact .inl rfl

theorem parseWithin_eq_of_not_isNesting (hle : limit ≤ limit')
    (h : ∀ e, parseWithin limit source = .error e → ¬ e.fault.isNesting) :
    parseWithin limit' source = parseWithin limit source := by
  have hlexed : ∀ t ∈ (Scan.ofSource source).terminals, t.Lexed := Scan.lexed_of_mem_terminals
  rcases ofTerminals_of_le hlexed hle with
    heq | ⟨failure, hfailure, hnesting, -⟩
  · rw [parseWithin, parseWithin, heq]
  · have herror := parseWithin_eq_error_iff.mpr ⟨failure, hfailure, rfl⟩
    refine absurd ?_ (h _ herror)
    rw [Objection.fault_report]
    exact Objection.isNesting_fault_iff.mpr hnesting

theorem offset_le_of_isNesting (hle : limit ≤ limit') {e e' : SourceError}
    (he : parseWithin limit source = .error e) (hnesting : e.fault.isNesting)
    (he' : parseWithin limit' source = .error e') : e.position.offset ≤ e'.position.offset := by
  obtain ⟨failure', hfailure', rfl⟩ := parseWithin_eq_error_iff.mp he'
  have hlexed : ∀ t ∈ (Scan.ofSource source).terminals, t.Lexed := Scan.lexed_of_mem_terminals
  rcases ofTerminals_of_le hlexed hle with
    heq | ⟨failure, hfailure, ⟨bound, hobjection⟩, hfurther⟩
  · have heq' : parseWithin limit' source = parseWithin limit source := by
      rw [parseWithin, parseWithin, heq]
    rw [heq', he] at he'
    cases he'
    exact Nat.le_refl _
  · obtain ⟨failure₀, hfailure₀, rfl⟩ := parseWithin_eq_error_iff.mp he
    obtain rfl : failure = failure₀ := Except.error.inj (hfailure.symm.trans hfailure₀)
    have hnext := Scan.offset_tokenBefore_le source (hfurther failure' hfailure').length_le
    refine Nat.le_trans ?_ Objection.le_offset_report
    rw [hobjection]
    exact Nat.le_min.mpr ⟨Nat.le_trans (Nat.min_le_left _ _) hnext, Nat.min_le_right _ _⟩

theorem not_isNesting_of_length (hlimit : (Scan.ofSource source).terminals.length + 2 ≤ limit)
    {e : SourceError} (he : parseWithin limit source = .error e) : ¬ e.fault.isNesting := by
  obtain ⟨⟨objection, unread⟩, hfailure, rfl⟩ := parseWithin_eq_error_iff.mp he
  rw [Objection.fault_report, Objection.isNesting_fault_iff]
  rintro ⟨bound, rfl⟩
  rcases program_of_ofTerminals_eq_error hfailure with hprogram | ⟨-, character, -, heq⟩
  · exact (Grammar.spares_program (Nat.lt_of_succ_le hlimit)).ne_nesting rfl
      (Nat.lt_succ_self _) hprogram
  · cases heq

/-- Within a larger limit the result is the same unless there were too many levels, and then it is
no error at an earlier place. Two levels more than there are tokens are never too few. -/
theorem parseWithin_of_le (source : String) (hle : limit ≤ limit') :
    ((∀ e, parseWithin limit source = .error e → ¬ e.fault.isNesting) →
      parseWithin limit' source = parseWithin limit source) ∧
    (∀ e e', parseWithin limit source = .error e → e.fault.isNesting →
      parseWithin limit' source = .error e' → e.position.offset ≤ e'.position.offset) ∧
    ((Tokenizer.ofSource source).toList.1.countP (·.isOk) + 2 ≤ limit →
      ∀ e, parseWithin limit source = .error e → ¬ e.fault.isNesting) := by
  refine ⟨parseWithin_eq_of_not_isNesting hle, fun e e' => offset_le_of_isNesting hle,
    fun hlimit e => not_isNesting_of_length ?_⟩
  rwa [Tokenizer.countP_isOk_toList] at hlimit

/-- The second statement opens a level more than the first, and breaks off behind the operator that
opens it. Two levels more than its four tokens are enough for any text of four tokens. -/
theorem parseWithin_nine_of_le : 2 ≤ 9 ∧ 3 ≤ 9 ∧
    parseWithin 2 "a; -;" = .error ⟨.nestingTooDeep 2, ⟨1, 4, 3⟩⟩ ∧
      (∀ e, parseWithin 9 "a; -;" = .error e → 3 ≤ e.position.offset) ∧
        parseWithin 9 "a; -;" = parseWithin 3 "a; -;" ∧
          ∀ e, parseWithin 6 "a; -;" = .error e → ¬ e.fault.isNesting := by
  have hcut : parseWithin 2 "a; -;" = .error ⟨.nestingTooDeep 2, ⟨1, 4, 3⟩⟩ := by
    decide +kernel
  have hfull : parseWithin 3 "a; -;" =
      .error ⟨.unexpectedProduction "PrimaryExpression" ";", ⟨1, 5, 4⟩⟩ := by
    decide +kernel
  refine ⟨by decide, by decide, hcut,
    fun e he => (parseWithin_of_le "a; -;" (by decide)).2.1 _ e hcut rfl he,
    (parseWithin_of_le "a; -;" (by decide)).1 fun e he => ?_,
    (parseWithin_of_le "a; -;" (Nat.le_refl 6)).2.2 (by decide +kernel)⟩
  obtain rfl := Except.error.inj (hfull.symm.trans he)
  decide

end Program

end Letter
