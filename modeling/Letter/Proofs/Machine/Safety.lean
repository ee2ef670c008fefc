import Letter.Proofs.Grammar.Acceptance
import Letter.Proofs.Machine.Budget

namespace Letter

namespace Machine

variable {setting : Setting} {s : State} {budget : Nat}

theorem parse_of_value {next : Token} (h : nextToken setting .start = (.value next, s)) :
    parse setting budget = (run budget .program setting { s with lookahead := next }).1 := by
  have hlook : look setting .start = (.value (), { s with lookahead := next }) := bind_of_value h
  rw [parse, bind_of_value hlook]

theorem parse_of_error {e : SourceError} (h : nextToken setting .start = (.error e, s)) :
    parse setting budget = .error e := by
  have hlook : look setting .start = (.error e, s) := bind_of_error h
  rw [parse, bind_of_error hlook]

variable (hsetting : setting.Admissible)

include hsetting

theorem looked_start : Looked setting.source .start (Scan.ofSource setting.source).tokens
    (nextToken setting .start) := by
  have hlength : setting.source.toList.length < setting.source.length + 1 := by
    rw [String.length_toList]
    omega
  have hsource : setting.source.toList = [] ++ setting.source.toList := rfl
  exact looked_nextTokenWithin hsetting hsource rfl hlength rfl

theorem run_program_eq (hbudget : 32 * (setting.limit + 1) ≤ budget)
    (hs : StandsBefore setting 0 (Scan.ofSource setting.source).tokens s) :
    (run budget .program setting s).1 =
      .ofExcept (Program.parseWithin setting.limit setting.source) := by
  have hrank : Procedure.program.rank + 32 * setting.limit ≤ budget := by
    change 3 + _ ≤ _
    omega
  have hreadable : (Scan.ofSource setting.source).stuck? = none ∨
      (Scan.ofSource setting.source).terminals ≠ [] := by
    rw [Scan.terminals, ne_eq, List.map_eq_nil_iff]
    exact (Decidable.em _).imp_left hs.readable
  have hrun := (simulates_run hsetting (Nat.zero_add _) hrank).results hs trivial
  change Matches setting 0 id _ (Grammar.program setting.limit _
    (Scan.ofSource setting.source).terminals) at hrun
  dsimp only [Program.parseWithin]
  rw [Program.ofTerminals_eq hreadable]
  generalize run budget .program setting s = result, Grammar.program _ _ _ = result' at hrun ⊢
  cases hrun with
  | value hs' => rfl
  | error failure hdepth => rfl

omit hsetting

/-- A source of fewer characters than positions can be counted, and any limit that the counter of
levels can hold, lead to a program or an error, and never to a breach: no slice of the source or of
a string falls inside a character or past an end, digits always denote a number, no level is opened
past the limit or closed unopened, the cursor does not leave the source, and no line or column
overflows. -/
theorem parse_eq_ofExcept {source : String} {limit capacity budget : Nat}
    (hlength : source.length < Position.counterSize - 1) (hcapacity : limit ≤ capacity)
    (hbudget : 32 * (limit + 1) ≤ budget) :
    parse ⟨source, limit, capacity⟩ budget = .ofExcept (Program.parseWithin limit source) := by
  have hsetting : (⟨source, limit, capacity⟩ : Setting).Admissible := ⟨hlength, hcapacity⟩
  have hlooked : Looked source .start (Scan.ofSource source).tokens
      (nextToken ⟨source, limit, capacity⟩ .start) := looked_start hsetting
  have hsuffix := List.suffix_refl (Scan.ofSource source).tokens
  generalize htokens : (Scan.ofSource source).tokens = tokens at hlooked hsuffix
  generalize hnext : nextToken ⟨source, limit, capacity⟩ .start = result at hlooked
  cases hlooked with
  | token hbehind =>
      rw [parse_of_value hnext]
      apply run_program_eq hsetting hbudget
      rw [htokens]
      exact ⟨htokens ▸ hsuffix, rfl, hbehind, nofun, rfl⟩
  | close hstuck hbehind =>
      rw [parse_of_value hnext]
      apply run_program_eq hsetting hbudget
      rw [htokens]
      exact ⟨htokens ▸ hsuffix, rfl, hbehind, fun _ => hstuck, rfl⟩
  | @stuck character cursor hstuck =>
      have hterminals : (Scan.ofSource source).terminals = [] := by
        rw [Scan.terminals, htokens]
        rfl
      have hend : (Scan.ofSource source).tokenBefore 0 =
          .endOfInput (Scan.ofSource source).stop := by
        simp [Scan.tokenBefore]
      rw [parse_of_error hnext]
      dsimp only [Program.parseWithin]
      rw [hterminals, hstuck]
      change _ = Outcome.error (Objection.report source ((Scan.ofSource source).tokenBefore 0)
        (.lexical character))
      rw [hend]
      rfl

theorem parse_wide_string :
    "s = 'é€';".length < Position.counterSize - 1 ∧ 3 ≤ 3 ∧ 32 * (3 + 1) ≤ 128 ∧
      parse ⟨"s = 'é€';", 3, 3⟩ 128 = .value ⟨[.expression (.assignment .assign
        (.identifier ⟨"s"⟩) (.string "é€"))]⟩ := by
  have hlength : "s = 'é€';".length < Position.counterSize - 1 := by decide
  have hparse : Program.parseWithin 3 "s = 'é€';" = .ok ⟨[.expression (.assignment .assign
      (.identifier ⟨"s"⟩) (.string "é€"))]⟩ := by decide +kernel
  refine ⟨hlength, Nat.le_refl 3, by decide, ?_⟩
  rw [parse_eq_ofExcept hlength (Nat.le_refl 3) (by decide), hparse]
  rfl

end Machine

end Letter
