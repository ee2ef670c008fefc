import Letter.Proofs.Grammar.Acceptance
import Letter.Proofs.Grammar.Foreseen
import Letter.Proofs.Grammar.Nesting
import Letter.Proofs.Production.Agreement
import Letter.Proofs.Token.Marks

namespace Letter

/-- A fault at the end of input, where something is missing. -/
def Fault.isEnd : Fault → Bool
  | unexpectedEndOfInput _ => true
  | _ => false

/-- A fault of a token that stands where the grammar allows no such token. -/
def Fault.isMisplaced : Fault → Bool
  | unexpectedToken _ _ | unexpectedProduction _ _ | invalidAssignmentTarget => true
  | _ => false

namespace Scan

variable {source : String} {before before' after after' : List Token} {token token' : Token}

theorem eq_or_prefix_of_append_eq
    (h : before ++ token :: after = before' ++ token' :: after') :
    (before = before' ∧ token = token') ∨ before ++ [token] <+: before' ∨
      before' ++ [token'] <+: before := by
  rcases List.append_eq_append_iff.mp h with
    ⟨between, rfl, hbetween⟩ | ⟨between, rfl, hbetween⟩
  · cases between with
    | nil => exact .inl ⟨(List.append_nil _).symm, (List.cons.inj hbetween).1⟩
    | cons u between =>
        obtain ⟨rfl, -⟩ := List.cons.inj hbetween
        exact .inr (.inl ⟨between, List.append_cons .. ▸ rfl⟩)
  · cases between with
    | nil => exact .inl ⟨List.append_nil _, (List.cons.inj hbetween).1.symm⟩
    | cons u between =>
        obtain ⟨rfl, -⟩ := List.cons.inj hbetween
        exact .inr (.inr ⟨between, List.append_cons .. ▸ rfl⟩)

end Scan

namespace Objection

variable {objection : Objection} {source : String}

theorem isEnd_report (hobjection : objection.IsSyntactic) (htarget : objection ≠ .assignmentTarget)
    (stop : Nat) : (objection.report source (.endOfInput stop)).fault.isEnd := by
  cases objection with
  | expected what | noAlternative production => rfl
  | assignmentTarget => exact absurd rfl htarget
  | lexical character | nesting limit => exact hobjection.elim

theorem isMisplaced_report (hobjection : objection.IsSyntactic) {token : Token}
    (htoken : token.kind ≠ .endOfInput) :
    (objection.report source token).fault.isMisplaced ∧
      (objection.report source token).position = .ofOffset source token.offset := by
  have hend : token.isEnd = false := by
    simpa [Terminal.isEnd] using htoken
  cases objection with
  | expected what => simp [report, SourceError.unexpectedToken, hend, Fault.isMisplaced]
  | noAlternative production =>
      simp [report, SourceError.unexpectedProduction, hend, Fault.isMisplaced]
  | assignmentTarget => exact ⟨rfl, rfl⟩
  | lexical character | nesting limit => exact hobjection.elim

end Objection

theorem Fault.isEnd_eq_false_of_isMisplaced {fault : Fault} (h : fault.isMisplaced) :
    fault.isEnd = false := by
  cases fault <;> first | rfl | cases h

namespace Program

/-- The terminals of a source that is accepted at some nesting limit. -/
def Accepted (ts : List Terminal) : Prop :=
  ∃ source limit p, (Scan.ofSource source).terminals = ts ∧ parseWithin limit source = .ok p

/-- What can be continued to the terminals of an accepted source. -/
def Begun (ts : List Terminal) : Prop :=
  ∃ more, Accepted (ts ++ more)

variable {limit : Nat} {source : String} {ts : List Terminal}

theorem Begun.of_append {ts' : List Terminal} (h : Begun (ts ++ ts')) : Begun ts := by
  obtain ⟨more, hmore⟩ := h
  exact ⟨ts' ++ more, List.append_assoc ts ts' more ▸ hmore⟩

theorem accepted_iff : Accepted ts ↔ ∃ h body, Derives (.many .statement) h ts body := by
  constructor
  · rintro ⟨source, limit, p, rfl, hok⟩
    obtain ⟨h, -, hbody⟩ := derives_of_parseWithin_eq_ok hok
    exact ⟨h, p.body, hbody⟩
  · rintro ⟨h, body, hbody⟩
    exact ⟨_, h, ⟨body⟩, (Scan.ofSource_spaced hbody.genuine).1,
      parseWithin_spaced hbody (Nat.le_refl h)⟩

theorem not_accepted_of_error (hts : ∀ t ∈ ts, t.Genuine) (hlimit : ts.length ≤ limit)
    {failure : Failure} (h : ofTerminals limit none ts = .error failure) : ¬ Accepted ts := by
  intro haccepted
  obtain ⟨height, body, hbody⟩ := accepted_iff.mp haccepted
  have hok : ofTerminals limit none ts = .ok ⟨body⟩ :=
    (ofTerminals_eq_ok_iff_derives hts).mpr ⟨height, Nat.le_trans hbody.height_le hlimit, hbody⟩
  rw [h] at hok
  cases hok

/-- What stands before an objection can be continued to a program, but not by the terminal to
which it is made. -/
theorem begun_of_error (hts : ∀ t ∈ ts, t.Genuine) (hlimit : ts.length + 2 ≤ limit)
    {objection : Objection} {unread : List Terminal}
    (h : ofTerminals limit none ts = .error ⟨objection, unread⟩) :
    objection.IsSyntactic ∧ ∃ read, ts = read ++ unread ∧ Begun read ∧
      (objection = .assignmentTarget → unread ≠ []) ∧
        ∀ t rest, unread = t :: rest → ¬ Begun (read ++ [t]) := by
  have herror : Grammar.program limit none ts = .error ⟨objection, unread⟩ :=
    (program_of_ofTerminals_eq_error h).resolve_right nofun
  have hnesting : ∀ limit', objection ≠ .nesting limit' := by
    rintro limit' rfl
    exact (Grammar.spares_program (Nat.lt_of_succ_le hlimit)).ne_nesting rfl (Nat.lt_succ_self _)
      herror
  have hsyntactic : objection.IsSyntactic := by
    cases objection with
    | lexical character => cases (Grammar.steady_program limit).of_lexical herror
    | nesting limit' => exact absurd rfl (hnesting limit')
    | _ => trivial
  obtain ⟨read, rfl, ⟨height, more, p, body, -, hbody⟩, htarget⟩ :=
    (Grammar.reads_program limit).viable rfl hts herror hsyntactic
  refine ⟨hsyntactic, read, rfl, ⟨more, accepted_iff.mpr ⟨height, body, hbody⟩⟩, htarget, ?_⟩
  rintro t rest rfl ⟨more', hmore'⟩
  obtain ⟨height', body', hbody'⟩ := accepted_iff.mp hmore'
  rw [List.append_assoc, List.singleton_append] at hbody'
  have hok : ofTerminals (limit + height') none (read ++ t :: more') = .ok ⟨body'⟩ :=
    (ofTerminals_eq_ok_iff_derives hbody'.genuine).mpr
      ⟨height', Nat.le_add_left _ _, hbody'⟩
  have hfallback : objection ∉ Objection.fallbacks :=
    ((Grammar.foresees_program limit).of_error rfl (fun u hu => .inl (hts u hu))
      herror).notMem_fallbacks
  have hfailure : Grammar.program (limit + height') none (read ++ t :: more') =
      .error ⟨objection, [] ++ t :: more'⟩ :=
    (Grammar.agrees_program limit height').of_error herror hnesting hfallback none more'
      fun _ => .inl rfl
  rw [ofTerminals_eq (.inl rfl), hfailure] at hok
  cases hok

section Errors

variable {e : SourceError}

/-- Where there are levels enough, an error is at the end of what can be continued, or at the first
token that continues nothing. -/
theorem error_cases (hsource : (Scan.ofSource source).stuck? = none)
    (hlimit : (Scan.ofSource source).terminals.length + 2 ≤ limit)
    (he : parseWithin limit source = .error e) :
    ¬ Accepted (Scan.ofSource source).terminals ∧
      ((e.fault.isEnd ∧ Begun (Scan.ofSource source).terminals) ∨
        ∃ before token after, (Scan.ofSource source).tokens = before ++ token :: after ∧
          e.fault.isMisplaced ∧ e.position = .ofOffset source token.offset ∧
            Begun (before.map (·.toTerminal)) ∧
              ¬ Begun ((before ++ [token]).map (·.toTerminal))) := by
  have hts := Scan.genuine_of_mem_terminals hsource
  obtain ⟨⟨objection, unread⟩, herror, rfl⟩ := parseWithin_eq_error_iff.mp he
  rw [hsource] at herror
  refine ⟨not_accepted_of_error hts (Nat.le_of_add_right_le hlimit) herror, ?_⟩
  obtain ⟨hsyntactic, read, hread, hbegun, htarget, hfirst⟩ := begun_of_error hts hlimit herror
  cases unread with
  | nil =>
      rw [List.append_nil] at hread
      refine .inl ⟨?_, hread ▸ hbegun⟩
      change (objection.report source ((Scan.ofSource source).tokenBefore 0)).fault.isEnd = true
      rw [Scan.tokenBefore_zero]
      exact Objection.isEnd_report hsyntactic (fun h => htarget h rfl) _
  | cons t rest =>
      obtain ⟨before, others, htokens, rfl, hothers⟩ := List.map_eq_append_iff.mp hread
      obtain ⟨token, after, rfl, rfl, rfl⟩ := List.map_eq_cons_iff.mp hothers
      have hmem : token.toTerminal ∈ (Scan.ofSource source).terminals := by
        rw [hread]
        exact List.mem_append_right _ List.mem_cons_self
      have hreport : (objection.report source token).fault.isMisplaced ∧
          (objection.report source token).position = .ofOffset source token.offset :=
        Objection.isMisplaced_report hsyntactic (hts _ hmem).kind_ne_endOfInput
      have htoken : (Scan.ofSource source).tokenBefore
          (token.toTerminal :: after.map (·.toTerminal)).length = token := by
        rw [List.length_cons, List.length_map]
        exact Scan.tokenBefore_of_tokens_eq htokens
      rw [← htoken] at hreport
      refine .inr ⟨before, token, after, htokens, hreport.1, ?_, hbegun, ?_⟩
      · rw [hreport.2, htoken]
      · rw [List.map_append]
        exact hfirst _ _ rfl

theorem exists_error (h : ¬ Accepted (Scan.ofSource source).terminals) (limit : Nat) :
    ∃ e, parseWithin limit source = .error e := by
  cases hparse : parseWithin limit source with
  | ok p => exact absurd ⟨source, limit, p, rfl, hparse⟩ h
  | error e => exact ⟨e, rfl⟩

theorem begun_of_accepted {before after : List Token} {token : Token} {more : List Terminal}
    (htokens : (Scan.ofSource source).tokens = before ++ token :: after)
    (h : Accepted ((Scan.ofSource source).terminals ++ more)) :
    Begun ((before ++ [token]).map (·.toTerminal)) := by
  refine ⟨after.map (·.toTerminal) ++ more, ?_⟩
  rw [Scan.terminals, htokens, List.append_cons, List.map_append, List.append_assoc] at h
  exact h

theorem Begun.of_initial {before before' : List Token} (hinitial : before <+: before')
    (h : Begun (before'.map (·.toTerminal))) : Begun (before.map (·.toTerminal)) := by
  obtain ⟨between, rfl⟩ := hinitial
  rw [List.map_append] at h
  exact h.of_append

theorem isEnd_error_iff (hsource : (Scan.ofSource source).stuck? = none)
    (hlimit : (Scan.ofSource source).terminals.length + 2 ≤ limit) :
    (∃ e, parseWithin limit source = .error e ∧ e.fault.isEnd) ↔
      ¬ Accepted (Scan.ofSource source).terminals ∧
        ∃ more, more ≠ [] ∧ Accepted ((Scan.ofSource source).terminals ++ more) := by
  constructor
  · rintro ⟨e, he, hend⟩
    obtain ⟨hnot, ⟨-, more, hmore⟩ | ⟨before, token, after, -, hmisplaced, -⟩⟩ :=
      error_cases hsource hlimit he
    · refine ⟨hnot, more, ?_, hmore⟩
      rintro rfl
      rw [List.append_nil] at hmore
      exact hnot hmore
    · rw [Fault.isEnd_eq_false_of_isMisplaced hmisplaced] at hend
      cases hend
  · rintro ⟨hnot, more, -, hmore⟩
    obtain ⟨e, he⟩ := exists_error hnot limit
    obtain ⟨-, ⟨hend, -⟩ | ⟨before, token, after, htokens, -, -, -, hfirst⟩⟩ :=
      error_cases hsource hlimit he
    · exact ⟨e, he, hend⟩
    · exact absurd (begun_of_accepted htokens hmore) hfirst

theorem isMisplaced_error_iff (hsource : (Scan.ofSource source).stuck? = none)
    (hlimit : (Scan.ofSource source).terminals.length + 2 ≤ limit) {before after : List Token}
    {token : Token} (htokens : (Scan.ofSource source).tokens = before ++ token :: after) :
    (∃ e, parseWithin limit source = .error e ∧ e.fault.isMisplaced ∧
        e.position = .ofOffset source token.offset) ↔
      Begun (before.map (·.toTerminal)) ∧ ¬ Begun ((before ++ [token]).map (·.toTerminal)) := by
  constructor
  · rintro ⟨e, he, hmisplaced, hposition⟩
    obtain ⟨-, ⟨hend, -⟩ | ⟨before', token', after', htokens', -, hposition', hbegun, hfirst⟩⟩ :=
      error_cases hsource hlimit he
    · rw [Fault.isEnd_eq_false_of_isMisplaced hmisplaced] at hend
      cases hend
    · obtain ⟨rfl, rfl, -⟩ := Scan.eq_of_ofOffset_eq (Scan.marks_eq_of_tokens_eq htokens)
        (Scan.marks_eq_of_tokens_eq htokens') (hposition.symm.trans hposition')
      exact ⟨hbegun, hfirst⟩
  · rintro ⟨hbegun, hfirst⟩
    have hnot : ¬ Accepted (Scan.ofSource source).terminals := by
      intro haccepted
      rw [← List.append_nil (Scan.ofSource source).terminals] at haccepted
      exact hfirst (begun_of_accepted htokens haccepted)
    obtain ⟨e, he⟩ := exists_error hnot limit
    obtain ⟨-, ⟨-, more, hmore⟩ |
        ⟨before', token', after', htokens', hmisplaced, hposition, hbegun', hfirst'⟩⟩ :=
      error_cases hsource hlimit he
    · exact absurd (begun_of_accepted htokens hmore) hfirst
    · rcases Scan.eq_or_prefix_of_append_eq (htokens.symm.trans htokens') with
        ⟨rfl, rfl⟩ | hinitial | hinitial
      · exact ⟨e, he, hmisplaced, hposition⟩
      · exact absurd (hbegun'.of_initial hinitial) hfirst
      · exact absurd (hbegun.of_initial hinitial) hfirst'

end Errors

/-- With levels enough for every terminal, the end of input is reported exactly for what is
incomplete but correct so far, and a token exactly if it is the first that cannot be continued. -/
theorem error_at_first_misplaced (hsource : (Scan.ofSource source).stuck? = none)
    (hlimit : (Scan.ofSource source).terminals.length + 2 ≤ limit) :
    ((∃ e, parseWithin limit source = .error e ∧ e.fault.isEnd) ↔
      ¬ Accepted (Scan.ofSource source).terminals ∧
        ∃ more, more ≠ [] ∧ Accepted ((Scan.ofSource source).terminals ++ more)) ∧
    ∀ before token after, (Scan.ofSource source).tokens = before ++ token :: after →
      ((∃ e, parseWithin limit source = .error e ∧ e.fault.isMisplaced ∧
          e.position = .ofOffset source token.offset) ↔
        Begun (before.map (·.toTerminal)) ∧
          ¬ Begun ((before ++ [token]).map (·.toTerminal))) :=
  ⟨isEnd_error_iff hsource hlimit, fun _ _ _ => isMisplaced_error_iff hsource hlimit⟩

theorem begun_until_value :
    (Scan.ofSource "x = ;").stuck? = none ∧
      (Scan.ofSource "x = ;").terminals.length + 2 ≤ 5 ∧
      Begun [⟨.identifier, "x"⟩, ⟨.simpleAssign, "="⟩] ∧
      ¬ Begun [⟨.identifier, "x"⟩, ⟨.simpleAssign, "="⟩, ⟨Punctuator.semicolon, ";"⟩] := by
  have hsource : (Scan.ofSource "x = ;").stuck? = none := by decide +kernel
  have hlimit : (Scan.ofSource "x = ;").terminals.length + 2 ≤ 5 := by decide +kernel
  have htokens : (Scan.ofSource "x = ;").tokens =
      [⟨⟨.identifier, "x"⟩, 0⟩, ⟨⟨.simpleAssign, "="⟩, 2⟩] ++
        ⟨⟨Punctuator.semicolon, ";"⟩, 4⟩ :: [] := by
    decide +kernel
  have herror : parseWithin 5 "x = ;" =
      .error ⟨.unexpectedProduction "PrimaryExpression" ";", ⟨1, 5, 4⟩⟩ := by
    decide +kernel
  exact ⟨hsource, hlimit, ((error_at_first_misplaced hsource hlimit).2 _ _ _ htokens).mp
    ⟨_, herror, rfl, by decide +kernel⟩⟩

end Program

end Letter
