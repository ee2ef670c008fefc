import Letter.Proofs.Grammar.Acceptance
import Letter.Proofs.Grammar.Foreseen
import Letter.Proofs.Grammar.Report
import Letter.Proofs.Production.Agreement
import Letter.Proofs.Token.Marks

namespace Letter

namespace Scan

/-- What follows the last token. -/
def close (scan : Scan) : Except Char Token :=
  match scan.stuck? with
  | none => .ok (.endOfInput scan.stop)
  | some character => .error character

/-- The tokens one by one, with the end of input as the last, or the character at which no token
can begin. -/
def elements (scan : Scan) : List (Except Char Token) :=
  scan.tokens.map .ok ++ [scan.close]

variable {scan : Scan} {before after : List (Except Char Token)} {token : Token}

theorem close_eq_ok_iff :
    scan.close = .ok token ↔ scan.stuck? = none ∧ token = .endOfInput scan.stop := by
  rw [close]
  cases scan.stuck? with
  | none => simp [eq_comm]
  | some character => simp

theorem map_ok_inj {α : Type} {as as' : List α} :
    as.map (.ok : α → Except Char α) = as'.map .ok ↔ as = as' :=
  List.map_inj_right fun _ _ => Except.ok.inj

theorem elements_eq_append_cons (h : scan.elements = before ++ .ok token :: after) :
    ∃ front, before = front.map .ok ∧
      ((∃ back, scan.tokens = front ++ token :: back ∧
          after = back.map .ok ++ [scan.close]) ∨
        scan.tokens = front ∧ scan.stuck? = none ∧ token = .endOfInput scan.stop) := by
  rcases List.append_eq_append_iff.mp h with ⟨between, hbefore, hclose⟩ | ⟨between, htokens, hafter⟩
  · cases between with
    | nil =>
        obtain ⟨hclose, -⟩ := List.cons.inj hclose
        rw [List.append_nil] at hbefore
        exact ⟨scan.tokens, hbefore, .inr ⟨rfl, close_eq_ok_iff.mp hclose⟩⟩
    | cons element between =>
        obtain ⟨-, hnil⟩ := List.cons.inj hclose
        simp at hnil
  · obtain ⟨front, others, hsplit, rfl, hothers⟩ := List.map_eq_append_iff.mp htokens
    cases between with
    | nil =>
        obtain rfl := List.map_eq_nil_iff.mp hothers
        rw [List.append_nil] at hsplit
        obtain ⟨hclose, -⟩ := List.cons.inj hafter
        exact ⟨front, rfl, .inr ⟨hsplit, close_eq_ok_iff.mp hclose.symm⟩⟩
    | cons element between =>
        obtain ⟨u, back, rfl, hu, rfl⟩ := List.map_eq_cons_iff.mp hothers
        obtain ⟨rfl, rfl⟩ := List.cons.inj hafter
        obtain rfl := Except.ok.inj hu
        exact ⟨front, rfl, .inl ⟨back, hsplit, rfl⟩⟩

theorem exists_marks_eq_of_elements_eq (h : scan.elements = before ++ .ok token :: after) :
    ∃ front rest, before = front.map .ok ∧ scan.marks = front ++ token :: rest := by
  obtain ⟨front, rfl, ⟨back, htokens, -⟩ | ⟨htokens, -, rfl⟩⟩ := elements_eq_append_cons h
  · exact ⟨front, _, rfl, marks_eq_of_tokens_eq htokens⟩
  · exact ⟨front, [], rfl, by rw [marks, htokens]⟩

end Scan

namespace Program

variable {limit : Nat} {source source' : String} {objection : Objection} {front front' : List Token}
  {token token' : Token}

/-- The terminals of a source fail at a token, or at the end if the source is read to its end. -/
inductive FailsAt (limit : Nat) (scan : Scan) (objection : Objection) :
    (front : List Token) → (token : Token) → Prop
  | token {front token back} (htokens : scan.tokens = front ++ token :: back)
      (hfailure : ofTerminals limit scan.stuck? scan.terminals =
        .error ⟨objection, (token :: back).map (·.toTerminal)⟩) :
      FailsAt limit scan objection front token
  | close (hstuck : scan.stuck? = none)
      (hfailure : ofTerminals limit none scan.terminals = .error ⟨objection, []⟩) :
      FailsAt limit scan objection scan.tokens (.endOfInput scan.stop)

namespace FailsAt

theorem parseWithin_eq (h : FailsAt limit (Scan.ofSource source) objection front token) :
    parseWithin limit source =
      .error ⟨objection.fault token.toTerminal, .ofOffset source token.offset⟩ := by
  refine parseWithin_eq_error_iff.mpr ?_
  cases h with
  | @token front token back htokens hfailure =>
      refine ⟨_, hfailure, ?_⟩
      have hmem : token.toTerminal ∈ (Scan.ofSource source).terminals := by
        rw [Scan.terminals, htokens]
        exact List.mem_map_of_mem (List.mem_append_right _ List.mem_cons_self)
      rw [List.length_map, List.length_cons, Scan.tokenBefore_of_tokens_eq htokens]
      refine (Objection.report_eq fun hend => ?_).symm
      exact absurd (eq_of_beq hend) (Scan.kind_ne_endOfInput_of_mem_terminals _ hmem)
  | close hstuck hfailure =>
      refine ⟨_, hstuck ▸ hfailure, ?_⟩
      rw [List.length_nil, Scan.tokenBefore_zero]
      exact (Objection.report_eq fun _ => Scan.stop_of_stuck?_eq_none hstuck).symm

theorem exists_marks_eq {scan : Scan} (h : FailsAt limit scan objection front token) :
    ∃ rest, scan.marks = front ++ token :: rest := by
  cases h with
  | token htokens hfailure => exact ⟨_, Scan.marks_eq_of_tokens_eq htokens⟩
  | close hstuck hfailure => exact ⟨[], rfl⟩

end FailsAt

theorem exists_failsAt {e : SourceError} (he : parseWithin limit source = .error e)
    (hlexical : e.isLexical = false) :
    ∃ objection front token, FailsAt limit (Scan.ofSource source) objection front token := by
  obtain ⟨⟨objection, unread⟩, hfailure, rfl⟩ := parseWithin_eq_error_iff.mp he
  have hobjection : ∀ character, objection ≠ .lexical character := by
    rintro character rfl
    cases hlexical
  have hprogram := (program_of_ofTerminals_eq_error hfailure).resolve_right
    fun ⟨_, character, _, heq⟩ => hobjection character (congrArg Failure.objection heq)
  obtain ⟨read, hread⟩ := (Grammar.steady_program limit).of_error hprogram
  obtain ⟨front, back, htokens, rfl, rfl⟩ := List.map_eq_append_iff.mp hread.symm
  cases back with
  | cons token back => exact ⟨objection, front, token, .token htokens hfailure⟩
  | nil =>
      cases hstuck : (Scan.ofSource source).stuck? with
      | none =>
          rw [hstuck] at hfailure
          exact ⟨objection, _, _, .close hstuck hfailure⟩
      | some character =>
          rw [hstuck] at hfailure hprogram
          rcases (Grammar.steady_program limit).of_error_nil hprogram with hnil | hlexical
          · rw [hnil] at hfailure
            cases hfailure
            exact absurd rfl (hobjection character)
          · exact absurd hlexical (hobjection character)

theorem ofTerminals_eq_error_congr {before after after' : List Terminal} {t : Terminal}
    {stuck? stuck?' : Option Char} (hlexed : ∀ u ∈ before ++ t :: after, u.Lexed)
    (h : ofTerminals limit stuck? (before ++ t :: after) = .error ⟨objection, t :: after⟩)
    (htarget : objection = .assignmentTarget → stuck?' = none ∨ after' ≠ []) :
    ofTerminals limit stuck?' (before ++ t :: after') = .error ⟨objection, t :: after'⟩ := by
  have hprogram : Grammar.program limit stuck? (before ++ t :: after) =
      .error ⟨objection, [] ++ t :: after⟩ :=
    (program_of_ofTerminals_eq_error h).resolve_right fun ⟨hnil, _⟩ => by simp at hnil
  have hfallback :=
    ((Grammar.foresees_program limit).of_error rfl hlexed hprogram).notMem_fallbacks
  rw [ofTerminals_eq (.inr (by simp)),
    (Grammar.agrees_program_self limit).of_error hprogram trivial hfallback stuck?' after' htarget]
  rfl

theorem FailsAt.of_agree {after : List (Except Char Token)}
    (h : FailsAt limit (Scan.ofSource source) objection front token)
    (helements : (Scan.ofSource source').elements = front'.map .ok ++ .ok token' :: after)
    (hfront : front'.map (·.toTerminal) = front.map (·.toTerminal))
    (htoken : token'.toTerminal = token.toTerminal)
    (htarget : objection = .assignmentTarget → ∀ character, after.head? ≠ some (.error character)) :
    FailsAt limit (Scan.ofSource source') objection front' token' := by
  have hlexed : ∀ t ∈ (Scan.ofSource source).terminals, t.Lexed := Scan.lexed_of_mem_terminals
  have hlexed' : ∀ t ∈ (Scan.ofSource source').terminals, t.Lexed := Scan.lexed_of_mem_terminals
  obtain ⟨front'', hfront', hcases⟩ := Scan.elements_eq_append_cons helements
  obtain rfl := Scan.map_ok_inj.mp hfront'
  cases h with
  | @token front token back htokens hfailure =>
      rw [Scan.terminals, htokens, List.map_append, List.map_cons] at hlexed hfailure
      rcases hcases with ⟨back', htokens', rfl⟩ | ⟨-, -, rfl⟩
      · refine .token htokens' ?_
        rw [Scan.terminals, htokens', List.map_append, List.map_cons, hfront, htoken]
        refine ofTerminals_eq_error_congr hlexed hfailure fun hobjection => ?_
        cases hstuck' : (Scan.ofSource source').stuck? with
        | none => exact .inl rfl
        | some character =>
            refine .inr fun hnil => htarget hobjection character ?_
            rw [List.map_eq_nil_iff.mp hnil, Scan.close, hstuck']
            rfl
      · have hkind := (hlexed token.toTerminal (by simp)).kind_ne_endOfInput
        exact absurd (congrArg Terminal.kind htoken).symm hkind
  | close hstuck hfailure =>
      rcases hcases with ⟨back', htokens', rfl⟩ | ⟨rfl, hstuck', rfl⟩
      · have hmem : token'.toTerminal ∈ (Scan.ofSource source').terminals := by
          rw [Scan.terminals, htokens']
          simp
        exact absurd (congrArg Terminal.kind htoken) (hlexed' _ hmem).kind_ne_endOfInput
      · refine .close hstuck' ?_
        rw [← hfailure]
        exact congrArg (ofTerminals limit none) hfront

/-- Sources that are read to their ends are parsed to the same program if their terminals are the
same, and an error is the same in any source that agrees as far as to the element at which it is
reported. For an assignment target the element behind that has to be readable, too. -/
theorem parseWithin_layout_independent (limit : Nat) (source source' : String) :
    (∀ p, (Scan.ofSource source).stuck? = none → (Scan.ofSource source').stuck? = none →
      (Scan.ofSource source').terminals = (Scan.ofSource source).terminals →
      parseWithin limit source = .ok p → parseWithin limit source' = .ok p) ∧
    ∀ e before token after before' token' after',
      parseWithin limit source = .error e → e.isLexical = false →
      (Scan.ofSource source).elements = before ++ .ok token :: after →
      e.position = .ofOffset source token.offset →
      (Scan.ofSource source').elements = before' ++ .ok token' :: after' →
      before'.map (Except.map Token.toTerminal) = before.map (Except.map Token.toTerminal) →
      token'.toTerminal = token.toTerminal →
      (e.fault = .invalidAssignmentTarget →
        ∀ character, after'.head? ≠ some (.error character)) →
      parseWithin limit source' = .error ⟨e.fault, .ofOffset source' token'.offset⟩ := by
  refine ⟨fun p hstuck hstuck' hterminals hok => ?_, ?_⟩
  · rw [parseWithin_eq_ok_iff] at hok ⊢
    rwa [hterminals, hstuck', ← hstuck]
  · intro e before token after before' token' after' he hlexical helements hposition helements'
      hbefore htoken htarget
    obtain ⟨objection, front, found, hfails⟩ := exists_failsAt he hlexical
    obtain rfl := Except.error.inj (he.symm.trans hfails.parseWithin_eq)
    obtain ⟨rest, hmarks⟩ := hfails.exists_marks_eq
    obtain ⟨front₀, rest₀, rfl, hmarks₀⟩ := Scan.exists_marks_eq_of_elements_eq helements
    obtain ⟨rfl, rfl, -⟩ := Scan.eq_of_ofOffset_eq hmarks₀ hmarks hposition.symm
    obtain ⟨front', rest', rfl, -⟩ := Scan.exists_marks_eq_of_elements_eq helements'
    have hfront : front'.map (·.toTerminal) = front₀.map (·.toTerminal) := by
      rw [List.map_map, List.map_map] at hbefore
      rw [← Scan.map_ok_inj, List.map_map, List.map_map]
      exact hbefore
    have hfails' := hfails.of_agree helements' hfront htoken fun hobjection =>
      htarget (Objection.fault_eq_invalidAssignmentTarget_iff.mpr hobjection)
    rw [hfails'.parseWithin_eq, htoken]

theorem parseWithin_of_layout :
    parseWithin 3 "a=b;" =
        .ok ⟨[.expression (.assignment .assign (.identifier ⟨"a"⟩) (.identifier ⟨"b"⟩))]⟩ ∧
      parseWithin 3 "a/*=*/ = b // ;\n;" =
        .ok ⟨[.expression (.assignment .assign (.identifier ⟨"a"⟩) (.identifier ⟨"b"⟩))]⟩ ∧
      parseWithin 3 "a = ;" =
        .error ⟨.unexpectedProduction "PrimaryExpression" ";", ⟨1, 5, 4⟩⟩ ∧
      parseWithin 3 "a//b\n=; #" =
        .error ⟨.unexpectedProduction "PrimaryExpression" ";", ⟨2, 2, 6⟩⟩ := by
  have hok : parseWithin 3 "a=b;" =
      .ok ⟨[.expression (.assignment .assign (.identifier ⟨"a"⟩) (.identifier ⟨"b"⟩))]⟩ := by
    decide +kernel
  have hok' := (parseWithin_layout_independent 3 "a=b;" "a/*=*/ = b // ;\n;").1 _
    (by decide +kernel) (by decide +kernel) (by decide +kernel) hok
  have herror : parseWithin 3 "a = ;" =
      .error ⟨.unexpectedProduction "PrimaryExpression" ";", ⟨1, 5, 4⟩⟩ := by
    decide +kernel
  have htokens : (Scan.ofSource "a = ;").elements =
      [.ok ⟨⟨.identifier, "a"⟩, 0⟩, .ok ⟨⟨.simpleAssign, "="⟩, 2⟩] ++
        .ok ⟨⟨Punctuator.semicolon, ";"⟩, 4⟩ :: [.ok (.endOfInput 5)] := by
    decide +kernel
  have htokens' : (Scan.ofSource "a//b\n=; #").elements =
      [.ok ⟨⟨.identifier, "a"⟩, 0⟩, .ok ⟨⟨.simpleAssign, "="⟩, 5⟩] ++
        .ok ⟨⟨Punctuator.semicolon, ";"⟩, 6⟩ :: [.error '#'] := by
    decide +kernel
  exact ⟨hok, hok', herror, (parseWithin_layout_independent 3 "a = ;" "a//b\n=; #").2 _ _ _ _ _ _ _
    herror rfl htokens (by decide +kernel) htokens' rfl rfl nofun⟩

end Program

end Letter
