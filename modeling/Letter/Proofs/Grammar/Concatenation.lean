import Letter.Proofs.Grammar.Layout
import Letter.Proofs.Token.Joining

namespace Letter

open Production Grammar

theorem OperandsFollow.uncommented {ts : List Terminal} (h : OperandsFollow ts) :
    Terminal.Uncommented ts := by
  induction ts with
  | nil => exact .nil
  | cons t ts ih =>
      cases ts with
      | nil => exact .singleton t
      | cons t' ts =>
          refine List.isChain_cons_cons.mpr ⟨fun ⟨hkind, hnext⟩ => ?_, ih h.2⟩
          obtain ⟨u, rest, heq, hu⟩ := h.1 hkind
          obtain ⟨rfl, -⟩ := List.cons.inj heq
          rcases hnext with hnext | hnext <;>
          · rw [hnext] at hu
            cases hu

theorem Production.Consumes.of_agrees {α : Type} {kept : Objection → Prop} {p : Production α}
    {ts rest : List Terminal} {a : α} {stuck? : Option Char} (hp : Agrees kept p p)
    (h : p.Consumes ts a rest) (hrest : stuck? = none ∨ rest ≠ []) :
    p stuck? (ts ++ rest) = .ok (a, rest) := by
  cases rest with
  | nil =>
      obtain rfl := hrest.resolve_right (not_not_intro rfl)
      exact h
  | cons t after =>
      have hok : p none (ts ++ t :: after) = .ok (a, [] ++ t :: after) := h
      exact hp.of_ok hok stuck? after

section Statements

variable {limit h : Nat} {ts ts' : List Terminal} {body : List Statement} {stuck? : Option Char}

theorem Symbol.ne_of_startsStatement {kind kind' : TokenKind} (h : startsStatement kind)
    (hkind : startsStatement kind' = false) : kind ≠ kind' := by
  rintro rfl
  exact Bool.eq_false_iff.mp hkind h

theorem Completes.ne_else (hbody : Completes limit (.many .statement) h ts body)
    (helse : ∀ t ∈ ts'.head?, t.kind ≠ Keyword.else_) :
    ((ts ++ ts').headD .endOfInput).kind ≠ Keyword.else_ := by
  cases body with
  | nil =>
      obtain ⟨-, rfl⟩ := hbody
      cases ts' with
      | nil => nofun
      | cons t ts' => exact helse t rfl
  | cons s body =>
      obtain ⟨h₁, h₂, ts₁, ts₂, -, rfl, ⟨hd, -⟩, -⟩ := hbody
      obtain ⟨t, ts₁, rfl, ht⟩ := hd.begins rfl
      exact Symbol.ne_of_startsStatement ht rfl

theorem Grammar.statements_append (hbody : Completes limit (.many .statement) h ts body)
    (hle : h ≤ limit) (helse : ∀ t ∈ ts'.head?, t.kind ≠ Keyword.else_)
    (hnext : stuck? = none ∨ ts' ≠ []) :
    statements (.within limit limit) .endOfInput stuck? (ts ++ ts') =
      (statements (.within limit limit) .endOfInput >>= fun others => pure (body ++ others))
        stuck? ts' := by
  induction body generalizing h ts with
  | nil =>
      obtain ⟨-, rfl⟩ := hbody
      exact congrFun (congrFun (bind_pure _).symm stuck?) ts'
  | cons s body ih =>
      obtain ⟨h₁, h₂, ts₁, ts₂, rfl, rfl, ⟨hd, hs⟩, hbody⟩ := hbody
      obtain ⟨hle₁, hle₂⟩ := Nat.max_le.mp hle
      have hbegins : Begins (fun kind => kind != .endOfInput && kind != .endOfInput) ts₁ :=
        (hd.begins rfl).mono fun kind hkind => by
          have hend : kind ≠ .endOfInput := Symbol.ne_of_startsStatement hkind rfl
          simp [hend]
      have hconsumes := hs limit (ts₂ ++ ts') hle₁ fun _ => Completes.ne_else hbody helse
      have hfirst : (Nested.within limit limit).statement stuck? (ts₁ ++ (ts₂ ++ ts')) =
          .ok (s, ts₂ ++ ts') :=
        hconsumes.of_agrees (Nested.agrees_within_self limit limit).statement.related
          (hnext.imp_right fun h => by simp [h])
      have hstrict := (Nested.within_related_steady limit limit).statement
      have hothers := ih hbody hle₂
      rw [List.append_assoc]
      refine (many_of_eq_ok hstrict.progresses_left (by simp) hbegins hfirst).trans ?_
      change (statements (.within limit limit) .endOfInput >>= fun others => pure (s :: others))
        stuck? (ts₂ ++ ts') = _
      simp only [bind] at hothers ⊢
      rw [hothers]
      cases statements (.within limit limit) .endOfInput stuck? ts' <;> rfl

end Statements

namespace Program

variable {limit h : Nat} {ts ts' : List Terminal} {body : List Statement} {stuck? : Option Char}

theorem ofTerminals_some {p : Program} (hts : ∀ t ∈ ts, t.Lexed)
    (h : ofTerminals limit none ts = .ok p) (character : Char) :
    ofTerminals limit (some character) ts = .error ⟨.lexical character, []⟩ := by
  have hend : ∀ t ∈ ts, t.kind ≠ .endOfInput := fun t ht => (hts t ht).kind_ne_endOfInput
  cases hresult : ofTerminals limit (some character) ts with
  | ok q => cases ((ofTerminals_eq_ok_iff hend).mp hresult).1
  | error failure =>
      obtain ⟨objection, unread⟩ := failure
      rcases program_of_ofTerminals_eq_error hresult with hprogram | ⟨-, _, hcharacter, hfailure⟩
      · obtain ⟨before, rfl⟩ := (steady_program limit).of_error hprogram
        cases unread with
        | nil =>
            rcases (steady_program limit).of_error_nil hprogram with hnil | rfl
            · rw [hnil] at hresult
              exact hresult.symm
            · rfl
        | cons t after =>
            have herror : ofTerminals limit none (before ++ t :: after) =
                .error ⟨objection, t :: after⟩ :=
              ofTerminals_eq_error_congr hts hresult fun _ => .inl rfl
            cases h.symm.trans herror
      · cases hcharacter
        rw [hfailure]

/-- What derives a program may stand before whatever does not begin with `else`. -/
theorem ofTerminals_append (hbody : Derives (.many .statement) h ts body) (hle : h ≤ limit)
    (helse : ∀ t ∈ ts'.head?, t.kind ≠ Keyword.else_) :
    ofTerminals limit stuck? (ts ++ ts') =
      (ofTerminals limit stuck? ts').map fun q => ⟨body ++ q.body⟩ := by
  rcases readable_or stuck? ts' with hnext | ⟨character, rfl, rfl⟩
  · have hstatements := statements_append (hbody.completes limit) hle helse hnext
    rw [ofTerminals_eq (hnext.imp_right fun h => by simp [h]), ofTerminals_eq hnext]
    simp only [program, bind] at hstatements ⊢
    rw [hstatements]
    cases statements (.within limit limit) .endOfInput stuck? ts' <;> rfl
  · have haccepted : ofTerminals limit none ts = .ok ⟨body⟩ :=
      (ofTerminals_eq_ok_iff_derives hbody.genuine).mpr ⟨h, hle, hbody⟩
    rw [List.append_nil,
      ofTerminals_some (fun t ht => .inl (hbody.genuine t ht)) haccepted character]
    rfl

end Program

theorem Scan.tokenBefore_append_newline {a b : String} {unread : Nat}
    (ha : (Scan.ofSource a).stuck? = none)
    (hopen : Terminal.Uncommented (Scan.ofSource a).terminals)
    (hunread : unread ≤ (Scan.ofSource b).tokens.length) :
    (Scan.ofSource (a ++ "\n" ++ b)).tokenBefore unread =
      ((Scan.ofSource b).tokenBefore unread).shift (a.utf8ByteSize + 1) := by
  obtain ⟨htokens, -, hstop⟩ := Scan.ofSource_append_newline ha hopen b
  have hmarks : (Scan.ofSource (a ++ "\n" ++ b)).marks =
      (Scan.ofSource a).tokens ++ (Scan.ofSource b).marks.map (.shift (a.utf8ByteSize + 1)) := by
    rw [marks, htokens, hstop, List.append_assoc, marks, List.map_append]
    rfl
  have hnext := getElem?_marks (Scan.ofSource (a ++ "\n" ++ b)) unread
  rw [hmarks, htokens, List.length_append, List.length_map, Nat.add_sub_assoc hunread,
    List.getElem?_append_right (Nat.le_add_right _ _), Nat.add_sub_cancel_left,
    List.getElem?_map, getElem?_marks] at hnext
  exact (Option.some.inj hnext).symm

theorem Objection.report_append_newline (objection : Objection) (a b : String) (found : Token) :
    objection.report (a ++ "\n" ++ b) (found.shift (a.utf8ByteSize + 1)) =
      ⟨(objection.report b found).fault, (objection.report b found).position.behind a⟩ := by
  have hfound : Position.ofOffset (a ++ "\n" ++ b) (found.shift (a.utf8ByteSize + 1)).offset =
      (Position.ofOffset b found.offset).behind a :=
    Position.ofOffset_append_newline a b found.offset
  have hend : Position.ofOffset (a ++ "\n" ++ b) (a ++ "\n" ++ b).utf8ByteSize =
      (Position.ofOffset b b.utf8ByteSize).behind a := by
    rw [Text.utf8ByteSize_append_newline]
    exact Position.ofOffset_append_newline a b b.utf8ByteSize
  cases objection with
  | noAlternative production =>
      by_cases hlast : found.isEnd
      · have hlast' : (found.shift (a.utf8ByteSize + 1)).isEnd := hlast
        simp only [report, SourceError.unexpectedProduction, hlast, hlast', if_true,
          SourceError.unexpectedEndOfInput, hend]
      · have hlast' : ¬ (found.shift (a.utf8ByteSize + 1)).isEnd := hlast
        simp only [report, SourceError.unexpectedProduction, hlast, hlast', hfound]
        rfl
  | _ => exact congrArg (SourceError.mk _) hfound

namespace Program

variable {limit : Nat} {a b : String} {p : Program}

theorem joinable_of_parseWithin_eq_ok (ha : parseWithin limit a = .ok p) :
    (Scan.ofSource a).stuck? = none ∧ Terminal.Uncommented (Scan.ofSource a).terminals := by
  obtain ⟨height, -, hbody⟩ := derives_of_parseWithin_eq_ok ha
  exact ⟨((ofTerminals_eq_ok_iff Scan.kind_ne_endOfInput_of_mem_terminals).mp
    (parseWithin_eq_ok_iff.mp ha)).1, hbody.operandsFollow.uncommented⟩

theorem ofTerminals_append_newline (ha : parseWithin limit a = .ok p)
    (helse : ∀ token ∈ (Scan.ofSource b).tokens.head?, token.kind ≠ Keyword.else_) :
    ofTerminals limit (Scan.ofSource (a ++ "\n" ++ b)).stuck?
        (Scan.ofSource (a ++ "\n" ++ b)).terminals =
      (ofTerminals limit (Scan.ofSource b).stuck? (Scan.ofSource b).terminals).map
        fun q => ⟨p.body ++ q.body⟩ := by
  obtain ⟨hstuck, hopen⟩ := joinable_of_parseWithin_eq_ok ha
  obtain ⟨height, hle, hbody⟩ := derives_of_parseWithin_eq_ok ha
  obtain ⟨htokens, hstuck', -⟩ := Scan.ofSource_append_newline hstuck hopen b
  have hterminals : (Scan.ofSource (a ++ "\n" ++ b)).terminals =
      (Scan.ofSource a).terminals ++ (Scan.ofSource b).terminals := by
    rw [Scan.terminals, htokens, List.map_append, List.map_map]
    rfl
  rw [hterminals, hstuck']
  refine ofTerminals_append hbody hle fun t ht => ?_
  rw [Scan.terminals, List.head?_map] at ht
  obtain ⟨token, htoken, rfl⟩ := Option.map_eq_some_iff.mp ht
  exact helse token htoken

/-- Behind a text that is accepted and a line feed a text is parsed as if it stood alone. What is
read of it follows what is read of the first text, and the position of its error is behind that. -/
theorem parseWithin_append (b : String) (ha : parseWithin limit a = .ok p)
    (helse : ∀ token ∈ (Scan.ofSource b).tokens.head?, token.kind ≠ Keyword.else_) :
    (∀ q, parseWithin limit b = .ok q →
      parseWithin limit (a ++ "\n" ++ b) = .ok ⟨p.body ++ q.body⟩) ∧
    ∀ e, parseWithin limit b = .error e →
      parseWithin limit (a ++ "\n" ++ b) = .error ⟨e.fault, e.position.behind a⟩ := by
  have happend := ofTerminals_append_newline ha helse
  constructor
  · intro q hq
    rw [parseWithin_eq_ok_iff, happend, parseWithin_eq_ok_iff.mp hq]
    rfl
  · intro e he
    obtain ⟨failure, hfailure, rfl⟩ := parseWithin_eq_error_iff.mp he
    rw [hfailure] at happend
    refine parseWithin_eq_error_iff.mpr ⟨failure, happend, ?_⟩
    have hunread : failure.unread.length ≤ (Scan.ofSource b).tokens.length := by
      have hsuffix := (unread_suffix_of_ofTerminals hfailure).length_le
      rwa [Scan.terminals, List.length_map] at hsuffix
    obtain ⟨hstuck, hopen⟩ := joinable_of_parseWithin_eq_ok ha
    rw [Scan.tokenBefore_append_newline hstuck hopen hunread, Objection.report_append_newline]

/-- A quotient, and behind it a comment with what would begin another one. -/
theorem parseWithin_behind_comment :
    parseWithin 3 "x / y; // /*" =
        .ok ⟨[.expression (.binary .divide (.identifier ⟨"x"⟩) (.identifier ⟨"y"⟩))]⟩ ∧
      parseWithin 3 "this; // */" = .ok ⟨[.expression .this]⟩ ∧
      parseWithin 3 "x / y; // /*\nthis; // */" =
        .ok ⟨[.expression (.binary .divide (.identifier ⟨"x"⟩) (.identifier ⟨"y"⟩)),
          .expression .this]⟩ ∧
      parseWithin 3 "z = ;" = .error ⟨.unexpectedProduction "PrimaryExpression" ";", ⟨1, 5, 4⟩⟩ ∧
      parseWithin 3 "x / y; // /*\nz = ;" =
        .error ⟨.unexpectedProduction "PrimaryExpression" ";", ⟨2, 5, 17⟩⟩ := by
  have hfirst : parseWithin 3 "x / y; // /*" =
      .ok ⟨[.expression (.binary .divide (.identifier ⟨"x"⟩) (.identifier ⟨"y"⟩))]⟩ := by
    decide +kernel
  have hok : parseWithin 3 "this; // */" = .ok ⟨[.expression .this]⟩ := by
    decide +kernel
  have herror : parseWithin 3 "z = ;" =
      .error ⟨.unexpectedProduction "PrimaryExpression" ";", ⟨1, 5, 4⟩⟩ := by
    decide +kernel
  exact ⟨hfirst, hok, (parseWithin_append "this; // */" hfirst (by decide +kernel)).1 _ hok, herror,
    (parseWithin_append "z = ;" hfirst (by decide +kernel)).2 _ herror⟩

end Program

end Letter
