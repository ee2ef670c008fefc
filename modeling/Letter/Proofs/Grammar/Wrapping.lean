import Letter.Proofs.Grammar.Exactness
import Letter.Proofs.Grammar.Height
import Letter.Proofs.Token.Enclosing

namespace Letter

namespace Derives

variable {limit h : Nat} {ts : List Terminal}

theorem of_singleton {s : Statement} (hd : Derives (.many .statement) h ts [s]) :
    Derives .statement h ts s := by
  cases hd with
  | cons hs hnil =>
      cases hnil
      rwa [List.append_nil, Nat.max_zero]

theorem singleton {s : Statement} (hd : Derives .statement h ts s) :
    Derives (.many .statement) h ts [s] := by
  have hcons : Derives (.many .statement) (max h 0) (ts ++ []) [s] := .cons hd .nil
  rwa [List.append_nil, Nat.max_zero] at hcons

theorem exists_block_iff {body : List Statement} :
    (∃ h ≤ limit + 1, Derives (.many .statement) h
        (Punctuator.leftBrace.terminal :: (ts ++ [Punctuator.rightBrace.terminal]))
        [.block body]) ↔
      ∃ h ≤ limit, Derives (.many .statement) h ts body := by
  constructor
  · rintro ⟨h, hle, hd⟩
    generalize hwrapped : Punctuator.leftBrace.terminal ::
      (ts ++ [Punctuator.rightBrace.terminal]) = wrapped at hd
    cases hd.of_singleton with
    | blockStatement hblock =>
        cases hblock with
        | block hbody =>
            obtain rfl := List.append_cancel_right (List.cons.inj hwrapped).2
            exact ⟨_, Nat.le_of_succ_le_succ hle, hbody⟩
  · rintro ⟨h, hle, hbody⟩
    exact ⟨h + 1, Nat.succ_le_succ hle, singleton (.blockStatement (.block hbody))⟩

theorem exists_expression_iff {e : Expression} :
    (∃ h ≤ limit, Derives (.many .statement) h (ts ++ [Punctuator.semicolon.terminal])
        [.expression e]) ↔
      ∃ h < limit, Derives (.expression .assignment) h ts e := by
  constructor
  · rintro ⟨h, hle, hd⟩
    generalize hended : ts ++ [Punctuator.semicolon.terminal] = ended at hd
    cases hd.of_singleton with
    | expressionStatement he =>
        obtain rfl := List.append_cancel_right hended
        exact ⟨_, hle, he⟩
  · rintro ⟨h, hlt, he⟩
    exact ⟨h + 1, hlt, singleton (.expressionStatement he)⟩

end Derives

theorem Scan.stuck?_append_closing_iff {a b : String} (hb : Text.ClosesNothing b.toList)
    (hstuck : (ofSource b).stuck? = none) :
    (ofSource (a ++ "\n" ++ b)).stuck? = none ↔ (ofSource a).stuck? = none := by
  obtain ⟨hread, hunstuck⟩ := ofSource_append_closing (a := a) hb
  exact ⟨hunstuck, fun ha => (hread ha).2.trans hstuck⟩

namespace Program

variable {limit : Nat} {a b : String} {p : Program} {e : Expression}

theorem parseWithin_eq_ok_iff_exists : parseWithin limit a = .ok p ↔
    (Scan.ofSource a).stuck? = none ∧
      ∃ h ≤ limit, Derives (.many .statement) h (Scan.ofSource a).terminals p.body := by
  constructor
  · intro hok
    have hread := parseWithin_eq_ok_iff.mp hok
    exact ⟨((ofTerminals_eq_ok_iff Scan.kind_ne_endOfInput_of_mem_terminals).mp hread).1,
      derives_of_parseWithin_eq_ok hok⟩
  · rintro ⟨hstuck, hderives⟩
    exact (parseWithin_eq_ok_iff_derives hstuck).mpr hderives

theorem parseWithin_closing_iff (hb : Text.ClosesNothing b.toList)
    (hstuck : (Scan.ofSource b).stuck? = none) :
    parseWithin limit (a ++ "\n" ++ b) = .ok p ↔ (Scan.ofSource a).stuck? = none ∧ ∃ h ≤ limit,
      Derives (.many .statement) h ((Scan.ofSource a).terminals ++ (Scan.ofSource b).terminals)
        p.body := by
  rw [parseWithin_eq_ok_iff_exists, Scan.stuck?_append_closing_iff hb hstuck]
  refine and_congr_right fun ha => ?_
  rw [((Scan.ofSource_append_closing hb).1 ha).1]

/-- A sign in front of that is one terminal more. -/
theorem parseWithin_enclosed_iff (opening : Punctuator) (hb : Text.ClosesNothing b.toList)
    (hstuck : (Scan.ofSource b).stuck? = none) :
    parseWithin limit (opening.spelling ++ (a ++ "\n" ++ b)) = .ok p ↔
      (Scan.ofSource a).stuck? = none ∧ ∃ h ≤ limit, Derives (.many .statement) h
        (opening.terminal :: ((Scan.ofSource a).terminals ++ (Scan.ofSource b).terminals))
        p.body := by
  obtain ⟨hterminals, hsame⟩ := Scan.ofSource_punctuator_append opening (a ++ "\n" ++ b)
  rw [parseWithin_eq_ok_iff_exists, hsame, Scan.stuck?_append_closing_iff hb hstuck, hterminals]
  refine and_congr_right fun ha => ?_
  rw [((Scan.ofSource_append_closing hb).1 ha).1]

theorem parseWithin_braces_iff (limit : Nat) (s : String) (body : List Statement) :
    parseWithin (limit + 1) (.ofList ['{'] ++ s ++ .ofList ['\n', '}']) = .ok ⟨[.block body]⟩ ↔
      parseWithin limit s = .ok ⟨body⟩ := by
  have htext : .ofList ['{'] ++ s ++ .ofList ['\n', '}'] =
      Punctuator.leftBrace.spelling ++ (s ++ "\n" ++ Punctuator.rightBrace.spelling) := by
    simp only [String.append_assoc]
    rfl
  have hclosing : (Scan.ofSource Punctuator.rightBrace.spelling).terminals =
      [Punctuator.rightBrace.terminal] := by decide +kernel
  rw [htext, parseWithin_enclosed_iff .leftBrace (by decide) (by decide +kernel), hclosing,
    parseWithin_eq_ok_iff_exists]
  exact and_congr_right fun _ => Derives.exists_block_iff

theorem parseWithin_semicolon_iff : parseWithin limit (a ++ "\n;") = .ok ⟨[.expression e]⟩ ↔
    (Scan.ofSource a).stuck? = none ∧
      ∃ h < limit, Derives (.expression .assignment) h (Scan.ofSource a).terminals e := by
  have htext : a ++ "\n;" = a ++ "\n" ++ ";" := by
    rw [String.append_assoc]
    rfl
  have hclosing : (Scan.ofSource ";").terminals = [Punctuator.semicolon.terminal] := by
    decide +kernel
  rw [htext, parseWithin_closing_iff (by decide) (by decide +kernel), hclosing]
  exact and_congr_right fun _ => Derives.exists_expression_iff

theorem parseWithin_parentheses_iff :
    parseWithin limit ("(" ++ a ++ "\n);") = .ok ⟨[.expression e]⟩ ↔
      (Scan.ofSource a).stuck? = none ∧ ∃ h < limit, Derives (.expression .assignment) h
        (Punctuator.leftParen.terminal ::
          ((Scan.ofSource a).terminals ++ [Punctuator.rightParen.terminal])) e := by
  have htext : "(" ++ a ++ "\n);" = Punctuator.leftParen.spelling ++ (a ++ "\n" ++ ");") := by
    simp only [String.append_assoc]
    rfl
  have hclosing : (Scan.ofSource ");").terminals =
      [Punctuator.rightParen.terminal, Punctuator.semicolon.terminal] := by
    decide +kernel
  have hregroup (ts : List Terminal) : Punctuator.leftParen.terminal ::
      (ts ++ [Punctuator.rightParen.terminal, Punctuator.semicolon.terminal]) =
      (Punctuator.leftParen.terminal :: (ts ++ [Punctuator.rightParen.terminal])) ++
        [Punctuator.semicolon.terminal] := by
    simp
  rw [htext, parseWithin_enclosed_iff .leftParen (by decide) (by decide +kernel), hclosing,
    hregroup]
  exact and_congr_right fun _ => Derives.exists_expression_iff

/-- Around a list of statements braces cost exactly one level, and so do parentheses around an
expression: with the levels that the expression needs and no more, there are too few. -/
theorem parseWithin_wrapped (limit : Nat) (s e : String) (body : List Statement) (x : Expression) :
    (parseWithin (limit + 1) (.ofList ['{'] ++ s ++ .ofList ['\n', '}']) = .ok ⟨[.block body]⟩ ↔
      parseWithin limit s = .ok ⟨body⟩) ∧
    (parseWithin limit (e ++ "\n;") = .ok ⟨[.expression x]⟩ →
      parseWithin (limit + 1) ("(" ++ e ++ "\n);") = .ok ⟨[.expression x]⟩ ∧
      ((∀ limit' < limit, ∀ p, parseWithin limit' (e ++ "\n;") ≠ .ok p) →
        ∃ position, parseWithin limit ("(" ++ e ++ "\n);") =
          .error ⟨.nestingTooDeep limit, position⟩)) := by
  refine ⟨parseWithin_braces_iff limit s body, fun he => ?_⟩
  obtain ⟨hstuck, h, hlt, hx⟩ := parseWithin_semicolon_iff.mp he
  have hwrapped : parseWithin (limit + 1) ("(" ++ e ++ "\n);") = .ok ⟨[.expression x]⟩ :=
    parseWithin_parentheses_iff.mpr ⟨hstuck, h + 1, Nat.succ_lt_succ hlt,
      (Derives.parenthesized hx).simple_of_ne_assignment nofun⟩
  refine ⟨hwrapped, fun hleast => exists_nestingTooDeep (Nat.le_succ limit) hwrapped fun hok => ?_⟩
  obtain ⟨-, h', hlt', hparentheses⟩ := parseWithin_parentheses_iff.mp hok
  -- what is between the parentheses would do with a level less
  obtain ⟨h'', hlt'', hx'⟩ := hx.exists_inner_lt hparentheses
  exact hleast h' hlt' _ (parseWithin_semicolon_iff.mpr ⟨hstuck, h'', hlt'', hx'⟩)

theorem parseWithin_wrapped_assignment :
    let x : Expression := .assignment .assign (.identifier ⟨"a"⟩) (.identifier ⟨"b"⟩)
    parseWithin 3 "a = b // )\n;" = .ok ⟨[.expression x]⟩ ∧
      (∀ limit < 3, ∀ p, parseWithin limit "a = b // )\n;" ≠ .ok p) ∧
      parseWithin 4 "(a = b // )\n);" = .ok ⟨[.expression x]⟩ ∧
      ∃ position, parseWithin 3 "(a = b // )\n);" = .error ⟨.nestingTooDeep 3, position⟩ := by
  intro x
  have hok : parseWithin 3 "a = b // )\n;" = .ok ⟨[.expression x]⟩ := by decide +kernel
  have herror : parseWithin 2 "a = b // )\n;" = .error ⟨.nestingTooDeep 2, ⟨1, 5, 4⟩⟩ := by
    decide +kernel
  have hleast : ∀ limit < 3, ∀ p, parseWithin limit "a = b // )\n;" ≠ .ok p := by
    intro limit hlt p hp
    cases herror.symm.trans (parseWithin_eq_ok_of_le (Nat.le_of_lt_succ hlt) hp)
  obtain ⟨hwrapped, htooDeep⟩ := (parseWithin_wrapped 3 "" "a = b // )" [] x).2 hok
  exact ⟨hok, hleast, hwrapped, htooDeep hleast⟩

end Program

end Letter
