import Letter.Proofs.Grammar.Blame
import Letter.Proofs.Grammar.Limit
import Letter.Proofs.Grammar.Prefix

namespace Letter

namespace Scan

variable {source : String}

/-- The terminals of the tokens that end at or before an offset. -/
def terminalsUntil (scan : Scan) (offset : Nat) : List Terminal :=
  (scan.tokens.filter (·.stop ≤ offset)).map (·.toTerminal)

theorem terminalsUntil_stop (source : String) :
    (ofSource source).terminalsUntil (ofSource source).stop = (ofSource source).terminals := by
  have hstop : ∀ token ∈ (ofSource source).tokens,
      decide (token.stop ≤ (ofSource source).stop) = true := by
    intro token htoken
    have hle := (Tiled.of_cut 0 source.toList).stop_add_size_le htoken
    have hsize := stop_add_size source
    rw [← Text.size_toList] at hsize
    simp only [decide_eq_true_eq]
    omega
  rw [terminalsUntil, List.filter_eq_self.mpr hstop, terminals]

end Scan

namespace Program

variable {limit : Nat} {source : String} {ts front back : List Terminal} {character : Char}

theorem begun_of_ok (hts : ∀ t ∈ ts, t.Genuine) {p : Program}
    (h : ofTerminals limit none ts = .ok p) : Begun ts := by
  obtain ⟨height, -, hbody⟩ := (ofTerminals_eq_ok_iff_derives hts).mp h
  refine ⟨[], accepted_iff.mpr ⟨height, p.body, ?_⟩⟩
  rwa [List.append_nil]

theorem eq_of_interrupted {t : Terminal} {objection : Objection}
    (hlexed : ∀ u ∈ front ++ t :: (back ++ ts), u.Lexed)
    (hinterrupted : ofTerminals limit (some character) (front ++ t :: (back ++ ts)) =
      .error ⟨.lexical character, []⟩)
    (h : ofTerminals limit none (front ++ t :: back) = .error ⟨objection, t :: back⟩) :
    objection = .assignmentTarget ∧ back ++ ts = [] := by
  have hlexed' : ∀ u ∈ front ++ t :: back, u.Lexed := by
    intro u hu
    refine hlexed u ?_
    rw [← List.cons_append, ← List.append_assoc]
    exact List.mem_append_left _ hu
  refine Classical.byContradiction fun hnot => ?_
  have hsame : ofTerminals limit (some character) (front ++ t :: (back ++ ts)) = _ :=
    ofTerminals_eq_error_congr hlexed' h fun hobjection =>
      .inr fun hnil => hnot ⟨hobjection, hnil⟩
  rw [hinterrupted] at hsame
  cases hsame

/-- What a text that breaks off begins with can be continued, or ends in an operator to the left of
which there is no target. -/
theorem begun_or_eq_of_interrupted (hlimit : ts.length + 2 ≤ limit)
    (hts : ts = front ++ back) (hlexed : ∀ t ∈ ts, t.Lexed) (hfront : ∀ t ∈ front, t.Genuine)
    (hinterrupted : ofTerminals limit (some character) ts = .error ⟨.lexical character, []⟩) :
    Begun front ∨ back = [] ∧
      ∃ t, ts.getLast? = some t ∧ ofTerminals limit none ts = .error ⟨.assignmentTarget, [t]⟩ := by
  subst hts
  cases hresult : ofTerminals limit none front with
  | ok p => exact .inl (begun_of_ok hfront hresult)
  | error failure =>
      obtain ⟨objection, unread⟩ := failure
      have hlength : front.length + 2 ≤ limit := by
        rw [List.length_append] at hlimit
        omega
      obtain ⟨-, read, rfl, hbegun, -, -⟩ := begun_of_error hfront hlength hresult
      cases unread with
      | nil =>
          rw [List.append_nil]
          exact .inl hbegun
      | cons t rest =>
          rw [List.append_assoc, List.cons_append] at hlexed hinterrupted
          obtain ⟨rfl, hnil⟩ := eq_of_interrupted hlexed hinterrupted hresult
          obtain ⟨rfl, rfl⟩ := List.append_eq_nil_iff.mp hnil
          refine .inr ⟨rfl, t, ?_, ?_⟩
          · simp
          · rwa [List.append_nil]

theorem ofTerminals_lexical_of_le {limit' : Nat} (hle : limit ≤ limit') (hlexed : ∀ t ∈ ts, t.Lexed)
    (h : ofTerminals limit (some character) ts = .error ⟨.lexical character, []⟩) :
    ofTerminals limit' (some character) ts = .error ⟨.lexical character, []⟩ := by
  have hsame : ofTerminals limit' (some character) ts = ofTerminals limit (some character) ts ∨ _ :=
    ofTerminals_of_le hlexed hle
  rcases hsame with heq | ⟨failure, hcut, ⟨bound, hbound⟩, -⟩
  · rw [heq, h]
  · rw [h] at hcut
    cases hcut
    cases hbound

theorem ofTerminals_assignmentTarget_of_le {limit' : Nat} {t : Terminal} (hle : limit ≤ limit')
    (hlexed : ∀ u ∈ ts, u.Lexed)
    (hinterrupted : ofTerminals limit (some character) ts = .error ⟨.lexical character, []⟩)
    (h : ofTerminals limit' none ts = .error ⟨.assignmentTarget, [t]⟩) :
    ofTerminals limit none ts = .error ⟨.assignmentTarget, [t]⟩ := by
  have hsame : ofTerminals limit' none ts = ofTerminals limit none ts ∨ _ :=
    ofTerminals_of_le hlexed hle
  rcases hsame with heq | ⟨⟨objection, unread⟩, hfailure, ⟨bound, hbound⟩, hfurther⟩
  · rw [← heq, h]
  · obtain rfl : objection = .nesting bound := hbound
    have hsuffix : [t] <:+ unread := hfurther _ h
    obtain ⟨read, rfl⟩ := unread_suffix_of_ofTerminals hfailure
    cases unread with
    | nil => simp at hsuffix
    | cons u rest =>
        have hnot : Objection.nesting bound = .assignmentTarget ∧ rest ++ [] = [] :=
          eq_of_interrupted (by rwa [List.append_nil]) (by rwa [List.append_nil]) hfailure
        cases hnot.1

/-- A lexical error hides nothing that is wrong with the tokens before it but for the last, which
can be an assignment operator with no target to its left, as is said of it if nothing follows, or a
name that spells a keyword. -/
theorem begun_of_isLexical {e : SourceError} (he : parseWithin limit source = .error e)
    (hlexical : e.isLexical) :
    Begun ((Scan.ofSource source).terminalsUntil e.position.offset).dropLast ∧
      (Begun ((Scan.ofSource source).terminalsUntil e.position.offset) ∨
        ∃ t, ((Scan.ofSource source).terminalsUntil e.position.offset).getLast? = some t ∧
          ((∃ operator : AssignmentOperator, t = operator.terminal ∧
            ofTerminals limit none ((Scan.ofSource source).terminalsUntil e.position.offset) =
              .error ⟨.assignmentTarget, [t]⟩) ∨
            t.kind = .identifier ∧ ∃ k : Keyword, t.lexeme = k.spelling)) := by
  obtain ⟨character, -, hfailure, rfl⟩ := lexical_of_parseWithin_eq_error he hlexical
  have hoffset :
      (SourceError.lexical source (Scan.ofSource source).stop character).position.offset =
        (Scan.ofSource source).stop := Nat.min_eq_left (Scan.stop_le source)
  rw [hoffset, Scan.terminalsUntil_stop]
  have hlexed : ∀ t ∈ (Scan.ofSource source).terminals, t.Lexed := Scan.lexed_of_mem_terminals
  have hgenuine : ∀ t ∈ (Scan.ofSource source).terminals.dropLast, t.Genuine :=
    Scan.genuine_of_mem_dropLast_terminals
  have hspells : ∀ t ∈ (Scan.ofSource source).terminals, _ :=
    Scan.genuine_or_spells_of_mem_terminals
  generalize (Scan.ofSource source).terminals = ts at *
  have hlarge := ofTerminals_lexical_of_le (Nat.le_add_right limit (ts.length + 2)) hlexed hfailure
  have hroom : ts.length + 2 ≤ limit + (ts.length + 2) := Nat.le_add_left _ _
  have hsplit : ts = ts.dropLast ++ ts.getLast?.toList := by
    rcases List.eq_nil_or_concat ts with rfl | ⟨front, t, rfl⟩ <;> simp
  constructor
  · rcases begun_or_eq_of_interrupted hroom hsplit hlexed hgenuine hlarge with
      hbegun | ⟨hnil, t, hlast, -⟩
    · exact hbegun
    · rw [hlast] at hnil
      cases hnil
  · by_cases hall : ∀ t ∈ ts, t.Genuine
    · rcases begun_or_eq_of_interrupted hroom (List.append_nil ts).symm hlexed hall hlarge with
        hbegun | ⟨-, t, hlast, htarget⟩
      · exact .inl hbegun
      · have htarget' := ofTerminals_assignmentTarget_of_le (Nat.le_add_right _ _) hlexed hfailure
          htarget
        have hprogram := (program_of_ofTerminals_eq_error htarget').resolve_right nofun
        obtain ⟨operator, hoperator⟩ :=
          (Grammar.foresees_program limit).of_error rfl hlexed hprogram
        exact .inr ⟨t, hlast, .inl ⟨operator, Option.some.inj hoperator, htarget'⟩⟩
    · obtain ⟨t, ht, hnot⟩ : ∃ t ∈ ts, ¬ t.Genuine := by simpa using hall
      have hlast : t ∈ ts.dropLast ++ ts.getLast?.toList := hsplit ▸ ht
      rcases List.mem_append.mp hlast with hinner | hlast
      · exact absurd (hgenuine t hinner) hnot
      · exact .inr ⟨t, Option.mem_toList.mp hlast, .inr ((hspells t ht).resolve_left hnot)⟩

theorem begun_of_unreadable_value :
    parseWithin 5 "a = #" = .error ⟨.lexical '#', ⟨1, 5, 4⟩⟩ ∧
      Begun [⟨.identifier, "a"⟩] ∧ Begun [⟨.identifier, "a"⟩, ⟨.simpleAssign, "="⟩] := by
  have he : parseWithin 5 "a = #" = .error ⟨.lexical '#', ⟨1, 5, 4⟩⟩ := by decide +kernel
  have hterminals : (Scan.ofSource "a = #").terminalsUntil 4 =
      [⟨.identifier, "a"⟩, ⟨.simpleAssign, "="⟩] := by
    decide +kernel
  have hbegun := begun_of_isLexical he rfl
  rw [hterminals] at hbegun
  obtain ⟨hfront, hall | ⟨t, hlast, ⟨operator, -, htarget⟩ | ⟨hkind, -⟩⟩⟩ := hbegun
  · exact ⟨he, hfront, hall⟩
  · have hok : ofTerminals 5 none [⟨.identifier, "a"⟩, ⟨.simpleAssign, "="⟩] =
        .error ⟨.noAlternative "PrimaryExpression", []⟩ := by
      decide +kernel
    rw [hok] at htarget
    cases htarget
  · cases hlast
    cases hkind

/-- Behind a number there is no continuing, but the character is met first. -/
theorem not_begun_of_unreadable_value :
    parseWithin 100 "1 = #" = .error ⟨.lexical '#', ⟨1, 5, 4⟩⟩ ∧
      (Scan.ofSource "1 = #").terminalsUntil 4 = [⟨.number, "1"⟩, ⟨.simpleAssign, "="⟩] ∧
      ¬ Begun [⟨.number, "1"⟩, ⟨.simpleAssign, "="⟩] := by
  refine ⟨by decide +kernel, by decide +kernel, ?_⟩
  have hterminals : (Scan.ofSource "1 =").terminals =
      [⟨.number, "1"⟩, ⟨.simpleAssign, "="⟩] := by
    decide +kernel
  have hgenuine : ∀ t ∈ (Scan.ofSource "1 =").terminals, t.Genuine :=
    Scan.genuine_of_mem_terminals (by decide +kernel)
  have herror : ofTerminals 4 none (Scan.ofSource "1 =").terminals =
      .error ⟨.assignmentTarget, [⟨.simpleAssign, "="⟩]⟩ := by
    decide +kernel
  obtain ⟨-, read, hread, -, -, hnot⟩ := begun_of_error hgenuine (by decide +kernel) herror
  rw [hterminals] at hread
  rw [hread]
  exact hnot _ [] rfl

end Program

end Letter
