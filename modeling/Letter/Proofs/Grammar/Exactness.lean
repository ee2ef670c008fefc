import Letter.Proofs.Grammar.Blame
import Letter.Proofs.Grammar.Limit

namespace Letter

open Production Grammar

namespace Phrase

theorem reads_production (limit depth : Nat) (phrase : Phrase) :
    (phrase.production (.within limit depth)).Reads depth (Derives (.expression phrase)) := by
  have hn := Nested.sound_within limit depth
  have hmultiplicative := reads_leftAssociative .multiplicative (reads_unary hn)
  have hadditive := reads_leftAssociative .additive hmultiplicative
  have hrelational := reads_leftAssociative .relational hadditive
  have hequality := reads_leftAssociative .equality hrelational
  have hlogicalAnd := reads_leftAssociative .logicalAnd hequality
  cases phrase with
  | assignment => exact hn.expression
  | logicalOr => exact reads_logicalOr hn
  | logicalAnd => exact hlogicalAnd
  | equality => exact hequality
  | relational => exact hrelational
  | additive => exact hadditive
  | multiplicative => exact hmultiplicative
  | unary => exact reads_unary hn
  | leftHandSide => exact reads_leftHandSide hn
  | member => exact reads_member hn
  | primary => exact reads_primary hn

theorem deepens_production (limit depth spare : Nat) (phrase : Phrase) :
    Deepens (phrase.production (.within limit depth))
      (phrase.production (.within limit (depth + spare))) := by
  have hn := Nested.deepens_within limit limit depth spare
  cases phrase with
  | assignment => exact hn.expression.related
  | unary => exact (congruence_deepens.strict_production hn (.operands [] (by decide)) rfl).related
  | leftHandSide => exact (congruence_deepens.strict_production hn .leftHandSide rfl).related
  | member => exact (congruence_deepens.strict_production hn .member rfl).related
  | primary => exact (congruence_deepens.strict_production hn .primary rfl).related
  | _ => exact (congruence_deepens.strict_production hn (.operands _ (by decide)) rfl).related

end Phrase

variable {phrase : Phrase} {limit depth h h' : Nat} {ts : List Terminal} {e e' : Expression}

/-- If what a phrase derives is accepted with some levels to open, it has a derivation that opens no
more. -/
theorem Derives.exists_le_of_eq_ok (hd : Derives (.expression phrase) h ts e)
    {result : Expression × List Terminal}
    (hok : phrase.production (.within limit depth) none ts = .ok result) :
    ∃ h' ≤ depth, Derives (.expression phrase) h' ts e := by
  obtain ⟨e', rest⟩ := result
  obtain ⟨h', read, hle, hread, hd'⟩ :=
    (phrase.reads_production limit depth).sound rfl hd.genuine hok
  -- with enough levels for both derivations the result is that of the first
  have hconsumes : phrase.production (.within limit (depth + h)) none (ts ++ []) = .ok (e, []) :=
    (hd.completes limit).consumes (Nat.le_add_left h depth) (by cases phrase <;> decide)
  rw [List.append_nil] at hconsumes
  have hdeepened := (phrase.deepens_production limit depth h).deepened none ts
  rw [hok, hconsumes] at hdeepened
  cases hdeepened
  rw [List.append_nil] at hread
  exact ⟨h', hle, hread ▸ hd'⟩

namespace Grammar

variable {n : Nested} {input : List Terminal} {result : Expression × List Terminal}

theorem exists_eq_ok_of_foldr {kinds : List TokenKind} {operand : Production Expression}
    (hok : kinds.foldr leftAssociative operand none input = .ok result) :
    ∃ result', operand none input = .ok result' := by
  induction kinds generalizing result with
  | nil => exact ⟨result, hok⟩
  | cons kind kinds ih =>
      rw [List.foldr_cons, leftAssociative_eq] at hok
      obtain ⟨first, middle, hfirst, -⟩ := bind_eq_ok.mp hok
      exact ih hfirst

theorem exists_unary_eq_ok (hok : (Nested.within limit depth).expression none input = .ok result) :
    ∃ depth' result', depth = depth' + 1 ∧
      unary (.within limit depth') none input = .ok result' := by
  cases depth with
  | zero => cases hok
  | succ depth =>
      have hassignment : assignment (.within limit depth) none input = .ok result := hok
      rw [assignment_eq] at hassignment
      obtain ⟨left, middle, hleft, -⟩ := bind_eq_ok.mp hassignment
      obtain ⟨result', hunary⟩ := exists_eq_ok_of_foldr hleft
      exact ⟨depth, result', rfl, hunary⟩

theorem exists_primary_eq_ok (hts : Begins Symbol.startsPrimary ts)
    (hok : unary n none ts = .ok result) : ∃ result', primary n none ts = .ok result' := by
  have hunary : unary n none (ts ++ []) = _ := unary_of_startsPrimary hts
  rw [List.append_nil, hok] at hunary
  obtain ⟨callee, middle, hcallee, -⟩ := bind_eq_ok.mp hunary.symm
  obtain ⟨object, middle', hobject, -⟩ := bind_eq_ok.mp hcallee
  exact ⟨_, hobject⟩

end Grammar

theorem Derives.exists_unary_lt (hd : Derives (.expression .unary) h ts e)
    (he : Derives (.expression .assignment) h' ts e') :
    ∃ h'' < h', Derives (.expression .unary) h'' ts e := by
  have hok : (Nested.within 0 h').expression none (ts ++ []) = .ok (e', []) :=
    (he.completes 0).expression (Nat.le_refl h') (by decide)
  obtain ⟨depth, result, rfl, hunary⟩ := exists_unary_eq_ok hok
  rw [List.append_nil] at hunary
  obtain ⟨h'', hle, hd''⟩ := Derives.exists_le_of_eq_ok hd hunary
  exact ⟨h'', Nat.lt_succ_of_le hle, hd''⟩

theorem Derives.exists_inner_lt (hd : Derives (.expression .assignment) h ts e)
    (he : Derives (.expression .assignment) h'
      (Punctuator.leftParen.terminal :: (ts ++ [Punctuator.rightParen.terminal])) e') :
    ∃ h'' < h', Derives (.expression .assignment) h'' ts e := by
  have hok : (Nested.within 0 h').expression none (_ ++ []) = .ok (e', []) :=
    (he.completes 0).expression (Nat.le_refl h') (by decide)
  obtain ⟨depth, result, rfl, hunary⟩ := exists_unary_eq_ok hok
  rw [List.append_nil] at hunary
  obtain ⟨result', hprimary⟩ := exists_primary_eq_ok (.cons rfl) hunary
  obtain ⟨h'', hle, hd''⟩ := Derives.exists_le_of_eq_ok (.parenthesized hd) hprimary
  generalize hinput : Punctuator.leftParen.terminal :: (ts ++ [Punctuator.rightParen.terminal]) =
    input at hd''
  cases hd'' with
  | parenthesized hinner =>
      obtain ⟨-, hinput⟩ := List.cons.inj hinput
      obtain rfl := List.append_cancel_right hinput
      exact ⟨h'', Nat.lt_succ_of_le hle, hinner⟩
  | named hid => cases hid; cases hinput
  | operand hjoins => cases hjoins
  | joined _ hjoins => cases hjoins
  | _ => cases hinput

namespace Program

variable {limit limit' : Nat} {source : String} {p : Program}

theorem parseWithin_eq_ok_of_le (hle : limit ≤ limit')
    (hok : parseWithin limit source = .ok p) : parseWithin limit' source = .ok p := by
  refine (parseWithin_eq_of_not_isNesting hle fun failure herror => ?_).trans hok
  cases hok.symm.trans herror

/-- What is not accepted but within a larger limit is cut off by the limit. -/
theorem exists_nestingTooDeep (hle : limit ≤ limit')
    (hok' : parseWithin limit' source = .ok p) (hok : parseWithin limit source ≠ .ok p) :
    ∃ position, parseWithin limit source = .error ⟨.nestingTooDeep limit, position⟩ := by
  cases hresult : parseWithin limit source with
  | ok q =>
      have hsame := (parseWithin_eq_ok_of_le hle hresult).symm.trans hok'
      exact absurd (hresult.trans hsame) hok
  | error failure =>
      obtain ⟨fault, position⟩ := failure
      obtain ⟨offset, -, -, -, hholds⟩ := holdsAt_of_parseWithin_eq_error hresult
      by_cases hnesting : fault.isNesting
      · cases fault with
        | nestingTooDeep bound =>
            obtain ⟨rfl, -⟩ := hholds
            exact ⟨position, rfl⟩
        | _ => cases hnesting
      · have hsame := parseWithin_eq_of_not_isNesting hle fun failure' herror => by
          obtain rfl := Except.error.inj (hresult.symm.trans herror)
          exact hnesting
        cases hok'.symm.trans (hsame.trans hresult)

end Program

end Letter
