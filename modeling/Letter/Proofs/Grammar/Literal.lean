import Letter.Proofs.Grammar.Height
import Letter.Proofs.Grammar.Precedence
import Letter.Proofs.Number.Notation

namespace Letter

variable {digits : List Char} {limit : Nat}

theorem Scan.ofSource_digits_semicolon (hne : digits ≠ []) (hdigits : ∀ c ∈ digits, c.isDigit) :
    (ofSource (.ofList (digits ++ [';']))).stuck? = none ∧
      (ofSource (.ofList (digits ++ [';']))).terminals =
        [.ofDigits digits, Punctuator.semicolon.terminal] := by
  obtain ⟨hstuck, hterminals⟩ := ofSource_semicolon
  rw [ofSource, stuck?_ofText] at hstuck
  rw [ofSource, terminals_ofText] at hterminals
  have hfirst := Piece.first?_digits_append hne hdigits
    (show [';'].head?.any Char.isDigit = false by decide)
  rw [ofSource, stuck?_ofText, terminals_ofText, String.toList_ofList,
    Piece.cut_of_first?_eq_some hfirst, List.filterMap_cons_some (Piece.terminal?_of_kind? rfl)]
  exact ⟨hstuck, congrArg _ hterminals⟩

theorem Program.parseWithin_digits (hne : digits ≠ []) (hdigits : ∀ c ∈ digits, c.isDigit)
    (hlimit : 2 ≤ limit) : parseWithin limit (.ofList (digits ++ [';'])) =
      .ok ⟨[.expression (.number (.ofNat (Double.decimalValue digits)))]⟩ := by
  obtain ⟨hstuck, hterminals⟩ := Scan.ofSource_digits_semicolon hne hdigits
  have hexpression : Derives (.expression .assignment) 1 [.ofDigits digits]
      (.number (.ofNat (Double.decimalValue digits))) :=
    (Derives.number hne hdigits).simple_of_ne_assignment nofun
  have hbody : Derives (.many .statement) 2
      (([.ofDigits digits] ++ [Punctuator.semicolon.terminal]) ++ [])
      [.expression (.number (.ofNat (Double.decimalValue digits)))] :=
    .cons (.expressionStatement hexpression) .nil
  rw [parseWithin_eq_ok_iff_derives hstuck, hterminals]
  exact ⟨2, hlimit, hbody⟩

theorem Grammar.literal_consumes_digits (hne : digits ≠ []) (hdigits : ∀ c ∈ digits, c.isDigit)
    (rest : List Terminal) : literal.Consumes [.ofDigits digits]
      (.number (.ofNat (Double.decimalValue digits))) rest := by
  rw [literal_eq]
  exact Production.consumes_judge (literalOf_ofDigits hne hdigits) rest

namespace Double

/-- Numbers keep their value in JSON. What is written of a finite double rounds to it again, and
integers of 64 bits, but no other numbers, stand digit by digit; the rest is `null`. Digits of any
number are read as the double that is nearest to it, and what is written of them follows. -/
theorem keeps_value_in_json :
    (∀ negative rank, ∃ text d, (finite negative rank).toJson = .number text ∧
      Decimal.read? text = some (negative && decide (rank.val ≠ 0), d) ∧ d.RoundsTo rank) ∧
    (∀ (v : Double) (i : Int), v.toJson = .ofInt i ↔ v.IsInt i ∧ -2 ^ 63 ≤ i ∧ i < 2 ^ 64) ∧
    ((∀ negative, (infinite negative).toJson = .null) ∧ nan.toJson = .null) ∧
    ∀ (digits : List Char) (limit : Nat), digits ≠ [] → (∀ c ∈ digits, c.isDigit) → 2 ≤ limit →
      ∃ rank v, IsNearest (decimalValue digits) 1 rank ∧ v = ofRank false rank ∧
        (∀ rest, Grammar.literal.Consumes [.ofDigits digits] (.number v) rest) ∧
        Program.parseWithin limit (.ofList (digits ++ [';'])) = .ok ⟨[.expression (.number v)]⟩ ∧
        (units rank < 2 ^ 64 * unitsPerOne →
          ∃ n : Nat, units rank = n * unitsPerOne ∧ v.toJson = .ofInt n) ∧
        (decimalValue digits ≤ 2 ^ 53 → v.toJson = .ofInt (decimalValue digits)) ∧
        (2 ^ 64 * unitsPerOne ≤ units rank → decimalValue digits < 2 ^ 1024 - 2 ^ 970 →
          ofJson? v.toJson = some v ∧
          ∃ first fraction exponent, Numeral.Proper ⟨false, [first], fraction, some exponent⟩ ∧
            v.toJson = .number (Numeral.text ⟨false, [first], fraction, some exponent⟩)) ∧
        (2 ^ 1024 - 2 ^ 970 ≤ decimalValue digits → v.toJson = .null) := by
  rw [← leastInfinite_eq]
  refine ⟨exists_toJson_eq_number, fun v i => toJson_eq_ofInt_iff, ⟨fun _ => rfl, rfl⟩, ?_⟩
  intro digits limit hne hdigits hlimit
  refine ⟨nearestRank (decimalValue digits) 1, ofNat (decimalValue digits),
    isNearest_nearestRank _ Nat.one_pos, rfl, Grammar.literal_consumes_digits hne hdigits,
    Program.parseWithin_digits hne hdigits hlimit, toJson_ofNat_of_units_lt, toJson_ofNat_of_le,
    toJson_ofNat_of_lt, ?_⟩
  intro hle
  rw [ofNat_of_le hle]
  rfl

theorem keeps_value_rounded_up :
    let digits := "0018446744073709551615".toList
    digits ≠ [] ∧ (∀ c ∈ digits, c.isDigit) ∧ decimalValue digits = 2 ^ 64 - 1 ∧
      ∃ rank, units rank = 2 ^ 64 * unitsPerOne ∧
        Program.parseWithin 2 (.ofList (digits ++ [';'])) =
          .ok ⟨[.expression (.number (ofRank false rank))]⟩ ∧
        ofJson? (ofRank false rank).toJson = some (ofRank false rank) := by
  intro digits
  have hne : digits ≠ [] := by decide
  have hdigits : ∀ c ∈ digits, c.isDigit := List.all_eq_true.mp (by decide)
  have hlt : decimalValue digits < 2 ^ 1024 - 2 ^ 970 := by
    rw [← leastInfinite_eq]
    decide +kernel
  obtain ⟨rank, v, hnearest, rfl, -, hparse, -, -, hexponent, -⟩ :=
    keeps_value_in_json.2.2.2 digits 2 hne hdigits (Nat.le_refl 2)
  have hunits : units rank = 2 ^ 64 * unitsPerOne := by
    rw [← (isNearest_iff Nat.one_pos).mp hnearest]
    decide +kernel
  exact ⟨hne, hdigits, by decide +kernel, rank, hunits, hparse, (hexponent hunits.ge hlt).1⟩

end Double

end Letter
