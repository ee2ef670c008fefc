import Letter.Proofs.Json.Writing
import Letter.Proofs.Number.Numeral
import Letter.Tree.Json

namespace Letter

theorem Numeral.exists_numeral_ofInt (i : Int) :
    ∃ n : Numeral, n.Proper ∧ Json.ofInt i = .number n.text ∧ n.negative = decide (i < 0) ∧
      n.decimal = ⟨i.natAbs, 0⟩ := by
  refine ⟨⟨decide (i < 0), Nat.toDigits 10 i.natAbs, [], none⟩, ⟨?_, ?_⟩, ?_, rfl, ?_⟩
  · exact isWhole_toDigits i.natAbs
  · exact List.forall_mem_nil _
  · simp only [Json.ofInt, text, signText, fractionText, exponentText, List.append_nil,
      decide_eq_true_eq]
    split <;> rfl
  · simp [decimal, Double.decimalValue_toDigits]

namespace Double

/-- A number that is equal, with the sign that zero has in JSON. -/
def canonical : Double → Double
  | finite negative rank => finite (negative && decide (rank.val ≠ 0)) rank
  | v => v

def negativeZero : Double :=
  finite true ⟨0, by decide⟩

/-- Numbers with a JSON form of their own: `null` is read as positive infinity. -/
def Recoverable : Double → Prop
  | finite _ _ => True
  | infinite negative => negative = false
  | nan => False

/-- The number that a JSON value denotes. -/
def ofJson? : Json → Option Double
  | .number text => (Decimal.read? text).map fun result => ofRank result.1 result.2.rank
  | .null => some (infinite false)
  | _ => none

theorem canonical_eq_self {v : Double} (h : v ≠ negativeZero) : v.canonical = v := by
  cases v with
  | finite negative rank =>
      cases negative with
      | false => rfl
      | true =>
          have hrank : rank.val ≠ 0 := fun hzero => h (congrArg (finite true) (Fin.ext hzero))
          simp [canonical, hrank]
  | infinite negative => rfl
  | nan => rfl

theorem units_eq_zero_iff {rank : Nat} : units rank = 0 ↔ rank = 0 := by
  have hpos : 0 < binadeSize := by decide
  rw [units]
  split
  · rfl
  · rw [Nat.pow_eq]
    have hunits : 0 < (binadeSize + rank % binadeSize) * 2 ^ (rank / binadeSize - 1) := by
      positivity
    omega

variable {negative : Bool} {rank : Fin finiteCount}

theorem exists_numeral_shortestJson (negative : Bool) (hrank : rank.val ≠ 0) :
    ∃ n : Numeral, n.Proper ∧ shortestJson (finite negative rank) = .number n.text ∧
      n.negative = negative ∧ n.decimal.rank = rank := by
  obtain ⟨n, hproper, hnegative, htext, hdecimal⟩ :=
    Numeral.exists_numeral_write jsonStyle (Decimal.coefficient_shortest_ne_zero hrank)
  rw [Decimal.rank_shortest] at hdecimal
  refine ⟨{ n with negative := negative }, ⟨hproper.whole, hproper.fraction⟩, ?_, rfl, hdecimal⟩
  rw [shortestJson, ← htext]
  cases negative <;> simp [Numeral.text, Numeral.signText, hnegative]

theorem toInt?_of_eq_zero (h : rank.val = 0) : toInt? (finite negative rank) = some 0 := by
  have hunits : units rank = 0 := units_eq_zero_iff.mpr h
  simp [toInt?, hunits]

theorem rank_natAbs {i : Int} (h : toInt? (finite negative rank) = some i) :
    (Decimal.mk i.natAbs 0).rank = rank ∧ (i < 0 ↔ negative = true ∧ rank.val ≠ 0) := by
  rw [toInt?] at h
  split at h
  · rename_i hdvd
    have hi := Option.some.inj h
    have hunits : units rank = units rank / unitsPerOne * unitsPerOne :=
      (Nat.div_mul_cancel (Nat.dvd_of_mod_eq_zero hdvd)).symm
    have hzero : units rank / unitsPerOne = 0 ↔ rank.val = 0 := by
      refine Iff.trans ?_ units_eq_zero_iff
      constructor
      · intro hzero
        rw [hunits, hzero, Nat.zero_mul]
      · intro hzero
        rw [hzero, Nat.zero_div]
    generalize units rank / unitsPerOne = magnitude at hi hunits hzero
    have hnatAbs : i.natAbs = magnitude := by
      cases negative <;> simp at hi <;> omega
    constructor
    · rw [hnatAbs, Decimal.rank]
      exact nearestRank_of_units_mul_eq Nat.one_pos (by simp [hunits])
    · cases negative <;> simp at hi ⊢ <;> omega
  · cases h

theorem exists_numeral_toJson (negative : Bool) (rank : Fin finiteCount) :
    ∃ n : Numeral, n.Proper ∧ (finite negative rank).toJson = .number n.text ∧
      ofRank n.negative n.decimal.rank = (finite negative rank).canonical := by
  have hshortest (hrank : rank.val ≠ 0) : ∃ n : Numeral, n.Proper ∧
      shortestJson (finite negative rank) = .number n.text ∧
      ofRank n.negative n.decimal.rank = (finite negative rank).canonical := by
    obtain ⟨n, hproper, htext, hnegative, hdecimal⟩ :=
      exists_numeral_shortestJson negative hrank
    refine ⟨n, hproper, htext, ?_⟩
    simp [ofRank, canonical, hnegative, hdecimal, hrank]
  rw [toJson]
  cases hint : toInt? (finite negative rank) with
  | none =>
      refine hshortest fun hzero => ?_
      rw [toInt?_of_eq_zero hzero] at hint
      cases hint
  | some i =>
      obtain ⟨hrank, hsign⟩ := rank_natAbs hint
      dsimp only
      split
      · obtain ⟨n, hproper, htext, hnegative, hdecimal⟩ := Numeral.exists_numeral_ofInt i
        refine ⟨n, hproper, htext, ?_⟩
        rw [hdecimal, hrank, hnegative]
        simp [ofRank, canonical, hsign]
      · rename_i hrange
        refine hshortest fun hzero => hrange ?_
        rw [toInt?_of_eq_zero hzero] at hint
        obtain rfl := Option.some.inj hint
        decide

theorem ofJson?_toJson {v : Double} (h : v.Recoverable) : ofJson? v.toJson = some v.canonical := by
  cases v with
  | finite negative rank =>
      obtain ⟨n, hproper, htext, hvalue⟩ := exists_numeral_toJson negative rank
      rw [htext, ofJson?, Numeral.read?_text hproper]
      exact congrArg some hvalue
  | infinite negative =>
      obtain rfl : negative = false := h
      rfl
  | nan => exact h.elim

theorem wellFormed_toJson (v : Double) : v.toJson.WellFormed := by
  cases v with
  | finite negative rank =>
      obtain ⟨n, hproper, htext, -⟩ := exists_numeral_toJson negative rank
      rw [htext]
      exact Numeral.isNumber_text hproper
  | infinite negative => trivial
  | nan => trivial

end Double

end Letter
