import Letter.Proofs.Tree.WellFormed
import Mathlib.Tactic.Positivity
import Mathlib.Tactic.Ring

namespace Letter.Double

variable {num den n rank significand binade : Nat}

theorem roundedQuotient_of_dvd (hden : 0 < den) (h : den ∣ num) :
    roundedQuotient num den = num / den := by
  have hmod : num % den = 0 := Nat.mod_eq_zero_of_dvd h
  simp [roundedQuotient, hmod, hden]

theorem roundedQuotient_le : roundedQuotient num den ≤ num / den + 1 := by
  simp only [roundedQuotient]
  split <;> omega

theorem le_roundedQuotient : num / den ≤ roundedQuotient num den := by
  simp only [roundedQuotient]
  split <;> omega

theorem units_add_mul (hle : binadeSize ≤ significand) (hge : significand ≤ 2 * binadeSize) :
    units (significand + binade * binadeSize) = significand * 2 ^ binade := by
  have hpos : 0 < binadeSize := by decide
  have hnormal : ¬ significand + binade * binadeSize < binadeSize := by omega
  obtain ⟨fraction, rfl⟩ := Nat.exists_eq_add_of_le hle
  rw [units, if_neg hnormal]
  rcases Nat.lt_or_ge fraction binadeSize with hlt | hfull
  · have hrank : binadeSize + fraction + binade * binadeSize =
        fraction + (binade + 1) * binadeSize := by ring
    rw [hrank, Nat.add_mul_mod_self_right, Nat.add_mul_div_right _ _ hpos, Nat.mod_eq_of_lt hlt,
      Nat.div_eq_of_lt hlt, Nat.zero_add, Nat.add_sub_cancel]
    rfl
  · obtain rfl : fraction = binadeSize := by omega
    have hrank : binadeSize + binadeSize + binade * binadeSize = (binade + 2) * binadeSize := by
      ring
    rw [hrank, Nat.mul_mod_left, Nat.mul_div_cancel _ hpos]
    change (binadeSize + 0) * 2 ^ (binade + 1) = _
    ring

theorem log2_mul_two_pow (hle : binadeSize ≤ significand) (hlt : significand < 2 * binadeSize) :
    (significand * 2 ^ binade).log2 = binade + 52 := by
  have hne : significand * 2 ^ binade ≠ 0 := by
    have : 0 < 2 ^ binade := by positivity
    have : 0 < significand := by
      have : 0 < binadeSize := by decide
      omega
    positivity
  rw [Nat.log2_eq_iff hne]
  have hsize : binadeSize = 2 ^ 52 := by decide
  rw [hsize] at hle hlt
  constructor
  · calc 2 ^ (binade + 52) = 2 ^ 52 * 2 ^ binade := by ring
      _ ≤ significand * 2 ^ binade := Nat.mul_le_mul_right _ hle
  · calc significand * 2 ^ binade < 2 * 2 ^ 52 * 2 ^ binade :=
        Nat.mul_lt_mul_of_pos_right hlt (by positivity)
      _ = 2 ^ (binade + 52 + 1) := by ring

-- The exponent is kept under a name, as the power itself is too large to be written out.
theorem exists_unitsPerOne_eq : ∃ exponent, exponent = 1074 ∧ unitsPerOne = 2 ^ exponent := by
  refine ⟨1074, rfl, ?_⟩
  unfold unitsPerOne
  generalize 1074 = exponent
  exact Nat.pow_eq

theorem unitsPerOne_pos : 0 < unitsPerOne := by
  obtain ⟨exponent, -, hunit⟩ := exists_unitsPerOne_eq
  rw [hunit]
  positivity

theorem unitsPerOne_dvd_two_pow (h : 1074 ≤ binade) : unitsPerOne ∣ 2 ^ binade := by
  obtain ⟨exponent, hexponent, hunit⟩ := exists_unitsPerOne_eq
  rw [hunit]
  exact Nat.pow_dvd_pow 2 (by omega)

theorem two_pow_dvd_unitsPerOne (h : binade ≤ 1074) : 2 ^ binade ∣ unitsPerOne := by
  obtain ⟨exponent, hexponent, hunit⟩ := exists_unitsPerOne_eq
  rw [hunit]
  exact Nat.pow_dvd_pow 2 (by omega)

theorem le_mul_unitsPerOne (hn : n ≠ 0) : 2 * binadeSize ≤ n * unitsPerOne := by
  have hpos : 0 < n * unitsPerOne := Nat.mul_pos (Nat.pos_of_ne_zero hn) unitsPerOne_pos
  have hdvd : 2 * binadeSize ∣ unitsPerOne :=
    two_pow_dvd_unitsPerOne (show 53 ≤ 1074 by decide)
  exact Nat.le_of_dvd hpos (Dvd.dvd.mul_left hdvd n)

/-- Rounding a natural number keeps 53 bits of it, or all if it has no more. -/
theorem units_nearestRank (hn : n ≠ 0) :
    units (nearestRank n 1) =
      roundedQuotient (n * unitsPerOne) (2 ^ ((n * unitsPerOne).log2 - 52)) *
        2 ^ ((n * unitsPerOne).log2 - 52) := by
  have hlarge := le_mul_unitsPerOne hn
  rw [nearestRank, Nat.div_one, Nat.one_mul]
  generalize n * unitsPerOne = multiple at *
  have hsize : binadeSize = 2 ^ 52 := rfl
  have hne : multiple ≠ 0 := by omega
  have hlog : 52 ≤ multiple.log2 := by
    rw [Nat.le_log2 hne]
    omega
  obtain ⟨binade, hbinade⟩ : ∃ binade, multiple.log2 = binade + 52 :=
    ⟨multiple.log2 - 52, by omega⟩
  rw [hbinade, Nat.add_sub_cancel]
  obtain ⟨hle, hlt⟩ := (Nat.log2_eq_iff hne).mp hbinade
  have hpos : 0 < 2 ^ binade := by positivity
  have hlower : binadeSize ≤ multiple / 2 ^ binade := by
    rw [Nat.le_div_iff_mul_le hpos, hsize]
    calc 2 ^ 52 * 2 ^ binade = 2 ^ (binade + 52) := by ring
      _ ≤ multiple := hle
  have hupper : multiple / 2 ^ binade < 2 * binadeSize := by
    rw [Nat.div_lt_iff_lt_mul hpos, hsize]
    calc multiple < 2 ^ (binade + 52 + 1) := hlt
      _ = 2 * 2 ^ 52 * 2 ^ binade := by ring
  exact units_add_mul (hlower.trans le_roundedQuotient) (roundedQuotient_le.trans hupper)

theorem unitsPerOne_dvd_units_nearestRank (n : Nat) : unitsPerOne ∣ units (nearestRank n 1) := by
  by_cases hn : n = 0
  · subst hn
    have hzero : units (nearestRank 0 1) = 0 := by decide +kernel
    rw [hzero]
    exact Nat.dvd_zero _
  rw [units_nearestRank hn]
  generalize (n * unitsPerOne).log2 - 52 = binade
  rcases Nat.le_total 1074 binade with hcoarse | hfine
  · exact Dvd.dvd.mul_left (unitsPerOne_dvd_two_pow hcoarse) _
  · have hdvd : 2 ^ binade ∣ n * unitsPerOne := Dvd.dvd.mul_left (two_pow_dvd_unitsPerOne hfine) n
    rw [roundedQuotient_of_dvd (by positivity) hdvd, Nat.div_mul_cancel hdvd]
    exact Nat.dvd_mul_left _ _

theorem isWhole_ofNat (n : Nat) : (ofNat n).IsWhole := by
  rw [ofNat, ofRank]
  split
  · exact ⟨rfl, unitsPerOne_dvd_units_nearestRank n⟩
  · rfl

/-- A quotient that is a double is rounded to that double. -/
theorem nearestRank_of_units_mul_eq (hden : 0 < den) (h : units rank * den = num * unitsPerOne) :
    nearestRank num den = rank := by
  rw [nearestRank, ← h, Nat.mul_div_cancel _ hden]
  rcases Nat.lt_or_ge rank binadeSize with hsmall | hlarge
  · have hlog : rank.log2 - 52 = 0 := by
      by_cases hzero : rank = 0
      · rw [hzero]
        rfl
      · have hlt : rank.log2 < 52 := (Nat.log2_lt hzero).mpr hsmall
        omega
    rw [units, if_pos hsmall, hlog]
    change roundedQuotient _ (den * 1) + 0 * binadeSize = rank
    rw [Nat.mul_one, roundedQuotient_of_dvd hden (Nat.dvd_mul_left _ _),
      Nat.mul_div_cancel _ hden, Nat.zero_mul, Nat.add_zero]
  · have hpos : 0 < binadeSize := by decide
    have hunits : units rank =
        (binadeSize + rank % binadeSize) * 2 ^ (rank / binadeSize - 1) := by
      rw [units, if_neg (by omega)]
      rfl
    have hfraction := Nat.mod_lt rank hpos
    have hpower : 0 < den * 2 ^ (rank / binadeSize - 1) := by positivity
    rw [hunits, log2_mul_two_pow (by omega) (by omega), Nat.add_sub_cancel]
    change roundedQuotient _ (den * 2 ^ (rank / binadeSize - 1)) + _ = _
    rw [Nat.mul_assoc, Nat.mul_comm (2 ^ _) den, roundedQuotient_of_dvd hpower
      (Nat.dvd_mul_left _ _), Nat.mul_div_cancel _ hpower]
    have hquotient : 1 ≤ rank / binadeSize := (Nat.one_le_div_iff hpos).mpr hlarge
    calc binadeSize + rank % binadeSize + (rank / binadeSize - 1) * binadeSize
        = rank % binadeSize + (rank / binadeSize - 1 + 1) * binadeSize := by ring
      _ = rank % binadeSize + binadeSize * (rank / binadeSize) := by
        rw [Nat.sub_add_cancel hquotient, Nat.mul_comm]
      _ = rank := Nat.mod_add_div rank binadeSize

theorem nearestRank_of_units_eq (h : units rank = n * unitsPerOne) : nearestRank n 1 = rank :=
  nearestRank_of_units_mul_eq Nat.one_pos (by rw [Nat.mul_one, h])

/-- The digits of a whole number; of infinity, those of a number past every finite double. -/
def wholeDigits : Double → List Char
  | .finite _ rank => Nat.toDigits 10 (units rank / unitsPerOne)
  | _ => '1' :: List.replicate 309 '0'

theorem decimalValue_toDigits (n : Nat) : decimalValue (Nat.toDigits 10 n) = n := by
  rw [decimalValue, ← Nat.ofDigitChars_eq_foldl]
  exact Nat.ofDigitChars_toDigits (by decide) (by decide)

theorem ofNat_decimalValue_wholeDigits {value : Double} (h : value.IsWhole) :
    ofNat (decimalValue value.wholeDigits) = value := by
  cases value with
  | finite negative rank =>
      obtain ⟨rfl, hdvd⟩ := h
      have hunits : units rank = units rank / unitsPerOne * unitsPerOne :=
        (Nat.div_mul_cancel hdvd).symm
      rw [wholeDigits, decimalValue_toDigits, ofNat, nearestRank_of_units_eq hunits, ofRank,
        dif_pos rank.isLt]
  | infinite negative =>
      obtain rfl : negative = false := h
      decide +kernel
  | nan => exact h.elim

theorem wholeDigits_ne_nil (value : Double) : value.wholeDigits ≠ [] := by
  cases value with
  | finite negative rank => exact Nat.toDigits_ne_nil
  | _ => exact List.cons_ne_nil _ _

theorem isDigit_of_mem_wholeDigits {value : Double} {c : Char} (h : c ∈ value.wholeDigits) :
    c.isDigit := by
  cases value with
  | finite negative rank => exact Nat.isDigit_of_mem_toDigits (by decide) (by decide) h
  | _ =>
      rcases List.mem_cons.mp h with rfl | hzero
      · decide
      · obtain rfl := List.eq_of_mem_replicate hzero
        decide

end Letter.Double
