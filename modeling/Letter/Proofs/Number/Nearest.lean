import Letter.Proofs.Number.Whole
import Mathlib.Data.Nat.Dist
import Mathlib.Order.Monotone.Basic

namespace Letter.Double

variable {num den rank rank' significand binade : Nat}

/-- How far a quotient is from the double of a rank, in units of the least positive double and
times the denominator. -/
def distance (num den rank : Nat) : Nat :=
  Nat.dist (num * unitsPerOne) (units rank * den)

/-- Rounding to nearest, ties to even. -/
structure IsNearest (num den rank : Nat) : Prop where
  distance_le : ∀ rank', distance num den rank ≤ distance num den rank'
  even_of_tie : ∀ rank', rank' ≠ rank → distance num den rank' = distance num den rank →
    rank % 2 = 0

section Units

theorem binadeSize_pos : 0 < binadeSize := by decide

theorem exists_significand (rank : Nat) : ∃ significand binade,
    (binade = 0 ∨ binadeSize ≤ significand) ∧ significand < 2 * binadeSize ∧
      rank = significand + binade * binadeSize := by
  -- only in the first binade the significand can be small
  have hpos := binadeSize_pos
  rcases Nat.lt_or_ge rank binadeSize with hlt | hge
  · exact ⟨rank, 0, .inl rfl, by omega, by omega⟩
  · have hfraction := Nat.mod_lt rank hpos
    have hquotient : 1 ≤ rank / binadeSize := (Nat.one_le_div_iff hpos).mpr hge
    refine ⟨binadeSize + rank % binadeSize, rank / binadeSize - 1, .inr (Nat.le_add_right _ _),
      by omega, ?_⟩
    calc rank = rank % binadeSize + binadeSize * (rank / binadeSize) :=
          (Nat.mod_add_div rank binadeSize).symm
      _ = rank % binadeSize + (rank / binadeSize - 1 + 1) * binadeSize := by
          rw [Nat.sub_add_cancel hquotient, Nat.mul_comm]
      _ = binadeSize + rank % binadeSize + (rank / binadeSize - 1) * binadeSize := by ring

theorem units_significand (hnormal : binade = 0 ∨ binadeSize ≤ significand)
    (hle : significand ≤ 2 * binadeSize) :
    units (significand + binade * binadeSize) = significand * 2 ^ binade := by
  rcases Nat.lt_or_ge significand binadeSize with hlt | hge
  · obtain rfl := hnormal.resolve_right (Nat.not_le_of_lt hlt)
    rw [Nat.zero_mul, Nat.add_zero, pow_zero, Nat.mul_one, units, if_pos hlt]
  · exact units_add_mul hge hle

theorem units_significand_succ (hnormal : binade = 0 ∨ binadeSize ≤ significand)
    (hlt : significand < 2 * binadeSize) :
    units (significand + binade * binadeSize + 1) = (significand + 1) * 2 ^ binade := by
  have hsucc : significand + binade * binadeSize + 1 =
      significand + 1 + binade * binadeSize := by ring
  have hle : significand + 1 ≤ 2 * binadeSize := hlt
  rw [hsucc, units_significand (hnormal.imp_right fun h => h.trans (Nat.le_add_right _ 1)) hle]

theorem units_lt_units_succ (rank : Nat) : units rank < units (rank + 1) := by
  obtain ⟨significand, binade, hnormal, hlt, rfl⟩ := exists_significand rank
  rw [units_significand_succ hnormal hlt, units_significand hnormal hlt.le]
  exact Nat.mul_lt_mul_of_pos_right (Nat.lt_succ_self _) (by positivity)

theorem strictMono_units : StrictMono units :=
  strictMono_nat_of_lt_succ units_lt_units_succ

theorem units_mul_le (den : Nat) (h : rank ≤ rank') : units rank * den ≤ units rank' * den :=
  Nat.mul_le_mul_right den (strictMono_units.monotone h)

theorem units_mul_lt (hden : 0 < den) (h : rank < rank') :
    units rank * den < units rank' * den :=
  Nat.mul_lt_mul_of_pos_right (strictMono_units h) hden

theorem units_mul_lt_succ (hden : 0 < den) (rank : Nat) :
    units rank * den < units (rank + 1) * den :=
  units_mul_lt hden (Nat.lt_succ_self rank)

end Units

section Rounding

theorem isNearest_of_between (hden : 0 < den) (hle : units rank * den ≤ num * unitsPerOne)
    (hlt : num * unitsPerOne < units (rank + 1) * den)
    (h : rank' = rank ∧ (2 * (num * unitsPerOne) < units rank * den + units (rank + 1) * den ∨
        2 * (num * unitsPerOne) = units rank * den + units (rank + 1) * den ∧ rank % 2 = 0) ∨
      rank' = rank + 1 ∧ (units rank * den + units (rank + 1) * den < 2 * (num * unitsPerOne) ∨
        2 * (num * unitsPerOne) = units rank * den + units (rank + 1) * den ∧ rank % 2 = 1)) :
    IsNearest num den rank' := by
  have hother : ∀ other, distance num den rank' ≤ distance num den other ∧
      (other ≠ rank' → distance num den other = distance num den rank' → rank' % 2 = 0) := by
    intro other
    -- On either side of the neighbours everything is farther than the neighbour on that side.
    rcases Nat.lt_trichotomy other rank with hbelow | rfl | habove
    · have hlower := units_mul_lt hden hbelow
      simp only [distance, Nat.dist]
      rcases h with ⟨rfl, h⟩ | ⟨rfl, h⟩ <;> omega
    · simp only [distance, Nat.dist]
      rcases h with ⟨rfl, h⟩ | ⟨rfl, h⟩ <;> omega
    · have hupper := units_mul_le den (show rank + 1 ≤ other from habove)
      simp only [distance, Nat.dist]
      rcases h with ⟨rfl, h⟩ | ⟨rfl, h⟩
      · omega
      · rcases Nat.eq_or_lt_of_le (show rank + 1 ≤ other from habove) with rfl | hfarther
        · omega
        · have := units_mul_lt hden hfarther
          omega
  exact ⟨fun other => (hother other).1, fun other => (hother other).2⟩

theorem exists_binade (num den : Nat) : ∃ binade,
    (binade = 0 ∨ binadeSize ≤ num * unitsPerOne / (den * 2 ^ binade)) ∧
      num * unitsPerOne / (den * 2 ^ binade) < 2 * binadeSize ∧
      nearestRank num den =
        roundedQuotient (num * unitsPerOne) (den * 2 ^ binade) + binade * binadeSize := by
  have hsize : binadeSize = 2 ^ 52 := rfl
  refine ⟨(num * unitsPerOne / den).log2 - 52, ?_, ?_, rfl⟩
  all_goals
    rw [← Nat.div_div_eq_div_mul]
    generalize num * unitsPerOne / den = quotient
    have hlt := quotient.lt_log2_self
  · refine or_iff_not_imp_left.mpr fun hne => ?_
    obtain ⟨binade, hbinade⟩ : ∃ binade, quotient.log2 = binade + 52 :=
      ⟨quotient.log2 - 52, by omega⟩
    have hquotient : quotient ≠ 0 := by
      rintro rfl
      exact hne rfl
    rw [hbinade, Nat.add_sub_cancel, Nat.le_div_iff_mul_le (by positivity), hsize]
    calc 2 ^ 52 * 2 ^ binade = 2 ^ quotient.log2 := by rw [hbinade]; ring
      _ ≤ quotient := Nat.log2_self_le hquotient
  · rw [Nat.div_lt_iff_lt_mul (by positivity), hsize]
    calc quotient < 2 ^ (quotient.log2 + 1) := hlt
      _ ≤ 2 ^ (53 + (quotient.log2 - 52)) := Nat.pow_le_pow_right (by decide) (by omega)
      _ = 2 * 2 ^ 52 * 2 ^ (quotient.log2 - 52) := by ring

theorem isNearest_nearestRank (num : Nat) (hden : 0 < den) :
    IsNearest num den (nearestRank num den) := by
  obtain ⟨binade, hnormal, hlt, hrank⟩ := exists_binade num den
  obtain ⟨half, hhalf⟩ : ∃ half, binade * binadeSize = 2 * half :=
    ⟨binade * 0x8000000000000, by rw [binadeSize]; ring⟩
  have hstep : 0 < den * 2 ^ binade := by positivity
  have hdivision := Nat.div_add_mod (num * unitsPerOne) (den * 2 ^ binade)
  have hremainder := Nat.mod_lt (num * unitsPerOne) hstep
  rw [hrank, roundedQuotient]
  generalize num * unitsPerOne / (den * 2 ^ binade) = significand at *
  have hunits : units (significand + binade * binadeSize) * den =
      den * 2 ^ binade * significand := by
    rw [units_significand hnormal hlt.le]
    ring
  have hunits_succ : units (significand + binade * binadeSize + 1) * den =
      den * 2 ^ binade * significand + den * 2 ^ binade := by
    rw [units_significand_succ hnormal hlt]
    ring
  have hle : units (significand + binade * binadeSize) * den ≤ num * unitsPerOne := by omega
  have hgt : num * unitsPerOne < units (significand + binade * binadeSize + 1) * den := by omega
  refine isNearest_of_between hden hle hgt ?_
  rw [hunits, hunits_succ]
  generalize den * 2 ^ binade * significand = floor at *
  generalize num * unitsPerOne % (den * 2 ^ binade) = remainder at *
  generalize den * 2 ^ binade = step at *
  split <;> omega

theorem IsNearest.unique (hden : 0 < den) (h : IsNearest num den rank)
    (h' : IsNearest num den rank') : rank = rank' := by
  -- two of them would both be even, and one between them nearer
  by_contra hne
  wlog hlt : rank < rank' generalizing rank rank'
  · exact this h' h (Ne.symm hne) (by omega)
  have hdistance : distance num den rank' = distance num den rank :=
    Nat.le_antisymm (h'.distance_le rank) (h.distance_le rank')
  have heven := h.even_of_tie rank' (Ne.symm hne) hdistance
  have heven' := h'.even_of_tie rank hne hdistance.symm
  have hbetween : rank + 1 < rank' := by omega
  have hlower := units_mul_lt_succ hden rank
  have hupper := units_mul_lt hden hbetween
  have hnearer := h.distance_le (rank + 1)
  simp only [distance, Nat.dist] at *
  omega

theorem isNearest_iff (hden : 0 < den) : IsNearest num den rank ↔ nearestRank num den = rank := by
  have hnearest := isNearest_nearestRank num hden
  constructor
  · exact hnearest.unique hden
  · rintro rfl
    exact hnearest

/-- Rounding stays at or below a rank up to the middle between it and the next, which itself is
rounded to the even one of the two. -/
theorem nearestRank_le_iff (hden : 0 < den) : nearestRank num den ≤ rank ↔
    2 * (num * unitsPerOne) < units rank * den + units (rank + 1) * den ∨
      2 * (num * unitsPerOne) = units rank * den + units (rank + 1) * den ∧ rank % 2 = 0 := by
  have hnearest := isNearest_nearestRank num hden
  have hstep := units_mul_lt_succ hden rank
  generalize nearestRank num den = nearest at *
  constructor
  · intro hle
    have hnearer := hnearest.distance_le (rank + 1)
    have heven := hnearest.even_of_tie (rank + 1) (by omega)
    have hbelow := units_mul_le den hle
    simp only [distance, Nat.dist] at *
    rcases Nat.eq_or_lt_of_le hle with rfl | hlt
    · omega
    · have := units_mul_lt hden hlt
      omega
  · intro h
    by_contra hlt
    have hnearer := hnearest.distance_le rank
    have heven := hnearest.even_of_tie rank (by omega)
    have habove := units_mul_le den (show rank + 1 ≤ nearest by omega)
    simp only [distance, Nat.dist] at *
    rcases Nat.eq_or_lt_of_le (show rank + 1 ≤ nearest by omega) with rfl | hgt
    · omega
    · have := units_mul_lt hden hgt
      omega

theorem nearestRank_le (hden : 0 < den) (h : num * unitsPerOne ≤ units rank * den) :
    nearestRank num den ≤ rank := by
  have hstep := units_mul_lt_succ hden rank
  rw [nearestRank_le_iff hden]
  omega

end Rounding

section Naturals

theorem exists_units_eq (hle : significand ≤ 2 * binadeSize) (binade : Nat) :
    ∃ rank, units rank = significand * 2 ^ binade := by
  induction binade generalizing significand with
  | zero => exact ⟨significand + 0 * binadeSize, units_significand (.inl rfl) hle⟩
  | succ binade ih =>
      rcases Nat.lt_or_ge significand binadeSize with hlt | hge
      · obtain ⟨rank, hrank⟩ := ih (show 2 * significand ≤ 2 * binadeSize by omega)
        exact ⟨rank, by rw [hrank]; ring⟩
      · exact ⟨significand + (binade + 1) * binadeSize, units_significand (.inr hge) hle⟩

theorem units_nearestRank_mul_two_pow (hle : significand ≤ 2 * binadeSize) (binade : Nat) :
    units (nearestRank (significand * 2 ^ binade) 1) = significand * 2 ^ binade * unitsPerOne := by
  obtain ⟨exponent, -, hunit⟩ := exists_unitsPerOne_eq
  obtain ⟨rank, hrank⟩ := exists_units_eq hle (binade + exponent)
  have hunits : units rank = significand * 2 ^ binade * unitsPerOne := by
    rw [hrank, hunit]
    ring
  rw [nearestRank_of_units_eq hunits, hunits]

/-- The least natural number that is rounded past the finite doubles. It is the middle between the
greatest of them and the power of two behind it. -/
def leastInfinite : Nat := Nat.pow 2 1024 - Nat.pow 2 970

theorem leastInfinite_eq : leastInfinite = 2 ^ 1024 - 2 ^ 970 := by
  decide +kernel

theorem units_finiteCount :
    units (finiteCount - 1) + units finiteCount = 2 * (leastInfinite * unitsPerOne) := by
  decide +kernel

theorem nearestRank_lt_finiteCount_iff (n : Nat) :
    nearestRank n 1 < finiteCount ↔ n < leastInfinite := by
  have hodd : (finiteCount - 1) % 2 = 1 := by decide
  have hlast : finiteCount - 1 + 1 = finiteCount := by decide
  have hscale : n * unitsPerOne < leastInfinite * unitsPerOne ↔ n < leastInfinite :=
    Nat.mul_lt_mul_right unitsPerOne_pos
  rw [← hlast, Nat.lt_succ_iff, nearestRank_le_iff Nat.one_pos, hlast, hodd, Nat.mul_one,
    Nat.mul_one, units_finiteCount, ← hscale]
  omega

end Naturals

end Letter.Double
