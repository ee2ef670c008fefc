import Letter.Number.Decimal
import Letter.Proofs.Number.Whole

namespace Letter.Decimal

variable {rank exponent : Nat}

theorem rank_of_neg {coefficient : Nat} (hdvd : Double.unitsPerOne = 2 ^ exponent)
    (h : coefficient = Double.units rank * 5 ^ exponent) :
    (Decimal.mk coefficient (-exponent)).rank = rank := by
  have hnumerator : (-(exponent : Int)).toNat = 0 := by omega
  have hdenominator : (-(-(exponent : Int))).toNat = exponent := by omega
  rw [Decimal.rank, hnumerator, hdenominator]
  apply Double.nearestRank_of_units_mul_eq
  · rw [Nat.pow_eq]
    positivity
  · rw [hdvd, h, Nat.pow_eq, Nat.pow_eq, Nat.pow_zero, Nat.mul_one, Nat.mul_assoc,
      ← Nat.mul_pow]

theorem rank_exact (rank : Nat) : (exact rank).rank = rank := by
  obtain ⟨exponent, hexponent, hunit⟩ := Double.exists_unitsPerOne_eq
  have hnegative : (-1074 : Int) = -(exponent : Int) := by omega
  have hexact : exact rank = ⟨Double.units rank * Nat.pow 5 exponent, -exponent⟩ := by
    unfold exact
    rw [hnegative, ← hexponent]
  rw [hexact]
  exact rank_of_neg hunit rfl

theorem rank_shortestFrom (rank grids : Nat) (exponent : Int) :
    (shortestFrom rank grids exponent).rank = rank := by
  induction grids generalizing exponent with
  | zero => exact rank_exact rank
  | succ grids ih =>
      rw [shortestFrom]
      cases hgrid : onGrid? rank exponent with
      | none => exact ih (exponent - 1)
      | some d => exact rank_of_onGrid? hgrid

/-- However many grids hold no decimal for a rank, the one that is found is read as it. -/
theorem rank_shortest (rank : Nat) : (shortest rank).rank = rank :=
  rank_shortestFrom rank _ _

theorem rank_of_coefficient_eq_zero {d : Decimal} (h : d.coefficient = 0) : d.rank = 0 := by
  rw [Decimal.rank, h]
  apply Double.nearestRank_of_units_mul_eq
  · rw [Nat.pow_eq]
    positivity
  · rw [Nat.zero_mul, Nat.zero_mul]
    exact Nat.zero_mul _

theorem coefficient_shortest_ne_zero (h : rank ≠ 0) : (shortest rank).coefficient ≠ 0 := by
  intro hzero
  have hrank := rank_of_coefficient_eq_zero hzero
  rw [rank_shortest] at hrank
  exact h hrank

end Letter.Decimal
