import Letter.Proofs.Number.Nearest
import Letter.Proofs.Number.Recovery

namespace Letter

namespace Decimal

variable {d : Decimal} {digits rank : Nat}

/-- A rank as which a decimal may be read: none is nearer, and it is even if another is as near. -/
def RoundsTo (d : Decimal) (rank : Nat) : Prop :=
  Double.IsNearest (d.coefficient * 10 ^ d.exponent.toNat) (10 ^ (-d.exponent).toNat) rank

theorem roundsTo_iff : d.RoundsTo rank ↔ d.rank = rank :=
  Double.isNearest_iff (by positivity)

theorem coefficient_mul_lt
    (h : d.exponent + (Nat.toDigits 10 d.coefficient).length ≤ digits) :
    d.coefficient * 10 ^ d.exponent.toNat < 10 ^ digits * 10 ^ (-d.exponent).toNat := by
  have hlength : d.coefficient < 10 ^ (Nat.toDigits 10 d.coefficient).length :=
    (Nat.length_toDigits_le_iff (by decide) Nat.length_toDigits_pos).mp (Nat.le_refl _)
  calc d.coefficient * 10 ^ d.exponent.toNat
      < 10 ^ (Nat.toDigits 10 d.coefficient).length * 10 ^ d.exponent.toNat :=
        Nat.mul_lt_mul_of_pos_right hlength (by positivity)
    _ = 10 ^ ((Nat.toDigits 10 d.coefficient).length + d.exponent.toNat) := by ring
    _ ≤ 10 ^ (digits + (-d.exponent).toNat) := Nat.pow_le_pow_right (by decide) (by omega)
    _ = 10 ^ digits * 10 ^ (-d.exponent).toNat := by ring

theorem lt_leading_of_units_lt (h : 2 ^ 54 * Double.unitsPerOne < Double.units d.rank) :
    16 < d.exponent + (Nat.toDigits 10 d.coefficient).length := by
  by_contra hle
  have hlt : d.coefficient * 10 ^ d.exponent.toNat < 10 ^ 16 * 10 ^ (-d.exponent).toNat :=
    coefficient_mul_lt (Int.not_lt.mp hle)
  have hpower := Double.units_nearestRank_mul_two_pow (show 1 ≤ 2 * Double.binadeSize by decide) 54
  rw [Nat.one_mul] at hpower
  have hrank : d.rank ≤ Double.nearestRank (2 ^ 54) 1 := by
    apply Double.nearestRank_le (by rw [Nat.pow_eq]; positivity)
    rw [hpower, Nat.pow_eq, Nat.pow_eq]
    calc d.coefficient * 10 ^ d.exponent.toNat * Double.unitsPerOne
        ≤ 10 ^ 16 * 10 ^ (-d.exponent).toNat * Double.unitsPerOne :=
          Nat.mul_le_mul_right _ hlt.le
      _ ≤ 2 ^ 54 * 10 ^ (-d.exponent).toNat * Double.unitsPerOne :=
          Nat.mul_le_mul_right _ (Nat.mul_le_mul_right _ (by decide))
      _ = 2 ^ 54 * Double.unitsPerOne * 10 ^ (-d.exponent).toNat := by ring
  have hunits := Double.strictMono_units.monotone hrank
  omega

theorem exists_write_shortest_eq (h : 2 ^ 54 * Double.unitsPerOne < Double.units rank) :
    ∃ first fraction exponent, Numeral.Proper ⟨false, [first], fraction, some exponent⟩ ∧
      (shortest rank).write Double.jsonStyle =
        Numeral.text ⟨false, [first], fraction, some exponent⟩ := by
  have hleading : 16 < (shortest rank).exponent +
      (Nat.toDigits 10 (shortest rank).coefficient).length := by
    apply lt_leading_of_units_lt
    rwa [rank_shortest]
  have hdigits := Numeral.isDigits_toDigits (shortest rank).coefficient
  obtain ⟨first, fraction, hcons⟩ := List.exists_cons_of_ne_nil hdigits.ne_nil
  have hstyle : ∀ n : Int, 16 < n → ¬(Double.jsonStyle.leastPositional ≤ n - 1 ∧
      n - 1 ≤ Double.jsonStyle.greatestPositional) := by
    simp only [Double.jsonStyle]
    omega
  rw [write, if_neg (hstyle _ hleading), hcons, ← Numeral.text_scientific]
  exact ⟨first, fraction, _, Numeral.proper_scientific (hcons ▸ hdigits) _, rfl⟩

end Decimal

namespace Json

theorem ofInt_injective {i j : Int} (h : ofInt i = ofInt j) : i = j := by
  obtain ⟨n, hproper, htext, hnegative, hdecimal⟩ := Numeral.exists_numeral_ofInt i
  obtain ⟨n', hproper', htext', hnegative', hdecimal'⟩ := Numeral.exists_numeral_ofInt j
  have hread := Numeral.read?_text hproper
  rw [number.inj (htext.symm.trans (h.trans htext')), Numeral.read?_text hproper', hnegative,
    hnegative', hdecimal, hdecimal', Option.some.injEq, Prod.mk.injEq, decide_eq_decide,
    Decimal.mk.injEq] at hread
  omega

theorem not_mem_of_ofInt_eq {i : Int} {text : List Char} (h : ofInt i = .number text) :
    'e' ∉ text := by
  have hdigits : 'e' ∉ Nat.toDigits 10 i.natAbs := by
    intro he
    have hdigit := (Numeral.isDigits_toDigits i.natAbs).isDigit 'e' he
    cases hdigit
  obtain rfl := number.inj h
  split
  · exact List.not_mem_cons_of_ne_of_not_mem (by decide) hdigits
  · exact hdigits

end Json

namespace Double

variable {negative : Bool} {rank : Fin finiteCount} {v : Double} {i : Int} {n : Nat}

/-- Equality with an integer, both in units of the least positive double. -/
def IsInt : Double → Int → Prop
  | finite negative rank, i =>
    (if negative then -(units rank : Int) else units rank) = i * unitsPerOne
  | _, _ => False

theorem toInt?_of_units_eq (h : units rank = n * unitsPerOne) :
    toInt? (finite negative rank) = some (if negative then -(n : Int) else n) := by
  have hmod : n * unitsPerOne % unitsPerOne = 0 := Nat.mul_mod_left n unitsPerOne
  simp only [toInt?, h, hmod, Nat.mul_div_cancel n unitsPerOne_pos, if_true]

theorem toInt?_of_not_dvd (h : ¬unitsPerOne ∣ units rank) :
    toInt? (finite negative rank) = none :=
  if_neg fun hmod => h (Nat.dvd_of_mod_eq_zero hmod)

theorem IsInt.units_eq (h : (finite negative rank).IsInt i) :
    units rank = i.natAbs * unitsPerOne := by
  have hnatAbs := congrArg Int.natAbs h
  rw [Int.natAbs_mul, Int.natAbs_natCast] at hnatAbs
  rw [← hnatAbs]
  cases negative <;> simp

theorem toInt?_eq_some_iff : v.toInt? = some i ↔ v.IsInt i := by
  cases v with
  | finite negative rank =>
      by_cases hdvd : unitsPerOne ∣ units rank
      · obtain ⟨n, hunits⟩ := hdvd
        rw [Nat.mul_comm] at hunits
        have hpos : (unitsPerOne : Int) ≠ 0 := by
          exact_mod_cast unitsPerOne_pos.ne'
        rw [toInt?_of_units_eq hunits, Option.some.injEq, IsInt, hunits, Nat.cast_mul,
          ← Int.mul_eq_mul_right_iff hpos]
        cases negative with
        | false => simp only [Bool.false_eq_true, if_false]
        | true => simp only [if_true, Int.neg_mul]
      · rw [toInt?_of_not_dvd hdvd]
        refine iff_of_false nofun fun hint => hdvd ?_
        rw [hint.units_eq]
        exact Nat.dvd_mul_left _ _
  | infinite negative => exact iff_of_false nofun id
  | nan => exact iff_of_false nofun id

theorem exists_mem_shortestJson (negative : Bool) (h : 2 ^ 54 * unitsPerOne < units rank) :
    ∃ text, shortestJson (finite negative rank) = .number text ∧ 'e' ∈ text := by
  obtain ⟨first, fraction, exponent, -, htext⟩ := Decimal.exists_write_shortest_eq h
  refine ⟨_, rfl, ?_⟩
  rw [htext]
  cases negative <;> simp [Numeral.text, Numeral.exponentText]

theorem eq_of_ofRank_eq_finite {negative' : Bool} {nearest : Nat}
    (h : ofRank negative' nearest = finite negative rank) :
    negative' = negative ∧ nearest = rank := by
  rw [ofRank] at h
  split at h
  · obtain ⟨hnegative, hrank⟩ := finite.inj h
    exact ⟨hnegative, congrArg Fin.val hrank⟩
  · cases h

theorem exists_toJson_eq_number (negative : Bool) (rank : Fin finiteCount) :
    ∃ text d, (finite negative rank).toJson = .number text ∧
      Decimal.read? text = some (negative && decide (rank.val ≠ 0), d) ∧ d.RoundsTo rank := by
  obtain ⟨n, hproper, htext, hvalue⟩ := exists_numeral_toJson negative rank
  obtain ⟨hnegative, hrank⟩ := eq_of_ofRank_eq_finite hvalue
  refine ⟨n.text, n.decimal, htext, ?_, Decimal.roundsTo_iff.mpr hrank⟩
  rw [Numeral.read?_text hproper, hnegative]

theorem dvd_of_toJson_eq_ofInt (h : (finite negative rank).toJson = .ofInt i) :
    unitsPerOne ∣ units rank := by
  have hread := ofJson?_toJson (v := finite negative rank) trivial
  obtain ⟨numeral, hproper, htext, -, hdecimal⟩ := Numeral.exists_numeral_ofInt i
  rw [h, htext, ofJson?, Numeral.read?_text hproper, hdecimal, Option.map_some,
    Option.some.injEq] at hread
  have hrank : (Decimal.mk i.natAbs 0).rank = rank := (eq_of_ofRank_eq_finite hread).2
  rw [← hrank, Decimal.rank]
  exact unitsPerOne_dvd_units_nearestRank _

theorem toJson_eq_ofInt_iff : v.toJson = .ofInt i ↔
    v.IsInt i ∧ -0x8000000000000000 ≤ i ∧ i < 0x10000000000000000 := by
  rw [← toInt?_eq_some_iff]
  constructor
  · intro h
    cases v with
    | finite negative rank =>
        obtain ⟨n, hunits⟩ := dvd_of_toJson_eq_ofInt h
        rw [Nat.mul_comm] at hunits
        obtain ⟨j, hj⟩ : ∃ j, toInt? (finite negative rank) = some j :=
          ⟨_, toInt?_of_units_eq hunits⟩
        rw [toJson, hj] at h
        dsimp only at h
        split at h
        · rename_i hrange
          obtain rfl := Json.ofInt_injective h
          exact ⟨hj, hrange⟩
        · rename_i hrange
          have hlarge : 2 ^ 54 * unitsPerOne < units rank := by
            rw [(toInt?_eq_some_iff.mp hj).units_eq]
            exact Nat.mul_lt_mul_of_pos_right (by omega) unitsPerOne_pos
          obtain ⟨text, htext, he⟩ := exists_mem_shortestJson negative hlarge
          exact absurd he (Json.not_mem_of_ofInt_eq (h.symm.trans htext))
    | infinite negative => cases h
    | nan => cases h
  · rintro ⟨hint, hrange⟩
    rw [toJson, hint]
    exact if_pos hrange

theorem exists_toJson_eq_of_le (h : 2 ^ 64 * unitsPerOne ≤ units rank) :
    ∃ first fraction exponent, Numeral.Proper ⟨false, [first], fraction, some exponent⟩ ∧
      (finite false rank).toJson =
        .number (Numeral.text ⟨false, [first], fraction, some exponent⟩) := by
  have hlarge : 2 ^ 54 * unitsPerOne < units rank :=
    Nat.lt_of_lt_of_le (Nat.mul_lt_mul_of_pos_right (by decide) unitsPerOne_pos) h
  obtain ⟨first, fraction, exponent, hproper, htext⟩ := Decimal.exists_write_shortest_eq hlarge
  refine ⟨first, fraction, exponent, hproper, ?_⟩
  have hshortest : shortestJson (finite false rank) =
      .number (Numeral.text ⟨false, [first], fraction, some exponent⟩) := by
    rw [shortestJson, htext, if_neg Bool.false_ne_true]
  rw [toJson]
  cases hint : toInt? (finite false rank) with
  | none => exact hshortest
  | some i =>
      have hunits := (toInt?_eq_some_iff.mp hint).units_eq
      rw [hunits] at h
      have hle : 2 ^ 64 ≤ i.natAbs := Nat.le_of_mul_le_mul_right h unitsPerOne_pos
      dsimp only
      rw [if_neg ?_, hshortest]
      omega

section Naturals

theorem ofNat_of_le (h : leastInfinite ≤ n) : ofNat n = infinite false := by
  rw [ofNat, ofRank, dif_neg ((nearestRank_lt_finiteCount_iff n).not.mpr (Nat.not_lt.mpr h))]

theorem exists_ofNat_eq (h : n < leastInfinite) :
    ∃ rank : Fin finiteCount, rank.val = nearestRank n 1 ∧ ofNat n = finite false rank :=
  ⟨⟨nearestRank n 1, (nearestRank_lt_finiteCount_iff n).mpr h⟩, rfl,
    dif_pos ((nearestRank_lt_finiteCount_iff n).mpr h)⟩

theorem two_pow_lt_units_finiteCount : 2 ^ 64 * unitsPerOne < units finiteCount := by
  decide +kernel

theorem lt_leastInfinite_of_units_lt (h : units (nearestRank n 1) < 2 ^ 64 * unitsPerOne) :
    n < leastInfinite := by
  rw [← nearestRank_lt_finiteCount_iff]
  exact strictMono_units.lt_iff_lt.mp (h.trans two_pow_lt_units_finiteCount)

theorem toJson_ofNat_of_units_lt (h : units (nearestRank n 1) < 2 ^ 64 * unitsPerOne) :
    ∃ whole : Nat, units (nearestRank n 1) = whole * unitsPerOne ∧
      (ofNat n).toJson = .ofInt whole := by
  obtain ⟨whole, hwhole⟩ := unitsPerOne_dvd_units_nearestRank n
  rw [Nat.mul_comm] at hwhole
  have hrange : -0x8000000000000000 ≤ (whole : Int) ∧ (whole : Int) < 0x10000000000000000 := by
    rw [hwhole] at h
    have hlt : whole < 2 ^ 64 := Nat.lt_of_mul_lt_mul_right h
    omega
  obtain ⟨rank, hrank, hvalue⟩ := exists_ofNat_eq (lt_leastInfinite_of_units_lt h)
  refine ⟨whole, hwhole, ?_⟩
  rw [← hrank] at hwhole
  rw [hvalue, toJson_eq_ofInt_iff, ← toInt?_eq_some_iff, toInt?_of_units_eq hwhole,
    if_neg Bool.false_ne_true]
  exact ⟨rfl, hrange⟩

theorem units_nearestRank_of_le (h : n ≤ 2 ^ 53) :
    units (nearestRank n 1) = n * unitsPerOne := by
  have hunits := units_nearestRank_mul_two_pow (show n ≤ 2 * binadeSize from h) 0
  rwa [pow_zero, Nat.mul_one] at hunits

theorem toJson_ofNat_of_le (h : n ≤ 2 ^ 53) : (ofNat n).toJson = .ofInt n := by
  have hunits := units_nearestRank_of_le h
  have hlt : units (nearestRank n 1) < 2 ^ 64 * unitsPerOne := by
    rw [hunits]
    exact Nat.mul_lt_mul_of_pos_right (by omega) unitsPerOne_pos
  obtain ⟨whole, hwhole, htext⟩ := toJson_ofNat_of_units_lt hlt
  rw [hunits] at hwhole
  have hvalue : n = whole := Nat.eq_of_mul_eq_mul_right unitsPerOne_pos hwhole
  rw [htext, hvalue]

theorem toJson_ofNat_of_lt (hle : 2 ^ 64 * unitsPerOne ≤ units (nearestRank n 1))
    (hlt : n < leastInfinite) :
    ofJson? (ofNat n).toJson = some (ofNat n) ∧
      ∃ first fraction exponent, Numeral.Proper ⟨false, [first], fraction, some exponent⟩ ∧
        (ofNat n).toJson = .number (Numeral.text ⟨false, [first], fraction, some exponent⟩) := by
  obtain ⟨rank, hrank, hvalue⟩ := exists_ofNat_eq hlt
  rw [hvalue]
  rw [← hrank] at hle
  exact ⟨ofJson?_toJson trivial, exists_toJson_eq_of_le hle⟩

end Naturals

end Double

end Letter
