import Letter.Text.Blank
import Letter.Text.WordCharacter

namespace Letter.Text

theorem isNameCharacter_of_isDigit {c : Char} (h : c.isDigit) : isNameCharacter c := by
  simp [isNameCharacter, Char.isAlphanum, h]

theorem any_eq_false_of_imp {p q : Char → Bool} {c? : Option Char} (hpq : ∀ {c}, p c → q c)
    (h : c?.any q = false) : c?.any p = false := by
  cases c? with
  | none => rfl
  | some c => exact Bool.eq_false_iff.mpr fun hp => Bool.eq_false_iff.mp h (hpq hp)

theorem isAlpha_iff {c : Char} :
    c.isAlpha ↔ 65 ≤ c.toNat ∧ c.toNat ≤ 90 ∨ 97 ≤ c.toNat ∧ c.toNat ≤ 122 := by
  have hupper : c.isUpper = decide (65 ≤ c.val ∧ c.val ≤ 90) := rfl
  have hlower : c.isLower = (decide (97 ≤ c.val) && decide (c.val ≤ 122)) := rfl
  have halpha : c.isAlpha = (c.isUpper || c.isLower) := rfl
  rw [halpha, hupper, hlower]
  simp only [Bool.or_eq_true, Bool.and_eq_true, decide_eq_true_eq, UInt32.le_iff_toNat_le]
  rfl

theorem isDigit_iff {c : Char} : c.isDigit ↔ 48 ≤ c.toNat ∧ c.toNat ≤ 57 := by
  simp only [Char.isDigit, Bool.and_eq_true, decide_eq_true_eq, ge_iff_le,
    UInt32.le_iff_toNat_le]
  rfl

theorem isNameCharacter_iff {c : Char} :
    isNameCharacter c ↔ ((65 ≤ c.toNat ∧ c.toNat ≤ 90 ∨ 97 ≤ c.toNat ∧ c.toNat ≤ 122) ∨
      48 ≤ c.toNat ∧ c.toNat ≤ 57) ∨ c.toNat = 95 := by
  have hunderscore : c = '_' ↔ c.toNat = 95 :=
    ⟨fun h => h ▸ rfl, fun h => Char.toNat_inj.mp h⟩
  simp only [isNameCharacter, Char.isAlphanum, Bool.or_eq_true, beq_iff_eq, isAlpha_iff,
    isDigit_iff, hunderscore]

theorem isNameCharacter_of_isAlpha_or {c : Char} (h : c.isAlpha ∨ c = '_') :
    isNameCharacter c := by
  rcases h with h | rfl
  · simp [isNameCharacter, Char.isAlphanum, h]
  · rfl

theorem isDigit_eq_false_of_isAlpha_or {c : Char} (h : c.isAlpha ∨ c = '_') :
    c.isDigit = false := by
  rcases h with h | rfl
  · refine Bool.eq_false_iff.mpr fun hdigit => ?_
    have halpha := isAlpha_iff.mp h
    have hcode := isDigit_iff.mp hdigit
    omega
  · rfl

theorem isBlank_eq_false_of_isNameCharacter {c : Char} (h : isNameCharacter c) :
    isBlank c = false := by
  have hcode := isNameCharacter_iff.mp h
  refine Bool.eq_false_iff.mpr fun hblank => ?_
  obtain ⟨b, hb, hle, hge⟩ := inRanges_iff.mp hblank
  have houtside : ∀ b ∈ blankRanges, b.2 ≤ 32 ∨ 123 ≤ b.1 := by decide
  have := houtside b hb
  omega

theorem le_of_mem_wordRanges : ∀ r ∈ wordRanges, 128 ≤ r.1 := by
  decide +kernel

theorem disjoint_of_mem_wordRanges :
    ∀ r ∈ wordRanges, ∀ b ∈ blankRanges, r.2 < b.1 ∨ b.2 < r.1 := by
  decide +kernel

/-- A character that continues words but not names lies beyond ASCII and is no blank. -/
theorem of_isWordCharacter {c : Char} (h : isWordCharacter c) (hname : isNameCharacter c = false) :
    128 ≤ c.toNat ∧ isBlank c = false := by
  rw [isWordCharacter, hname, Bool.false_or, inRanges_iff] at h
  obtain ⟨r, hr, hle, hge⟩ := h
  refine ⟨Nat.le_trans (le_of_mem_wordRanges r hr) hle, Bool.eq_false_iff.mpr fun hblank => ?_⟩
  obtain ⟨b, hb, hle', hge'⟩ := inRanges_iff.mp hblank
  have hdisjoint := disjoint_of_mem_wordRanges r hr b hb
  omega

theorem isWordCharacter_eq_false_of_isBlank {c : Char} (h : isBlank c) :
    isWordCharacter c = false := by
  refine Bool.eq_false_iff.mpr fun hword => ?_
  cases hname : isNameCharacter c with
  | true => simp [isBlank_eq_false_of_isNameCharacter hname] at h
  | false => simp [(of_isWordCharacter hword hname).2] at h

theorem head?_dropWhile (p : Char → Bool) (cs : List Char) :
    (cs.dropWhile p).head?.any p = false := by
  have hstop := List.head?_dropWhile_not p cs
  cases hhead : (cs.dropWhile p).head? with
  | none => rfl
  | some c =>
      rw [hhead] at hstop
      simpa using hstop

theorem takeWhile_append_dropWhile_append {p : Char → Bool} {run rest : List Char}
    (hrun : ∀ c ∈ run, p c) (hrest : rest.head?.any p = false) :
    (run ++ rest).takeWhile p = run ∧ (run ++ rest).dropWhile p = rest := by
  rw [List.takeWhile_append_of_pos hrun, List.dropWhile_append_of_pos hrun]
  cases rest with
  | nil => simp
  | cons c rest =>
      have hc : p c = false := hrest
      simp [hc]

end Letter.Text
