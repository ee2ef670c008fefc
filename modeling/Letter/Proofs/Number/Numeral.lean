import Letter.Proofs.Json.Grammar
import Letter.Proofs.Number.Shortest
import Letter.Proofs.Text.Character
import Letter.Token.Pattern

namespace Letter

open Pattern (splitRun?)

namespace Decimal

/-- Splits off digits with a zero in front only by itself. -/
def readWhole? (cs : List Char) : Option (List Char × List Char) := do
  let (digits, rest) ← splitRun? Char.isDigit cs
  if digits.head? = some '0' ∧ digits ≠ ['0'] then none else return (digits, rest)

/-- Splits off any digits behind a point. -/
def readFraction? : List Char → Option (List Char × List Char)
  | '.' :: cs => splitRun? Char.isDigit cs
  | cs => some ([], cs)

/-- The number that a whole text of digits denotes. -/
def readNat? (cs : List Char) : Option Nat :=
  match splitRun? Char.isDigit cs with
  | some (digits, []) => some (Double.decimalValue digits)
  | _ => none

def readExponent? : List Char → Option Int
  | [] => some 0
  | marker :: cs =>
    if marker = 'e' ∨ marker = 'E' then
      match cs with
      | '-' :: digits => (readNat? digits).map fun n : Nat => -(n : Int)
      | '+' :: digits => (readNat? digits).map Int.ofNat
      | digits => (readNat? digits).map Int.ofNat
    else none

/-- Splits off a minus sign, if there is one. -/
def splitSign : List Char → Bool × List Char
  | '-' :: cs => (true, cs)
  | cs => (false, cs)

/-- The sign and the decimal that a JSON number denotes. -/
def read? (text : List Char) : Option (Bool × Decimal) := do
  let (negative, cs) := splitSign text
  let (whole, cs) ← readWhole? cs
  let (fraction, cs) ← readFraction? cs
  let exponent ← readExponent? cs
  return (negative, ⟨Double.decimalValue (whole ++ fraction), exponent - fraction.length⟩)

end Decimal

/-- The parts of a number: digits in front of a point, any digits behind it, and an exponent. -/
structure Numeral where
  negative : Bool
  whole : List Char
  fraction : List Char
  exponent? : Option Int

namespace Numeral

def fractionText : List Char → List Char
  | [] => []
  | digits => '.' :: digits

def exponentText : Option Int → List Char
  | none => []
  | some e => 'e' :: (if e < 0 then '-' else '+') :: Nat.toDigits 10 e.natAbs

def signText (negative : Bool) : List Char :=
  if negative then ['-'] else []

def text (n : Numeral) : List Char :=
  signText n.negative ++ n.whole ++ fractionText n.fraction ++ exponentText n.exponent?

/-- The magnitude of a number. -/
def decimal (n : Numeral) : Decimal :=
  ⟨Double.decimalValue (n.whole ++ n.fraction), n.exponent?.getD 0 - n.fraction.length⟩

structure Proper (n : Numeral) : Prop where
  whole : Json.IsWhole n.whole
  fraction : ∀ c ∈ n.fraction, c.isDigit

theorem fractionText_of_ne_nil {digits : List Char} (h : digits ≠ []) :
    fractionText digits = '.' :: digits := by
  obtain ⟨c, cs, rfl⟩ := List.exists_cons_of_ne_nil h
  rfl

theorem isDigits_toDigits (n : Nat) : Json.IsDigits (Nat.toDigits 10 n) :=
  ⟨Nat.toDigits_ne_nil, fun _ h => Nat.isDigit_of_mem_toDigits (by decide) (by decide) h⟩

theorem isFraction_fractionText {digits : List Char} (h : ∀ c ∈ digits, c.isDigit) :
    Json.IsFraction (fractionText digits) := by
  cases digits with
  | nil => exact .none
  | cons c cs => exact .digits ⟨List.cons_ne_nil c cs, h⟩

theorem isExponent_exponentText (e? : Option Int) : Json.IsExponent (exponentText e?) := by
  cases e? with
  | none => exact .none
  | some e =>
      rw [exponentText]
      split
      · change Json.IsExponent ('e' :: (['-'] ++ Nat.toDigits 10 e.natAbs))
        exact .digits (.inl rfl) (.inr (.inr rfl)) (isDigits_toDigits _)
      · change Json.IsExponent ('e' :: (['+'] ++ Nat.toDigits 10 e.natAbs))
        exact .digits (.inl rfl) (.inr (.inl rfl)) (isDigits_toDigits _)

theorem isNumber_text {n : Numeral} (h : n.Proper) : Json.IsNumber n.text := by
  apply Json.IsNumber.mk
  · cases n.negative
    · exact .inl rfl
    · exact .inr rfl
  · exact h.whole
  · exact isFraction_fractionText h.fraction
  · exact isExponent_exponentText n.exponent?

section Reading

theorem splitRun?_append {digits rest : List Char} (h : Json.IsDigits digits)
    (hrest : rest.head?.any Char.isDigit = false) :
    splitRun? Char.isDigit (digits ++ rest) = some (digits, rest) := by
  obtain ⟨htake, hdrop⟩ := Text.takeWhile_append_dropWhile_append h.isDigit hrest
  rw [splitRun?, htake, hdrop, if_pos]
  obtain ⟨c, cs, rfl⟩ := List.exists_cons_of_ne_nil h.ne_nil
  exact h.isDigit c List.mem_cons_self

theorem readNat?_toDigits (n : Nat) : Decimal.readNat? (Nat.toDigits 10 n) = some n := by
  have hsplit : splitRun? Char.isDigit (Nat.toDigits 10 n ++ []) = _ :=
    splitRun?_append (isDigits_toDigits n) rfl
  rw [List.append_nil] at hsplit
  rw [Decimal.readNat?, hsplit]
  exact congrArg some (Double.decimalValue_toDigits n)

theorem readExponent?_exponentText (e? : Option Int) :
    Decimal.readExponent? (exponentText e?) = some (e?.getD 0) := by
  cases e? with
  | none => rfl
  | some e =>
      have hread := readNat?_toDigits e.natAbs
      rw [exponentText, Option.getD_some]
      split
      · simp only [Decimal.readExponent?, true_or, if_true]
        rw [hread, Option.map_some, Option.some_inj]
        omega
      · simp only [Decimal.readExponent?, true_or, if_true]
        rw [hread, Option.map_some, Option.some_inj, Int.ofNat_eq_natCast]
        omega

theorem head?_exponentText (e? : Option Int) : ∀ c ∈ (exponentText e?).head?, c = 'e' := by
  cases e? with
  | none => nofun
  | some e => simp [exponentText]

theorem readFraction?_fractionText {digits rest : List Char} (h : ∀ c ∈ digits, c.isDigit)
    (hrest : ∀ c ∈ rest.head?, c = 'e') :
    Decimal.readFraction? (fractionText digits ++ rest) = some (digits, rest) := by
  cases digits with
  | nil =>
      cases rest with
      | nil => rfl
      | cons c rest =>
          obtain rfl := hrest c rfl
          rfl
  | cons d ds =>
      have hstop : rest.head?.any Char.isDigit = false := by
        cases rest with
        | nil => rfl
        | cons c rest =>
            obtain rfl := hrest c rfl
            rfl
      exact splitRun?_append ⟨List.cons_ne_nil d ds, h⟩ hstop

theorem readWhole?_append {digits rest : List Char} (h : Json.IsWhole digits)
    (hrest : rest.head?.any Char.isDigit = false) :
    Decimal.readWhole? (digits ++ rest) = some (digits, rest) := by
  have hleading : ¬(digits.head? = some '0' ∧ digits ≠ ['0']) := by
    rintro ⟨hzero, hne⟩
    exact hne (h.leading hzero)
  rw [Decimal.readWhole?, splitRun?_append h.toIsDigits hrest]
  exact if_neg hleading

theorem head?_fractionText_append (digits : List Char) (e? : Option Int) :
    (fractionText digits ++ exponentText e?).head?.any Char.isDigit = false := by
  cases digits with
  | cons d ds => rfl
  | nil => cases e? <;> rfl

theorem splitSign_append (negative : Bool) {digits : List Char} (h : Json.IsWhole digits)
    (rest : List Char) :
    Decimal.splitSign (signText negative ++ (digits ++ rest)) = (negative, digits ++ rest) := by
  cases negative with
  | true => rfl
  | false =>
      obtain ⟨c, cs, rfl⟩ := List.exists_cons_of_ne_nil h.ne_nil
      have hdigit := h.isDigit c List.mem_cons_self
      have hminus : c ≠ '-' := by
        rintro rfl
        cases hdigit
      simp [signText, Decimal.splitSign, hminus]

theorem read?_text {n : Numeral} (h : n.Proper) :
    Decimal.read? n.text = some (n.negative, n.decimal) := by
  have hsign := splitSign_append n.negative h.whole
    (fractionText n.fraction ++ exponentText n.exponent?)
  have hwhole := readWhole?_append h.whole (head?_fractionText_append n.fraction n.exponent?)
  have hfraction := readFraction?_fractionText h.fraction (head?_exponentText n.exponent?)
  have hexponent := readExponent?_exponentText n.exponent?
  simp only [text, List.append_assoc, Decimal.read?, hsign, hwhole, hfraction, hexponent,
    Option.bind_eq_bind, Option.bind_some]
  rfl

end Reading

section Decimals

theorem eq_zero_of_head?_toDigits {n : Nat} (h : (Nat.toDigits 10 n).head? = some '0') :
    n = 0 := by
  induction n using Nat.strongRecOn with
  | ind n ih =>
      rw [Nat.toDigits_eq_if (by decide)] at h
      split at h
      · simpa using h
      · have hhead : (Nat.toDigits 10 (n / 10)).head? = some '0' := by
          rwa [List.head?_append_of_ne_nil _ Nat.toDigits_ne_nil] at h
        have hzero := ih (n / 10) (by omega) hhead
        omega

theorem isWhole_toDigits (n : Nat) : Json.IsWhole (Nat.toDigits 10 n) where
  toIsDigits := isDigits_toDigits n
  leading h := by
    rw [eq_zero_of_head?_toDigits h]
    rfl

theorem decimalValue_eq (digits : List Char) :
    Double.decimalValue digits = Nat.ofDigitChars 10 digits 0 :=
  Nat.ofDigitChars_eq_foldl.symm

theorem decimalValue_append_zeros (digits : List Char) (zeros : Nat) :
    Double.decimalValue (digits ++ List.replicate zeros '0') =
      Double.decimalValue digits * 10 ^ zeros := by
  rw [decimalValue_eq, Nat.ofDigitChars_append, Nat.ofDigitChars_replicate_zero, decimalValue_eq,
    Nat.mul_comm]

theorem decimalValue_zeros_append (digits : List Char) (zeros : Nat) :
    Double.decimalValue (List.replicate zeros '0' ++ digits) = Double.decimalValue digits := by
  rw [decimalValue_eq, Nat.ofDigitChars_append, Nat.ofDigitChars_replicate_zero, decimalValue_eq,
    Nat.mul_zero]

theorem rank_mul_pow (coefficient zeros : Nat) :
    (Decimal.mk (coefficient * 10 ^ zeros) 0).rank = (Decimal.mk coefficient zeros).rank := by
  have hnumerator : (zeros : Int).toNat = zeros := rfl
  have hdenominator : (-(zeros : Int)).toNat = 0 := by omega
  rw [Decimal.rank, Decimal.rank, hnumerator, hdenominator]
  simp

variable {digits : List Char}

theorem isDigit_of_mem_zeros (zeros : Nat) : ∀ c ∈ List.replicate zeros '0', c.isDigit := by
  intro c hc
  rw [List.eq_of_mem_replicate hc]
  rfl

theorem exists_numeral_below_one (hdigits : Json.IsDigits digits) (zeros : Nat) :
    ∃ n : Numeral, n.Proper ∧ n.negative = false ∧
      n.text = '0' :: '.' :: (List.replicate zeros '0' ++ digits) ∧
      n.decimal = ⟨Double.decimalValue digits, -(zeros + digits.length : Nat)⟩ := by
  have hfraction : List.replicate zeros '0' ++ digits ≠ [] :=
    List.append_ne_nil_of_right_ne_nil _ hdigits.ne_nil
  refine ⟨⟨false, ['0'], List.replicate zeros '0' ++ digits, none⟩, ⟨?_, ?_⟩, rfl, ?_, ?_⟩
  · exact isWhole_toDigits 0
  · exact List.forall_mem_append.mpr ⟨isDigit_of_mem_zeros zeros, hdigits.isDigit⟩
  · simp [text, signText, exponentText, fractionText_of_ne_nil hfraction]
  · have hvalue : Double.decimalValue (['0'] ++ (List.replicate zeros '0' ++ digits)) =
        Double.decimalValue digits := by
      rw [← List.append_assoc]
      exact decimalValue_zeros_append digits (zeros + 1)
    simp only [decimal, hvalue, Option.getD_none, List.length_append, List.length_replicate,
      Int.zero_sub]

theorem exists_numeral_whole (hdigits : Json.IsDigits digits) (hleading : digits.head? ≠ some '0')
    (zeros : Nat) :
    ∃ n : Numeral, n.Proper ∧ n.negative = false ∧
      n.text = digits ++ List.replicate zeros '0' ∧
      n.decimal = ⟨Double.decimalValue digits * 10 ^ zeros, 0⟩ := by
  have hne := hdigits.ne_nil
  refine ⟨⟨false, digits ++ List.replicate zeros '0', [], none⟩, ⟨⟨⟨?_, ?_⟩, ?_⟩, ?_⟩, rfl, ?_, ?_⟩
  · exact List.append_ne_nil_of_left_ne_nil hne _
  · exact List.forall_mem_append.mpr ⟨hdigits.isDigit, isDigit_of_mem_zeros zeros⟩
  · intro hhead
    rw [List.head?_append_of_ne_nil _ hne] at hhead
    exact absurd hhead hleading
  · exact List.forall_mem_nil _
  · simp [text, signText, exponentText, fractionText]
  · rw [← decimalValue_append_zeros]
    simp [decimal]

theorem exists_numeral_between (hdigits : Json.IsDigits digits)
    (hleading : digits.head? ≠ some '0') {whole : Nat} (hpos : 0 < whole)
    (hlt : whole < digits.length) :
    ∃ n : Numeral, n.Proper ∧ n.negative = false ∧
      n.text = digits.take whole ++ '.' :: digits.drop whole ∧
      n.decimal = ⟨Double.decimalValue digits, -(digits.length - whole : Nat)⟩ := by
  refine ⟨⟨false, digits.take whole, digits.drop whole, none⟩, ⟨⟨⟨?_, ?_⟩, ?_⟩, ?_⟩, rfl, ?_, ?_⟩
  · rw [ne_eq, List.take_eq_nil_iff]
    rintro (hzero | hnil)
    · omega
    · exact hdigits.ne_nil hnil
  · exact fun c hc => hdigits.isDigit c (List.mem_of_mem_take hc)
  · intro hhead
    rw [List.head?_take, if_neg (by omega)] at hhead
    exact absurd hhead hleading
  · exact fun c hc => hdigits.isDigit c (List.mem_of_mem_drop hc)
  · have hfraction : digits.drop whole ≠ [] := by
      rw [ne_eq, List.drop_eq_nil_iff]
      omega
    simp [text, signText, exponentText, fractionText_of_ne_nil hfraction]
  · simp only [decimal, List.take_append_drop, Option.getD_none, List.length_drop, Int.zero_sub]

theorem exists_numeral_positional (hdigits : Json.IsDigits digits)
    (hleading : digits.head? ≠ some '0') (exponent : Int) :
    ∃ n : Numeral, n.Proper ∧ n.negative = false ∧
      n.text = Decimal.positional digits (exponent + digits.length) ∧
      n.decimal.rank = (Decimal.mk (Double.decimalValue digits) exponent).rank := by
  obtain ⟨whole, hwhole⟩ : ∃ whole, whole = exponent + digits.length := ⟨_, rfl⟩
  rw [← hwhole, Decimal.positional]
  split
  · obtain ⟨n, hproper, hnegative, htext, hdecimal⟩ :=
      exists_numeral_below_one hdigits (-whole).toNat
    have hexponent : -((-whole).toNat + digits.length : Nat) = exponent := by omega
    rw [hexponent] at hdecimal
    exact ⟨n, hproper, hnegative, htext, congrArg Decimal.rank hdecimal⟩
  · split
    · obtain ⟨zeros, rfl⟩ : ∃ zeros : Nat, exponent = zeros := ⟨exponent.toNat, by omega⟩
      have hcount : whole.toNat - digits.length = zeros := by omega
      rw [hcount]
      obtain ⟨n, hproper, hnegative, htext, hdecimal⟩ :=
        exists_numeral_whole hdigits hleading zeros
      exact ⟨n, hproper, hnegative, htext, by rw [hdecimal, rank_mul_pow]⟩
    · have hpos : 0 < whole.toNat := by omega
      obtain ⟨n, hproper, hnegative, htext, hdecimal⟩ :=
        exists_numeral_between hdigits hleading hpos (by omega)
      have hexponent : -(digits.length - whole.toNat : Nat) = exponent := by omega
      rw [hexponent] at hdecimal
      exact ⟨n, hproper, hnegative, htext, congrArg Decimal.rank hdecimal⟩

theorem proper_scientific {first : Char} {rest : List Char}
    (hdigits : Json.IsDigits (first :: rest)) (exponent? : Option Int) :
    Proper ⟨false, [first], rest, exponent?⟩ := by
  obtain ⟨hfirst, hrest⟩ := List.forall_mem_cons.mp hdigits.isDigit
  refine ⟨⟨⟨List.cons_ne_nil first [], List.forall_mem_singleton.mpr hfirst⟩, ?_⟩, hrest⟩
  intro hhead
  rw [Option.some.inj hhead]

theorem text_scientific (first : Char) (rest : List Char) (exponent : Int) :
    text ⟨false, [first], rest, some exponent⟩ = Decimal.scientific (first :: rest) exponent := by
  cases rest <;> simp [text, signText, fractionText, exponentText, Decimal.scientific]

theorem exists_numeral_scientific (hdigits : Json.IsDigits digits) (exponent : Int) :
    ∃ n : Numeral, n.Proper ∧ n.negative = false ∧
      n.text = Decimal.scientific digits (exponent + digits.length - 1) ∧
      n.decimal.rank = (Decimal.mk (Double.decimalValue digits) exponent).rank := by
  obtain ⟨first, rest, rfl⟩ := List.exists_cons_of_ne_nil hdigits.ne_nil
  refine ⟨⟨false, [first], rest, some (exponent + (first :: rest).length - 1)⟩,
    proper_scientific hdigits _, rfl, text_scientific first rest _, ?_⟩
  have hexponent : exponent + ((first :: rest).length : Nat) - 1 - (rest.length : Nat) =
      exponent := by
    rw [List.length_cons]
    omega
  simp only [decimal, List.singleton_append, Option.getD_some, hexponent]

/-- Whichever notation is taken, what is written denotes the decimal. -/
theorem exists_numeral_write (style : Decimal.Style) {d : Decimal} (h : d.coefficient ≠ 0) :
    ∃ n : Numeral, n.Proper ∧ n.negative = false ∧ n.text = d.write style ∧
      n.decimal.rank = d.rank := by
  have hdigits := isDigits_toDigits d.coefficient
  have hleading : (Nat.toDigits 10 d.coefficient).head? ≠ some '0' :=
    fun hhead => h (eq_zero_of_head?_toDigits hhead)
  have hpositional := exists_numeral_positional hdigits hleading d.exponent
  have hscientific := exists_numeral_scientific hdigits d.exponent
  rw [Double.decimalValue_toDigits] at hpositional hscientific
  rw [Decimal.write]
  split
  · rw [Int.sub_add_cancel]
    exact hpositional
  · exact hscientific

end Decimals

end Numeral

end Letter
