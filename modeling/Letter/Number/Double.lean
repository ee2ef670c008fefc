/-!
Binary floating point numbers of 64 bits. The finite ones of one sign are counted upward from
zero, which makes rounding a matter of natural numbers.
-/

namespace Letter

namespace Double

/-- The number of ranks between a power of two and the next, `2 ^ 52`. -/
def binadeSize : Nat := 0x10000000000000

/-- The number of finite doubles of one sign. -/
def finiteCount : Nat := 2047 * binadeSize

/-- How many times the least positive double, `2 ^ -1074`, goes into one. -/
def unitsPerOne : Nat := Nat.pow 2 1074

end Double

/-- A double-precision number. NaNs are not told apart. -/
inductive Double where
  /-- The finite number of a sign that has `rank` others of that sign below it in magnitude. -/
  | finite (negative : Bool) (rank : Fin Double.finiteCount)
  | infinite (negative : Bool)
  | nan
deriving DecidableEq, Repr

namespace Double

/-- The magnitude of a rank in multiples of the least positive double. Neighbours are one such
unit apart in the first two binades, and from then on twice as far in each as in the one before. -/
def units (rank : Nat) : Nat :=
  if rank < binadeSize then rank
  else (binadeSize + rank % binadeSize) * Nat.pow 2 (rank / binadeSize - 1)

/-- The whole number nearest to a quotient, and of two nearest the even one. -/
def roundedQuotient (num den : Nat) : Nat :=
  let quotient := num / den
  let twice := 2 * (num % den)
  if twice < den ∨ twice = den ∧ quotient % 2 = 0 then quotient else quotient + 1

/-- The rank of the double nearest to a quotient, and of two nearest the even one; for large
quotients a rank that no finite double has. -/
def nearestRank (num den : Nat) : Nat :=
  let multiple := num * unitsPerOne
  let binade := (multiple / den).log2 - 52
  roundedQuotient multiple (den * Nat.pow 2 binade) + binade * binadeSize

/-- The number of a sign and a rank, which is infinite if no finite number has the rank. -/
def ofRank (negative : Bool) (rank : Nat) : Double :=
  if h : rank < finiteCount then finite negative ⟨rank, h⟩ else infinite negative

/-- The number nearest to a natural number, as `nearestRank` has it. -/
def ofNat (n : Nat) : Double :=
  ofRank false (nearestRank n 1)

/-- Decodes the interchange format: the uppermost bit is the sign, the others are the rank. -/
def ofBits (bits : BitVec 64) : Double :=
  let rank := bits.toNat % 0x8000000000000000
  if finiteCount < rank then nan else ofRank bits.msb rank

/-- The natural number that decimal digits denote. -/
def decimalValue (digits : List Char) : Nat :=
  digits.foldl (fun value c => 10 * value + (c.toNat - '0'.toNat)) 0

/-- Reads one or more decimal digits. -/
def ofDigits? (digits : List Char) : Option Double :=
  if digits ≠ [] ∧ digits.all Char.isDigit then some (ofNat (decimalValue digits)) else none

/-- The integer that is equal to a number, if there is one. -/
def toInt? : Double → Option Int
  | finite negative rank =>
    let value := units rank
    if value % unitsPerOne = 0 then
      let magnitude : Nat := value / unitsPerOne
      some (if negative then -(magnitude : Int) else magnitude)
    else none
  | _ => none

end Double

end Letter
