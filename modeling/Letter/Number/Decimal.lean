import Letter.Number.Double

namespace Letter

/-- The number `coefficient * 10 ^ exponent`. -/
structure Decimal where
  coefficient : Nat
  exponent : Int
deriving DecidableEq, Repr

namespace Decimal

/-- The rank of the double as which a decimal is read. -/
def rank (d : Decimal) : Nat :=
  Double.nearestRank (d.coefficient * Nat.pow 10 d.exponent.toNat)
    (Nat.pow 10 (-d.exponent).toNat)

/-- A multiple of `10 ^ exponent` that reads back as a rank. Only the two multiples about the
exact value are tried, the nearer one first; at equal distance that is the even one. -/
def onGrid? (rank : Nat) (exponent : Int) : Option Decimal :=
  let num := Double.units rank * Nat.pow 10 (-exponent).toNat
  let den := Double.unitsPerOne * Nat.pow 10 exponent.toNat
  let candidates := [Double.roundedQuotient num den, num / den, num / den + 1]
  (candidates.map (Decimal.mk · exponent)).find? (·.rank == rank)

/-- The exact value of a rank. -/
def exact (rank : Nat) : Decimal :=
  ⟨Double.units rank * Nat.pow 5 1074, -1074⟩

/-- The decimal that reads back on the coarsest of `grids` grids, from `exponent` down. -/
def shortestFrom (rank : Nat) : (grids : Nat) → (exponent : Int) → Decimal
  | 0, _ => exact rank
  | grids + 1, exponent => (onGrid? rank exponent).getD (shortestFrom rank grids (exponent - 1))

/-- The shortest decimal that reads back as a rank. The coarsest grid that holds one gives the
fewest digits, and of two of that length the nearer to the exact value is taken. -/
def shortest (rank : Nat) : Decimal :=
  let width := (Nat.toDigits 10 (Double.units rank / Double.unitsPerOne)).length
  shortestFrom rank (width + 1074) width

theorem rank_of_onGrid? {rank : Nat} {exponent : Int} {d : Decimal}
    (h : onGrid? rank exponent = some d) : d.rank = rank := by
  simpa using List.find?_some h

/-- How decimals are written: in positional notation if the exponent of the leading digit lies
between two bounds, else with an exponent. -/
structure Style where
  leastPositional : Int
  greatestPositional : Int
deriving DecidableEq, Repr

/-- Digits with a point behind the first `whole`, filled up with zeros where there are none. -/
def positional (digits : List Char) (whole : Int) : List Char :=
  if whole ≤ 0 then '0' :: '.' :: (List.replicate (-whole).toNat '0' ++ digits)
  else if digits.length ≤ whole then
    digits ++ List.replicate (whole.toNat - digits.length) '0'
  else digits.take whole.toNat ++ '.' :: digits.drop whole.toNat

/-- Digits with a point behind the first, if more follow, and a signed exponent. -/
def scientific (digits : List Char) (exponent : Int) : List Char :=
  let mantissa :=
    match digits with
    | first :: second :: others => first :: '.' :: second :: others
    | _ => digits
  mantissa ++ 'e' :: (if exponent < 0 then '-' else '+') :: Nat.toDigits 10 exponent.natAbs

def write (style : Style) (d : Decimal) : List Char :=
  let digits := Nat.toDigits 10 d.coefficient
  let leading := d.exponent + digits.length - 1
  if style.leastPositional ≤ leading ∧ leading ≤ style.greatestPositional then
    positional digits (leading + 1)
  else scientific digits leading

end Decimal

end Letter
