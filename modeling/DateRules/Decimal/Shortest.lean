import DateRules.Decimal.Binary

/-!
# The shortest decimal of a double

`shortestDecimal` finds the fewest digits that read back as a given double: for
1, 2, … 17 digits it takes the two decimals next to the exact value, and the
first count for which one of them lies in the interval of numbers that round to
the double wins; of two such decimals the nearer one is taken.

`floatText` writes that decimal, positionally below 10 ^ 16 and from 10 ^ -4 on,
else with an exponent of at least two digits.
-/

namespace DateRules

/-- A fraction of whole numbers. -/
structure Ratio where
  num : Nat
  den : Nat

namespace Ratio

/-- The fraction `mantissa * 2 ^ exponent`. -/
def ofBinary (mantissa : Nat) (exponent : Int) : Ratio :=
  if 0 ≤ exponent then ⟨mantissa * Nat.pow 2 exponent.toNat, 1⟩
  else ⟨mantissa, Nat.pow 2 (-exponent).toNat⟩

/-- The fraction `digits * 10 ^ exponent`. -/
def ofDecimal (digits : Nat) (exponent : Int) : Ratio :=
  if 0 ≤ exponent then ⟨digits * Nat.pow 10 exponent.toNat, 1⟩
  else ⟨digits, Nat.pow 10 (-exponent).toNat⟩

/-- Whether one fraction is less than another. -/
def less (a b : Ratio) : Bool := a.num * b.den < b.num * a.den

/-- The whole number of units `10 ^ exponent` in a fraction. -/
def units (a : Ratio) (exponent : Int) : Nat :=
  if 0 ≤ exponent then a.num / (a.den * Nat.pow 10 exponent.toNat)
  else a.num * Nat.pow 10 (-exponent).toNat / a.den

/-- The distance between two fractions. -/
def distance (a b : Ratio) : Ratio :=
  let x := a.num * b.den
  let y := b.num * a.den
  ⟨if x < y then y - x else x - y, a.den * b.den⟩

end Ratio

/-- The numbers that round to a double. -/
structure RoundingInterval where
  low : Ratio
  value : Ratio
  high : Ratio
  endsIncluded : Bool

namespace RoundingInterval

/-- The numbers that round to `mantissa * 2 ^ exponent`. They reach half way to
the doubles on both sides; the one below a power of two is nearer. The ends
round to an even mantissa. -/
def ofBinary (mantissa : Nat) (exponent : Int) : RoundingInterval :=
  let low :=
    if mantissa = Nat.pow 2 52 && -1074 < exponent then
      Ratio.ofBinary (4 * mantissa - 1) (exponent - 2)
    else
      Ratio.ofBinary (2 * mantissa - 1) (exponent - 1)
  { low := low
    value := Ratio.ofBinary mantissa exponent
    high := Ratio.ofBinary (2 * mantissa + 1) (exponent - 1)
    endsIncluded := mantissa % 2 == 0 }

/-- Whether a fraction is in the interval. -/
def contains (i : RoundingInterval) (x : Ratio) : Bool :=
  if i.endsIncluded then !x.less i.low && !i.high.less x
  else i.low.less x && x.less i.high

/-- The better of the two decimals in units of `10 ^ exponent` next to the
value, among those in the interval. -/
def nearest? (i : RoundingInterval) (exponent : Int) : Option Nat :=
  let below := i.value.units exponent
  let above := below + 1
  let decimal := fun n => Ratio.ofDecimal n exponent
  match i.contains (decimal below) && below != 0, i.contains (decimal above) with
  | true, true =>
      let toBelow := i.value.distance (decimal below)
      let toAbove := i.value.distance (decimal above)
      if toBelow.less toAbove then some below
      else if toAbove.less toBelow then some above
      else some (if below % 2 = 0 then below else above)
  | true, false => some below
  | false, true => some above
  | false, false => none

/-- Tries decimals of ever more digits: units of `10 ^ exponent`, then of a
tenth of that, for `tries` times. -/
def search (i : RoundingInterval) (exponent : Int) : Nat → Nat × Int
  | 0 => (i.value.units exponent, exponent)
  | tries + 1 =>
      match i.nearest? exponent with
      | some n => (n, exponent)
      | none => i.search (exponent - 1) tries

end RoundingInterval

/-- The number of places before the point of a fraction that is at least one,
or an upper bound of it that is at most one too large. -/
def decimalPlaces (r : Ratio) : Int :=
  (Nat.toDigits 10 r.num).length - (Nat.toDigits 10 r.den).length + 1

/-- The fewest digits, and the exponent of ten, that read back as
`mantissa * 2 ^ exponent`. -/
def shortestDecimal (mantissa : Nat) (exponent : Int) : Nat × Int :=
  let i := RoundingInterval.ofBinary mantissa exponent
  i.search (decimalPlaces i.value) 20

/-- Digits without the zeros at their end, and the exponent of ten that makes
up for them. -/
def dropZeros (digits : List Char) (exponent : Int) : List Char × Int :=
  let zeros := (digits.reverse.takeWhile (· == '0')).length
  (digits.take (digits.length - zeros), exponent + zeros)

/-- A decimal with its point, where the point comes after `point` digits. -/
def pointText (digits : List Char) (point : Int) : List Char :=
  if point ≤ 0 then
    ['0', '.'] ++ List.replicate (-point).toNat '0' ++ digits
  else if digits.length ≤ point.toNat then
    digits ++ List.replicate (point.toNat - digits.length) '0' ++ ['.', '0']
  else
    digits.take point.toNat ++ ['.'] ++ digits.drop point.toNat

/-- An exponent with its sign and at least two digits. -/
def exponentText (exponent : Int) : List Char :=
  let digits := Nat.toDigits 10 exponent.natAbs
  let sign := if exponent < 0 then '-' else '+'
  ['e', sign] ++ List.replicate (2 - digits.length) '0' ++ digits

/-- A decimal with one digit before the point, and its exponent. -/
def scientificText (digits : List Char) (point : Int) : List Char :=
  match digits with
  | [] => []
  | [d] => d :: exponentText (point - 1)
  | d :: ds => d :: '.' :: ds ++ exponentText (point - 1)

/-- The shortest decimal of a positive value, as text. -/
def positiveText (mantissa : Nat) (exponent : Int) : List Char :=
  let decimal := shortestDecimal mantissa exponent
  let (digits, unit) := dropZeros (Nat.toDigits 10 decimal.1) decimal.2
  let point := unit + digits.length
  if -4 < point && point ≤ 16 then pointText digits point else scientificText digits point

/-- The text of a double. -/
def FloatValue.toText : FloatValue → String
  | notANumber => "nan"
  | infinite negative => if negative then "-inf" else "inf"
  | finite negative mantissa exponent =>
      let sign := if negative then ['-'] else []
      String.ofList
        (sign ++ if mantissa = 0 then ['0', '.', '0'] else positiveText mantissa exponent)

/-- The text of a double. -/
def floatText (x : Float) : String := (FloatValue.ofFloat x).toText

end DateRules
