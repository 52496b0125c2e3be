/-!
# Floating-point numbers as exact values

A finite double is a whole number times a power of two. `FloatValue.ofFloat`
reads these two off the bits; `FloatValue.toInt?` tells which doubles are whole
numbers. `floatOfFraction` goes from a fraction to the double nearest to it, and
`floatOfDecimal` does so from a decimal.
-/

namespace DateRules

/-- What a double stands for. -/
inductive FloatValue where
  | notANumber
  | infinite (negative : Bool)
  /-- The number `mantissa * 2 ^ exponent`, or its negative. -/
  | finite (negative : Bool) (mantissa : Nat) (exponent : Int)
deriving DecidableEq, Repr

namespace FloatValue

/-- The value with the given 64 bits: one of sign, eleven of exponent and 52 of
fraction. -/
def ofBits (bits : Nat) : FloatValue :=
  let negative := bits / Nat.pow 2 63 % 2 == 1
  let biased : Nat := bits / Nat.pow 2 52 % Nat.pow 2 11
  let fraction := bits % Nat.pow 2 52
  if biased = 2047 then
    if fraction = 0 then infinite negative else notANumber
  else if biased = 0 then
    finite negative fraction (-1074)
  else
    finite negative (fraction + Nat.pow 2 52) ((biased : Int) - 1075)

def ofFloat (x : Float) : FloatValue := ofBits x.toBits.toNat

/-- The whole number that a value is, if it is one. -/
def toInt? : FloatValue → Option Int
  | finite negative mantissa exponent =>
      let sign : Int := if negative then -1 else 1
      if 0 ≤ exponent then
        some (sign * (mantissa * Nat.pow 2 exponent.toNat : Nat))
      else if mantissa % Nat.pow 2 (-exponent).toNat = 0 then
        some (sign * (mantissa / Nat.pow 2 (-exponent).toNat : Nat))
      else
        none
  | _ => none

end FloatValue

/-- A quotient as a whole number. Half a unit goes to the even neighbour. -/
def roundedQuotient (num den : Nat) : Nat :=
  let quotient := num / den
  let rest := num % den
  if 2 * rest < den || (2 * rest == den && quotient % 2 == 0) then quotient else quotient + 1

/-- The bits of infinity: all those of the exponent. -/
def infinityBits : Nat := 2047 * Nat.pow 2 52

/-- The bits of the double nearest to a positive fraction. The unit of the
mantissa is the one that gives it 53 bits, but not less than `2 ^ -1074`. A
mantissa that is rounded up to 54 bits carries into the exponent, as it should. -/
def bitsOfFraction (num den : Nat) : Nat :=
  let scaled := fun (exponent : Int) =>
    if 0 ≤ exponent then (num, den * Nat.pow 2 exponent.toNat)
    else (num * Nat.pow 2 (-exponent).toNat, den)
  let guess : Int := (num.log2 : Int) - den.log2
  let (above, below) := scaled guess
  let magnitude := if below ≤ above then guess else guess - 1
  let exponent := max (-1074) (magnitude - 52)
  let (above, below) := scaled exponent
  min infinityBits ((exponent + 1074).toNat * Nat.pow 2 52 + roundedQuotient above below)

/-- The double nearest to a fraction. -/
def floatOfFraction (num den : Nat) : Float :=
  if num = 0 then 0.0 else Float.ofBits (bitsOfFraction num den).toUInt64

/-- The double nearest to a whole number. -/
def floatOfNat (n : Nat) : Float := floatOfFraction n 1

/-- The double nearest to `mantissa * 10 ^ exponent`. Beyond 400 places before
or after the point every number is infinite or zero as a double. -/
def floatOfDecimal (mantissa : Nat) (exponent : Int) : Float :=
  let places := exponent + (Nat.toDigits 10 mantissa).length
  if mantissa = 0 || places < -400 then 0.0
  else if 400 < places then Float.ofBits infinityBits.toUInt64
  else if 0 ≤ exponent then floatOfNat (mantissa * Nat.pow 10 exponent.toNat)
  else floatOfFraction mantissa (Nat.pow 10 (-exponent).toNat)

end DateRules
