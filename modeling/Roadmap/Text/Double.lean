/-!
# Numbers in double precision

A decimal is kept as the nearest number with 53 binary digits, as `± mantissa · 2 ^ exponent`. Zero
has a sign, a quotient too large for the format is infinite, and one more value stands for what is
no number at all.

Everything is computed exactly on natural numbers and rounded once, at the end. A quotient halfway
between two doubles goes to the one whose mantissa is even.
-/

namespace Roadmap

/-- The number of binary digits in a mantissa. -/
def Double.precision : Nat := 53

/-- The least exponent, where numbers have fewer digits instead. -/
def Double.minExponent : Int := -1074

/-- The largest exponent. -/
def Double.maxExponent : Int := 971

/-- The number `± mantissa · 2 ^ exponent`. -/
structure Double where
  negative : Bool
  mantissa : Nat
  exponent : Int
  mantissa_lt : mantissa < Nat.pow 2 Double.precision
  le_exponent : Double.minExponent ≤ exponent
  exponent_le : exponent ≤ Double.maxExponent
deriving DecidableEq, Repr

/-- A number in the widest sense. -/
inductive Number where
  | finite (d : Double)
  | infinite (negative : Bool)
  | undefined
deriving DecidableEq, Repr

namespace Double

def zero (negative : Bool) : Double where
  negative := negative
  mantissa := 0
  exponent := minExponent
  mantissa_lt := by decide
  le_exponent := by decide
  exponent_le := by decide

def isZero (d : Double) : Bool := d.mantissa == 0

/-! ## The value -/

/-- The fraction `n · 2 ^ e`. -/
def scaled (n : Nat) (e : Int) : Nat × Nat :=
  if 0 ≤ e then (n * Nat.pow 2 e.toNat, 1) else (n, Nat.pow 2 (-e).toNat)

/-- The size of the number as a fraction. -/
def size (d : Double) : Nat × Nat := scaled d.mantissa d.exponent

def toRat (d : Double) : Rat :=
  let q := mkRat (d.size.1 : Int) d.size.2
  if d.negative then -q else q

def isIntegral (d : Double) : Bool := d.size.1 % d.size.2 == 0

/-- The integer part, toward zero. -/
def truncate (d : Double) : Int :=
  let n : Int := (d.size.1 / d.size.2 : Nat)
  if d.negative then -n else n

/-! ## Rounding -/

/-- The quotient rounded to a whole number, a half to the even one of its neighbours. -/
def roundDiv (num den : Nat) : Nat :=
  let q := num / den
  let twice := 2 * (num % den)
  if twice < den then q
  else if twice = den then q + q % 2
  else q + 1

/-- The quotient divided by `2 ^ e`, as a fraction. -/
def unscaled (num den : Nat) (e : Int) : Nat × Nat :=
  if 0 ≤ e then (num, den * Nat.pow 2 e.toNat) else (num * Nat.pow 2 (-e).toNat, den)

/-- The exponent with which the mantissa of a quotient has all its binary digits, unless that is
below the least one. The logarithms fix the quotient up to a factor of two, and one comparison
decides. -/
def exponentOf (num den : Nat) : Int :=
  let e : Int := (num.log2 : Int) - den.log2 - (precision - 1)
  let (n, d) := unscaled num den e
  max minExponent (if Nat.pow 2 (precision - 1) * d ≤ n then e else e - 1)

end Double

namespace Number

open Double

/-- The number with the given parts, infinite if they are out of range. -/
def ofFields (negative : Bool) (mantissa : Nat) (exponent : Int) : Number :=
  if h : mantissa < Nat.pow 2 precision ∧ minExponent ≤ exponent ∧ exponent ≤ maxExponent then
    finite ⟨negative, mantissa, exponent, h.1, h.2.1, h.2.2⟩
  else infinite negative

/-- The number with a mantissa that may have just grown by one binary digit. -/
def ofParts (negative : Bool) (mantissa : Nat) (exponent : Int) : Number :=
  if mantissa = Nat.pow 2 precision then
    ofFields negative (Nat.pow 2 (precision - 1)) (exponent + 1)
  else ofFields negative mantissa exponent

/-- The double nearest to the quotient of two natural numbers. -/
def nearest (negative : Bool) (num den : Nat) : Number :=
  if num = 0 then finite (zero negative)
  else
    let e := exponentOf num den
    let (n, d) := unscaled num den e
    ofParts negative (roundDiv n d) e

/-- An upper bound, in size, on the power of ten of any double. -/
def decimalRange : Int := 400

/-- The double nearest to `± coefficient · 10 ^ exponent`. A power far out of range is not even
computed; `magnitude` is the number of digits of the coefficient, give or take one. -/
def ofDecimal (negative : Bool) (coefficient : Nat) (exponent : Int) : Number :=
  let magnitude : Int := (coefficient.log2 * 30103 / 100000 : Nat)
  if coefficient = 0 then finite (zero negative)
  else if decimalRange < magnitude + exponent then infinite negative
  else if magnitude + exponent < -decimalRange then finite (zero negative)
  else if 0 ≤ exponent then nearest negative (coefficient * Nat.pow 10 exponent.toNat) 1
  else nearest negative coefficient (Nat.pow 10 (-exponent).toNat)

def ofInt (n : Int) : Number := nearest (n < 0) n.natAbs 1

/-- The double nearest to a quotient, which is how a difference of doubles comes out. -/
def ofRat (q : Rat) : Number := nearest (q < 0) q.num.natAbs q.den

def isZero : Number → Bool
  | finite d => d.isZero
  | _ => false

/-- The number is below `q`. -/
def isBelow (n : Number) (q : Rat) : Bool :=
  match n with
  | finite d => d.toRat < q
  | infinite negative => negative
  | undefined => false

/-- The number is above `q`. -/
def isAbove (n : Number) (q : Rat) : Bool :=
  match n with
  | finite d => q < d.toRat
  | infinite negative => !negative
  | undefined => false

end Number

end Roadmap
