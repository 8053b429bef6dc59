import Roadmap.Text.Double
import Roadmap.Text.Integer

/-!
# Doubles as text

A double is written with the fewest digits that read back to it. All texts that read back lie
between the midpoints to its two neighbours, so for one, two, … up to seventeen digits it is enough
to try the two decimals around the value; of two that fit, the nearer one is taken.

`Number.write` gives the usual short form: positional from 0.0001 up to 10^16, with an exponent
outside of that, and always with a point or an exponent, which tells a decimal from an integer.
-/

namespace Roadmap

namespace Double

/-- The least power of ten above a positive fraction: `10 ^ (p - 1) ≤ num / den < 10 ^ p`. -/
def pointOf (num den : Nat) : Int :=
  if den ≤ num then (Text.natDigits (num / den)).length
  else 1 - (Text.natDigits ((den + num - 1) / num - 1)).length

/-- The gap below a double is half as wide as the one above it. -/
def narrowBelow (d : Double) : Bool :=
  d.mantissa == Nat.pow 2 (precision - 1) && minExponent < d.exponent

/-- `digits · 10 ^ e` reads back to `d`. The double and the midpoints around it are multiples of
a quarter of its last binary place; a midpoint belongs to the double with the even mantissa. -/
def readsBack (d : Double) (digits : Nat) (e : Int) : Bool :=
  let (quarter, whole) := scaled 1 (d.exponent - 2)
  let lower := 4 * d.mantissa - (if d.narrowBelow then 1 else 2)
  let upper := 4 * d.mantissa + 2
  let tens := Nat.pow 10 e.toNat * whole
  let parts := Nat.pow 10 (-e).toNat * quarter
  if d.mantissa % 2 = 0 then lower * parts ≤ digits * tens && digits * tens ≤ upper * parts
  else lower * parts < digits * tens && digits * tens < upper * parts

/-- The decimal with `count` digits that reads back to `d`, if there is one: its digits and the
power of ten of the last of them. -/
def withDigits? (d : Double) (count : Nat) : Option (Nat × Int) :=
  let (num, den) := d.size
  let e := pointOf num den - count
  let num := num * Nat.pow 10 (-e).toNat
  let den := den * Nat.pow 10 e.toNat
  let below := num / den
  match d.readsBack below e, d.readsBack (below + 1) e with
  | true, true => some (roundDiv num den, e)
  | true, false => some (below, e)
  | false, true => some (below + 1, e)
  | false, false => none

/-- The fewest digits that read back, without zeros at the end, and how many of them stand before
the point. -/
def shortest (d : Double) : List Char × Int :=
  let (digits, e) := ((List.range 17).findSome? fun n => d.withDigits? (n + 1)).getD (0, 0)
  let digits := Text.natDigits digits
  (Text.dropTrailing (· == '0') digits, digits.length + e)

/-! ## Layout -/

/-- Digits with a point after the first `point` of them. -/
def positional (digits : List Char) (point : Int) : List Char :=
  if point ≤ 0 then '0' :: '.' :: (List.replicate (-point).toNat '0' ++ digits)
  else
    let p := point.toNat
    if digits.length ≤ p then digits ++ List.replicate (p - digits.length) '0' ++ ['.', '0']
    else digits.take p ++ '.' :: digits.drop p

/-- Digits with a point after the first one and a power of ten. -/
def scientific (digits : List Char) (power : Int) : List Char :=
  let mantissa := match digits with
    | d :: rest@(_ :: _) => d :: '.' :: rest
    | _ => digits
  let places := Text.natDigits power.natAbs
  mantissa ++ ['e', if power < 0 then '-' else '+']
    ++ List.replicate (2 - places.length) '0' ++ places

def write (d : Double) : List Char :=
  let body :=
    if d.isZero then ['0', '.', '0']
    else
      let (digits, point) := d.shortest
      if -4 < point && point ≤ 16 then positional digits point
      else scientific digits (point - 1)
  if d.negative then '-' :: body else body

end Double

namespace Number

/-- The form of a number in JSON. -/
def write : Number → List Char
  | finite d => d.write
  | infinite true => "-Infinity".toList
  | infinite false => "Infinity".toList
  | undefined => "NaN".toList

/-- The form of a number in a title. -/
def literal : Number → List Char
  | finite d => d.write
  | infinite true => "-inf".toList
  | infinite false => "inf".toList
  | undefined => "nan".toList

end Number

end Roadmap
