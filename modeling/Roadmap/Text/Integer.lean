import Roadmap.Fault
import Roadmap.Text.Digit

/-!
# Integers as text

An integer is written with a sign if it is negative and without leading zeros. It is read more
generously: blanks around it, either sign, digits of any script, and single low lines between
digits. Neither way may the number have more than `Fault.maxDigits` digits.
-/

namespace Roadmap.Text

/-- The digit that stands for the last decimal place of `n`. -/
def lastDigit (n : Nat) : Char := Char.ofNat (0x30 + n % 10)

/-- The decimal digits of a natural number; only zero itself starts with a zero. -/
def natDigits (n : Nat) : List Char :=
  if n < 10 then [lastDigit n] else natDigits (n / 10) ++ [lastDigit n]
termination_by n

/-- The `width` last decimal places of `n`. -/
def fixedDigits : Nat → Nat → List Char
  | 0, _ => []
  | width + 1, n => fixedDigits width (n / 10) ++ [lastDigit n]

/-- The decimal form of an integer, of whatever length. -/
def intDigits (n : Int) : List Char :=
  match n with
  | .ofNat n => natDigits n
  | .negSucc n => '-' :: natDigits (n + 1)

/-- The decimal form of an integer, unless it is too long to write. -/
def writeInt (n : Int) : Except Fault (List Char) :=
  if n.natAbs < Nat.pow 10 Fault.maxDigits then .ok (intDigits n) else .error .integerTooLongToWrite

/-- A blank that may stand around an integer: all blanks but the information separators. -/
def isIntegerBlank (c : Char) : Bool := isBlank c && !(0x1C ≤ c.toNat && c.toNat ≤ 0x1F)

/-- The digits at the start of a text, in which single low lines may stand between digits, and
what follows them. There is none if a low line stands at an end or beside another. -/
def leadingDigits (s : List Char) : Option (List Char × List Char) :=
  let run := s.takeWhile fun c => isDigit c || c == '_'
  let rest := s.dropWhile fun c => isDigit c || c == '_'
  if run.head? = some '_' || run.getLast? = some '_' then none
  else if (run.zip run.tail).contains ('_', '_') then none
  else some (run.filter (· != '_'), rest)

/-- The integer that a text writes. -/
def readInt (s : List Char) : Except Fault Int :=
  let bad : Except Fault Int := .error (.notAnInteger (String.ofList s))
  let body := dropTrailing isIntegerBlank (s.dropWhile isIntegerBlank)
  let (negative, unsigned) : Bool × List Char :=
    match body with
    | '-' :: rest => (true, rest)
    | '+' :: rest => (false, rest)
    | rest => (false, rest)
  match leadingDigits unsigned with
  | none => bad
  | some (digits, rest) =>
    if digits.length > Fault.maxDigits then .error (.integerTooLong digits.length)
    else if digits.isEmpty || !rest.isEmpty then bad
    else
      let n := digitsValue digits
      .ok (if negative then -(n : Int) else n)

end Roadmap.Text
