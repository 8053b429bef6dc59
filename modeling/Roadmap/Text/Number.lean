import Roadmap.Text.Double
import Roadmap.Text.Integer

/-!
# Numbers as text

A number is written with digits of any script, a point, an exponent, a sign and blanks around it,
and with single low lines between digits. Infinity and the number that is none have names of their
own, in any case.
-/

namespace Roadmap.Number

/-- Low lines stand only between digits. -/
def underscoresFit : Bool → List Char → Bool
  | _, [] => true
  | afterDigit, '_' :: rest =>
    afterDigit && (rest.head?.map Text.isDigit).getD false && underscoresFit false rest
  | _, c :: rest => underscoresFit (Text.isDigit c) rest

/-- The names of the numbers that are not finite, in small letters. -/
def ofName? (s : List Char) : Option (Bool → Number) :=
  match String.ofList (s.map Char.toLower) with
  | "inf" => some infinite
  | "infinity" => some infinite
  | "nan" => some fun _ => undefined
  | _ => none

/-- The exponent at the end of a number; nothing else may follow it. -/
def readExponent? : List Char → Option Int
  | [] => some 0
  | e :: rest =>
    if e == 'e' || e == 'E' then
      let (negative, digits) : Bool × List Char := match rest with
        | '-' :: ds => (true, ds)
        | '+' :: ds => (false, ds)
        | ds => (false, ds)
      if digits.isEmpty || !digits.all Text.isDigit then none
      else
        let n := (Text.digitsValue digits : Int)
        some (if negative then -n else n)
    else none

/-- The number without its sign. -/
def readUnsigned? (negative : Bool) (s : List Char) : Option Number :=
  match ofName? s with
  | some f => some (f negative)
  | none =>
    let whole := s.takeWhile Text.isDigit
    let rest := s.dropWhile Text.isDigit
    let (places, rest) : List Char × List Char := match rest with
      | '.' :: r => (r.takeWhile Text.isDigit, r.dropWhile Text.isDigit)
      | r => ([], r)
    if whole.isEmpty && places.isEmpty then none
    else (readExponent? rest).map fun e =>
      ofDecimal negative (Text.digitsValue (whole ++ places)) (e - places.length)

/-- The number that a text writes. -/
def read (s : List Char) : Except Fault Number :=
  let body := Text.dropTrailing Text.isIntegerBlank (s.dropWhile Text.isIntegerBlank)
  let plain := body.filter (· != '_')
  let number :=
    if !underscoresFit false body then none
    else match plain with
      | '-' :: rest => readUnsigned? true rest
      | '+' :: rest => readUnsigned? false rest
      | rest => readUnsigned? false rest
  match number with
  | some n => .ok n
  | none => .error (.notANumber (String.ofList s))

end Roadmap.Number
