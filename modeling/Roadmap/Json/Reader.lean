import Roadmap.Json
import Roadmap.Text.Integer

/-!
# Reading JSON

`Json.read` accepts one value with JSON white space around it. Where a text is no JSON, the answer
says at which character reading stopped. Inside the module a place in the text is what is left of
it from there on, and a reader that stops hands back the place it blames.

Two rules decide the place. A missing value, comma, colon or key is blamed on the character found
instead. A string is blamed on its opening quote if it never closes, on the backslash of an unknown
escape, and on the `u` of a code-point escape without its digits.

Three words beyond the standard are numbers: `NaN`, `Infinity` and `-Infinity`.
-/

namespace Roadmap.Json

/-- Why a text is not a JSON value. -/
inductive ReadFault where
  /-- The character at this place cannot stand there. -/
  | unexpected (offset : Nat)
  /-- An integer has more digits than may be read. -/
  | integerTooLong
  /-- Lists and objects stand inside one another too deep. -/
  | tooDeep
deriving DecidableEq, Repr

/-- A stop inside the text: the rest from the blamed character on, or one of the other faults. -/
inductive Stop where
  | here (rest : List Char)
  | integerTooLong
  | tooDeep

abbrev Reading (α : Type) := Except Stop (α × List Char)

def isWhite (c : Char) : Bool := c == ' ' || c == '\t' || c == '\n' || c == '\r'

def skipWhite (s : List Char) : List Char := s.dropWhile isWhite

/-! ## Strings -/

def hexValue? (c : Char) : Option Nat :=
  if '0' ≤ c && c ≤ '9' then some (c.toNat - 0x30)
  else if 'a' ≤ c && c ≤ 'f' then some (c.toNat - 0x57)
  else if 'A' ≤ c && c ≤ 'F' then some (c.toNat - 0x37)
  else none

/-- The four digits of a code-point escape, and what follows them; something has to. -/
def hexUnit? : List Char → Option (Nat × List Char)
  | a :: b :: c :: d :: rest@(_ :: _) => do
    return (((← hexValue? a) * 16 + (← hexValue? b)) * 16 + (← hexValue? c)) * 16 + (← hexValue? d)
      |> fun n => (n, rest)
  | _ => none

/-- The character of a one-letter escape. -/
def escaped? : Char → Option Char
  | '"' => some '"'
  | '\\' => some '\\'
  | '/' => some '/'
  | 'b' => some (Char.ofNat 8)
  | 'f' => some (Char.ofNat 12)
  | 'n' => some '\n'
  | 'r' => some '\r'
  | 't' => some '\t'
  | _ => none

/-- The characters of a string as they are read; half of a pair is no character. -/
abbrev Spelling := List (Option Char)

/-- The text that a spelling gives, if nothing is missing. -/
def Spelling.text? (s : Spelling) : Option String := (s.mapM id).map String.ofList

def Spelling.value (s : Spelling) : Json :=
  match s.text? with
  | some t => .text t
  | none => .brokenText

/-- The text with a replacement for each half of a pair. -/
def Spelling.mended (s : Spelling) : String :=
  String.ofList (s.map fun c => c.getD (Char.ofNat 0xFFFD))

/-- The character that a 16-bit unit stands for by itself; half of a pair stands for none. -/
def unitChar (n : Nat) : Option Char :=
  if 0xD800 ≤ n && n ≤ 0xDFFF then none else some (Char.ofNat n)

/-- Reads a code-point escape after its `u`, with the second half of a pair if one follows.
`place` is the rest from the `u` on. -/
def readUnit (place s : List Char) : Reading (Option Char) :=
  match hexUnit? s with
  | none => .error (.here place)
  | some (high, rest) =>
    match rest with
    | '\\' :: 'u' :: low =>
      if 0xD800 ≤ high && high ≤ 0xDBFF && 5 ≤ low.length then
        match hexUnit? low with
        | none => .error (.here ('u' :: low))
        | some (second, after) =>
          if 0xDC00 ≤ second && second ≤ 0xDFFF then
            .ok (some (Char.ofNat (0x10000 + (high - 0xD800) * 0x400 + (second - 0xDC00))), after)
          else .ok (unitChar high, rest)
      else .ok (unitChar high, rest)
    | _ => .ok (unitChar high, rest)

/-- Reads the rest of a string after its opening quote; `seen` is what it holds so far, last
character first, and `opening` the rest from the opening quote on. -/
def readString (opening : List Char) : Nat → Spelling → List Char → Reading Spelling
  | 0, _, _ => .error (.here opening)
  | _, _, [] => .error (.here opening)
  | fuel + 1, seen, c :: rest =>
    if c == '"' then .ok (seen.reverse, rest)
    else if c == '\\' then
      match rest with
      | [] => .error (.here opening)
      | 'u' :: digits =>
        match readUnit rest digits with
        | .error stop => .error stop
        | .ok (d, after) => readString opening fuel (d :: seen) after
      | e :: after =>
        match escaped? e with
        | none => .error (.here (c :: rest))
        | some d => readString opening fuel (some d :: seen) after
    else if c.toNat < 0x20 then .error (.here (c :: rest))
    else readString opening fuel (some c :: seen) rest

/-! ## Numbers -/

def isAsciiDigit (c : Char) : Bool := '0' ≤ c && c ≤ '9'

/-- The digits after a point, and what follows; none if no digit follows a point. -/
def fraction (s : List Char) : List Char × List Char :=
  match s with
  | '.' :: rest =>
    match rest.takeWhile isAsciiDigit with
    | [] => ([], s)
    | ds => (ds, rest.dropWhile isAsciiDigit)
  | _ => ([], s)

/-- The exponent after an `e`, and what follows; none if no digit follows it. -/
def exponent? (s : List Char) : Option Int × List Char :=
  match s with
  | e :: rest =>
    if e == 'e' || e == 'E' then
      let (negative, digits) : Bool × List Char := match rest with
        | '-' :: ds => (true, ds)
        | '+' :: ds => (false, ds)
        | ds => (false, ds)
      match digits.takeWhile isAsciiDigit with
      | [] => (none, s)
      | ds =>
        let n := (Text.digitsValue ds : Int)
        (some (if negative then -n else n), digits.dropWhile isAsciiDigit)
    else (none, s)
  | [] => (none, s)

/-- Reads a number whose sign is already taken; `place` is the rest from the sign on. -/
def readUnsigned (place : List Char) (negative : Bool) (s : List Char) : Reading Json :=
  let (whole, rest) : List Char × List Char := match s with
    | '0' :: rest => (['0'], rest)
    | _ => (s.takeWhile isAsciiDigit, s.dropWhile isAsciiDigit)
  if whole.isEmpty then .error (.here place)
  else
    let (places, rest) := fraction rest
    let (power, rest) := exponent? rest
    if places.isEmpty && power.isNone then
      if whole.length > Fault.maxDigits then .error .integerTooLong
      else
        let n := (Text.digitsValue whole : Int)
        .ok (.int (if negative then -n else n), rest)
    else
      let coefficient := Text.digitsValue (whole ++ places)
      let e := power.getD 0 - places.length
      .ok (.decimal (.ofDecimal negative coefficient e), rest)

def readNumber (s : List Char) : Reading Json :=
  match s with
  | '-' :: rest => readUnsigned s true rest
  | _ => readUnsigned s false s

/-! ## Values -/

/-- Takes the word `word` off the front of a text. -/
def afterWord? : List Char → List Char → Option (List Char)
  | [], s => some s
  | w :: ws, c :: cs => if w == c then afterWord? ws cs else none
  | _ :: _, [] => none

def readWord (word : String) (value : Json) (s : List Char) : Reading Json :=
  match afterWord? word.toList s with
  | some rest => .ok (value, rest)
  | none => .error (.here s)

/-- Reads what starts with a minus: a number, or the infinite one. -/
def readNegative (s : List Char) : Reading Json :=
  match afterWord? "-Infinity".toList s with
  | some rest => .ok (.decimal (.infinite true), rest)
  | none => readNumber s

mutual

/-- Reads a value that starts at the first character; `room` tells how many lists and objects may
still be opened inside one another. -/
def readValue : Nat → Nat → List Char → Reading Json
  | 0, _, s => .error (.here s)
  | fuel + 1, room, s =>
    match s with
    | '"' :: rest =>
      (readString s (rest.length + 1) [] rest).map fun (t, after) => (t.value, after)
    | '\x7b' :: rest =>
      match room with
      | 0 => .error .tooDeep
      | room + 1 =>
        match skipWhite rest with
        | '\x7d' :: after => .ok (.object [], after)
        | place => readFields fuel room [] place
    | '[' :: rest =>
      match room with
      | 0 => .error .tooDeep
      | room + 1 =>
        match skipWhite rest with
        | ']' :: after => .ok (.list [], after)
        | place => readItems fuel room [] place
    | 'n' :: _ => readWord "null" .null s
    | 't' :: _ => readWord "true" (.bool true) s
    | 'f' :: _ => readWord "false" (.bool false) s
    | 'N' :: _ => readWord "NaN" (.decimal .undefined) s
    | 'I' :: _ => readWord "Infinity" (.decimal (.infinite false)) s
    | '-' :: _ => readNegative s
    | _ => readNumber s

/-- Reads the items of a list up to its bracket; `seen` are those already read, last first. -/
def readItems : Nat → Nat → List Json → List Char → Reading Json
  | 0, _, _, s => .error (.here s)
  | fuel + 1, room, seen, s =>
    match readValue fuel room s with
    | .error stop => .error stop
    | .ok (item, rest) =>
      match skipWhite rest with
      | ']' :: after => .ok (.list (item :: seen).reverse, after)
      | ',' :: after => readItems fuel room (item :: seen) (skipWhite after)
      | place => .error (.here place)

/-- Reads the fields of an object up to its brace; `seen` are those already read. A field whose key
is no text has no value that is one either. -/
def readFields : Nat → Nat → List (String × Json) → List Char → Reading Json
  | 0, _, _, s => .error (.here s)
  | fuel + 1, room, seen, s =>
    match s with
    | '"' :: rest =>
      match readString s (rest.length + 1) [] rest with
      | .error stop => .error stop
      | .ok (key, rest) =>
        match skipWhite rest with
        | ':' :: after =>
          match readValue fuel room (skipWhite after) with
          | .error stop => .error stop
          | .ok (value, rest) =>
            let value := if key.text?.isNone then .brokenText else value
            let fields := setField key.mended value seen
            match skipWhite rest with
            | '\x7d' :: after => .ok (.object fields, after)
            | ',' :: after => readFields fuel room fields (skipWhite after)
            | place => .error (.here place)
        | place => .error (.here place)
    | place => .error (.here place)

end

/-- The value that a text writes, with at most `room` lists and objects inside one another. -/
def readWithin (room : Nat) (s : List Char) : Except ReadFault Json :=
  let offset (rest : List Char) : Nat := s.length - rest.length
  match readValue (2 * s.length + 2) room (skipWhite s) with
  | .error (.here rest) => .error (.unexpected (offset rest))
  | .error .integerTooLong => .error .integerTooLong
  | .error .tooDeep => .error .tooDeep
  | .ok (value, rest) =>
    match skipWhite rest with
    | [] => .ok value
    | place => .error (.unexpected (offset place))

/-- The value that a text writes. -/
def read (s : String) : Except ReadFault Json := readWithin s.length s.toList

end Roadmap.Json
