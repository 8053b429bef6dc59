import Roadmap.Json.Reader
import Roadmap.Service.Route

/-!
# Request bodies

The web framework in front of the routes takes the arguments of a route from a JSON object. It reads
the fields leniently: an integer may be given as a text, as a decimal without places or as a truth
value, and a truth value as a word or as 0 or 1. All that is wrong with a body is reported at once,
each issue with its kind, the path to it and what was given there.

These are the manners of the framework, as they show from outside. What a route does does not depend
on them.
-/

namespace Roadmap.Service

/-- Something wrong with a body: its kind, the path to it, and the value that was given there. -/
structure Issue where
  kind : String
  place : List String
  given : Json

/-- A value read from a body, or all that is wrong with it. -/
abbrev Checked (α : Type) := Except (List Issue) α

namespace Checked

/-- Two values, or the issues of both. -/
def both : Checked α → Checked β → Checked (α × β)
  | .ok a, .ok b => .ok (a, b)
  | .ok _, .error es => .error es
  | .error es, .ok _ => .error es
  | .error es, .error fs => .error (es ++ fs)

/-- All values, or the issues of all. -/
def all : List (Checked α) → Checked (List α)
  | [] => .ok []
  | c :: cs => (both c (all cs)).map fun (a, as) => a :: as

end Checked

/-! ## Lenient values -/

/-- Reads a value that stands at a place. -/
abbrev FieldReader (α : Type) := List String → Json → Checked α

def issue (kind : String) (place : List String) (given : Json) : Checked α :=
  .error [⟨kind, place, given⟩]

def readText : FieldReader String
  | _, .text s => .ok s
  | place, .brokenText => issue "string_unicode" place .brokenText
  | place, j => issue "string_type" place j

/-! ### Integers

A text is first taken as an integer in plain form, and if it is none, once more without what may
stand around and between its digits. -/

/-- The blanks that may stand around a number: the white space of Unicode. -/
def isFrame (c : Char) : Bool := Text.isBlank c && !(0x1C ≤ c.toNat && c.toNat ≤ 0x1F)

/-- What kept a text from being an integer. -/
inductive IntegerIssue where
  | malformed
  | tooLong
deriving DecidableEq, Repr

def IntegerIssue.kind : IntegerIssue → String
  | malformed => "int_parsing"
  | tooLong => "int_parsing_size"

/-- The integer in plain form: a minus or nothing, then digits that do not start with a zero unless
that is all. Sign and digits together count against the limit, and do so even if junk follows. -/
def plainInteger (s : List Char) : Except IntegerIssue Int :=
  let (negative, unsigned) : Bool × List Char := match s with
    | '-' :: rest => (true, rest)
    | rest => (false, rest)
  let digits := unsigned.takeWhile Json.isAsciiDigit
  let length := digits.length + if negative then 1 else 0
  match digits with
  | [] => .error .malformed
  | d :: more =>
    if d = '0' ∧ !more.isEmpty then .error .malformed
    else if Fault.maxDigits < length then .error .tooLong
    else if digits.length < unsigned.length then .error .malformed
    else
      let n := (Text.digitsValue digits : Int)
      .ok (if negative then -n else n)

/-- A text that starts with a digit, without zeros in front. Low lines go with the zeros; one
character stays if that is all, or if a point follows. -/
def withoutZeros? (s : List Char) : Option (List Char) :=
  match s with
  | '0' :: _ =>
    let isZero (c : Char) : Bool := c == '0' || c == '_'
    let last := (s.takeWhile isZero).getLast?.toList
    match s.dropWhile isZero with
    | [] => some last
    | '.' :: rest => some (last ++ '.' :: rest)
    | rest => some rest
  | c :: _ => if Json.isAsciiDigit c then some s else none
  | [] => none

/-- A text without its first point and what follows that, if there is nothing but zeros. -/
def withoutPlaces (s : List Char) : List Char :=
  match s.dropWhile (· != '.') with
  | '.' :: zeros => if zeros.all (· == '0') then s.takeWhile (· != '.') else s
  | _ => s

/-- A text without low lines, if none stands at an end or beside another. -/
def withoutLowLines (s : List Char) : List Char :=
  if s.head? = some '_' || s.getLast? = some '_' || (s.zip s.tail).contains ('_', '_') then s
  else s.filter (· != '_')

/-- The plain form of a text, as far as it has one. -/
def plainForm? (s : List Char) : Option (List Char) :=
  let body := Text.dropTrailing isFrame (s.dropWhile isFrame)
  let (sign, unsigned) : List Char × List Char := match body with
    | '-' :: rest => (['-'], rest)
    | '+' :: rest => ([], rest)
    | rest => ([], rest)
  (withoutZeros? unsigned).map fun s => withoutLowLines (sign ++ withoutPlaces s)

/-- The integer that a text in a body writes, with ASCII digits. -/
def lenientInteger (s : List Char) : Except IntegerIssue Int :=
  match plainInteger s, plainForm? s with
  | .error .malformed, some form => plainInteger form
  | outcome, _ => outcome

/-- The integers that 64 binary digits hold. -/
def isMachineSized (n : Int) : Bool := -0x8000000000000000 ≤ n && n < 0x8000000000000000

/-- A decimal without places, if it is small enough; `-2 ^ 63` itself is not. -/
def wholeNumber (d : Double) : Except String Int :=
  if !d.isIntegral then .error "int_from_float"
  else if isMachineSized d.truncate && isMachineSized (-d.truncate) then .ok d.truncate
  else .error "int_parsing_size"

def readInteger : FieldReader Int
  | _, .int n => .ok n
  | _, .bool b => .ok (if b then 1 else 0)
  | place, .decimal (.finite d) =>
    match wholeNumber d with
    | .ok n => .ok n
    | .error kind => issue kind place (.decimal (.finite d))
  | place, .decimal n => issue "finite_number" place (.decimal n)
  | place, .brokenText => issue "string_unicode" place .brokenText
  | place, .text s =>
    match lenientInteger s.toList with
    | .ok n => .ok n
    | .error e => issue e.kind place (.text s)
  | place, j => issue "int_type" place j

/-! ### Truth values -/

/-- The truth value of a word, in any case. -/
def truthWord? (s : String) : Option Bool :=
  let word := String.ofList (s.toList.map Char.toLower)
  if ["0", "off", "f", "false", "n", "no"].contains word then some false
  else if ["1", "on", "t", "true", "y", "yes"].contains word then some true
  else none

/-- The truth value of a number. -/
def truthNumber? (n : Int) : Option Bool :=
  if n = 0 then some false else if n = 1 then some true else none

/-- The truth value of a number that fits, or what is wrong with it. -/
def truthInteger (n : Int) : Except String Bool :=
  if isMachineSized n then
    match truthNumber? n with
    | some b => .ok b
    | none => .error "bool_parsing"
  else .error "bool_type"

/-- The truth value of a value, or what is wrong with it. -/
def truthOf : Json → Except String Bool
  | .bool b => .ok b
  | .int n => truthInteger n
  | .decimal (.finite d) =>
    match wholeNumber d with
    | .ok n => truthInteger n
    | .error _ => .error "bool_type"
  | .text s =>
    match truthWord? s with
    | some b => .ok b
    | none => .error "bool_parsing"
  | .brokenText => .error "string_unicode"
  | _ => .error "bool_type"

def readTruth : FieldReader Bool
  | place, j =>
    match truthOf j with
    | .ok b => .ok b
    | .error kind => issue kind place j

/-! ### Lists -/

def readIntegers : FieldReader (List Int)
  | place, .list items =>
    Checked.all (items.zipIdx.map fun (item, i) => readInteger (place ++ [toString i]) item)
  | place, j => issue "list_type" place j

/-! ## Fields -/

/-- A field that has to be there. -/
def required (read : FieldReader α) (key : String) (body : Json) : Checked α :=
  match body.field? key with
  | some value => read ["body", key] value
  | none => issue "missing" ["body", key] body

/-- A field that may be missing or null. -/
def optional (read : FieldReader α) (key : String) (body : Json) : Checked (Option α) :=
  match body.field? key with
  | none => .ok none
  | some .null => .ok none
  | some value => (read ["body", key] value).map some

/-! ## Bodies of routes -/

def dragBody (body : Json) : Checked DragBody :=
  ((required readText "start" body).both (optional readInteger "duration" body)).map
  fun (start, duration) => ⟨start, duration⟩

def updateBody (body : Json) : Checked UpdateBody :=
  ((optional readText "title" body).both <|
    (optional readInteger "duration" body).both <|
    (optional readText "start" body).both <|
    (optional readIntegers "dependencies" body).both <|
    (optional readTruth "is_milestone" body).both <|
    (optional readText "status" body).both <|
    (optional readText "color" body).both <|
    optional readText "linked_note" body).map
  fun (title, duration, start, dependencies, isMilestone, status, color, note) =>
    ⟨title, duration, start, dependencies, isMilestone, status, color, note⟩

def editBody (body : Json) : Checked EditBody :=
  ((required readText "operation" body).both <|
    (required readInteger "line_number" body).both <|
    (optional readInteger "target_line_number" body).both <|
    optional readText "text" body).map
  fun (operation, line, target, text) => ⟨operation, line, target, text⟩

def parseBody (body : Json) : Checked ParseBody :=
  ((required readText "text" body).both (optional readText "today" body)).map
  fun (text, today) => ⟨text, today⟩

/-! ## The body as a whole -/

/-- What came as the body of a request: nothing, or a text that should be JSON. -/
inductive Body where
  | absent
  | raw (text : String)
deriving DecidableEq, Repr

/-- Why a body was not taken. -/
inductive BodyFault where
  /-- The body holds an integer too long to read, or is nested too deep. -/
  | unreadable
  | issues (is : List Issue)

/-- How many lists and objects may stand inside one another in a body. -/
def maxDepth : Nat := 950

/-- A text without the byte order mark in front of it. -/
def withoutMark (s : List Char) : List Char :=
  match s with
  | c :: rest => if c.toNat = 0xFEFF then rest else s
  | [] => s

/-- The object in a body. A body without a text is missing; any other value is there, but is not
an object. -/
def Body.read : Body → Except BodyFault Json
  | .absent => .error (.issues [⟨"missing", ["body"], .null⟩])
  | .raw text =>
    if text.isEmpty then .error (.issues [⟨"missing", ["body"], .null⟩])
    else match Json.readWithin maxDepth (withoutMark text.toList) with
      | .error (.unexpected offset) =>
        .error (.issues [⟨"json_invalid", ["body", toString offset], .object []⟩])
      | .error .integerTooLong => .error .unreadable
      | .error .tooDeep => .error .unreadable
      | .ok (.object fields) => .ok (.object fields)
      | .ok j => .error (.issues [⟨"model_attributes_type", ["body"], j⟩])

/-- What a reader makes of a body. -/
def Body.check (b : Body) (read : Json → Checked α) : Except BodyFault α := do
  let body ← b.read
  match read body with
  | .ok a => return a
  | .error is => throw (.issues is)

end Roadmap.Service
