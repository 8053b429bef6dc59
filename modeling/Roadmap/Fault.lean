import Roadmap.Text.Quoted

/-!
# Faults

Everything that can stop an operation, as causes. `Fault.message` holds the wording; a fault whose
wording no layer shows has the empty message.
-/

namespace Roadmap

/-- A value of the wrong kind where an operation needed another. Kinds and abilities are given by
the names that messages use for them. -/
inductive Misfit where
  /-- Values of the kind do not have the ability. -/
  | lacks (kind ability : String)
  /-- A value of the kind has no parts to go through. -/
  | notIterable (kind : String)
  /-- Values of the two kinds have no order. -/
  | incomparable (sign left right : String)
  /-- One cannot be taken off a value of the kind. -/
  | noDifference (kind : String)
  /-- A value of the kind cannot stand for an integer. -/
  | notANumber (kind : String)
  /-- A value of the kind is no index. -/
  | notAnIndex (kind : String)
  /-- A value of the kind cannot say where to put a line. -/
  | notAPosition (kind : String)
  /-- A decimal cannot say where to put a block of lines. -/
  | notABound
  /-- A value of the kind cannot be the line with the given index. -/
  | notALine (index : Int) (kind : String)
  /-- A value of the kind cannot be looked up. -/
  | notAKey (kind : String)
deriving DecidableEq, Repr

/-- What is wrong with a value, in words. -/
def Misfit.message : Misfit → String
  | lacks kind ability => "'" ++ kind ++ "' object has no attribute '" ++ ability ++ "'"
  | notIterable kind => "'" ++ kind ++ "' object is not iterable"
  | incomparable sign left right =>
    "'" ++ sign ++ "' not supported between instances of '" ++ left ++ "' and '" ++ right ++ "'"
  | noDifference kind => "unsupported operand type(s) for -: '" ++ kind ++ "' and 'int'"
  | notANumber kind =>
    "int() argument must be a string, a bytes-like object or a real number, not '" ++ kind ++ "'"
  | notAnIndex kind => "list indices must be integers or slices, not " ++ kind
  | notAPosition kind => "'" ++ kind ++ "' object cannot be interpreted as an integer"
  | notABound => "slice indices must be integers or None or have an __index__ method"
  | notALine index kind =>
    "sequence item " ++ toString index ++ ": expected str instance, " ++ kind ++ " found"
  | notAKey kind => "unhashable type: '" ++ kind ++ "'"

inductive Fault where
  /-- A text was expected to be an integer. -/
  | notAnInteger (text : String)
  /-- A text was expected to be a number. -/
  | notANumber (text : String)
  /-- An integer with this many digits is longer than may be read. -/
  | integerTooLong (digits : Nat)
  /-- An integer is longer than may be written. -/
  | integerTooLongToWrite
  /-- A task is nested deeper than any line can show. -/
  | levelTooDeep
  /-- A task is nested so deep that its line does not fit into memory. -/
  | levelOutOfMemory
  | unknownStatus (name : String)
  | misfit (m : Misfit)
  /-- An integer was expected, but the number is infinite. -/
  | infiniteInteger
  /-- An integer was expected, but the value is no number at all. -/
  | undefinedInteger
  /-- An integer is too large for a number in double precision. -/
  | numberTooLarge
  /-- A pause is longer than can be waited for. -/
  | pauseTooLong
  /-- A pause is no number at all. -/
  | pauseUndefined
  /-- A value given for the field `field` is not a day; `shown` is its literal. -/
  | invalidDate (field shown : String)
  /-- No edit has this name; `shown` is its literal. -/
  | unknownOperation (shown : String)
  /-- An edit of the outline lacks the argument `argument`. -/
  | missingArgument (operation argument : String)
  /-- A file holds bytes that are not UTF-8. -/
  | undecodable
  | fileMissing (path : String)
  | isDirectory (path : String)
  /-- A file stands in the place of a directory that was to be created. -/
  | fileExists (path : String)
  /-- The path leads through a file. -/
  | notADirectory (path : String)
  /-- The session has no file to read or write. -/
  | noFile
  /-- The state of the file could not be asked for. -/
  | staleUnknown
  /-- An address on the web that is none. -/
  | invalidAddress
  /-- An address for which there is no way to get there. -/
  | unknownScheme (name : String)
  /-- An answer would hold a number that JSON cannot write. -/
  | unwritableNumber
  /-- An answer would hold a text that is no text. -/
  | unwritableText
deriving DecidableEq, Repr

namespace Fault

/-- The most digits an integer may have when it is read or written. -/
def maxDigits : Nat := 4300

/-- The names of the structural edits as a message lists them. -/
def operationNames : String :=
  "delete, delete_project, indent, insert, move, move_project, outdent"

def quote (text : String) : String := String.ofList (Text.quoted text.toList)

def message : Fault → String
  | notAnInteger text =>
    "invalid literal for int() with base 10: "
      ++ String.ofList ((Text.quoted text.toList).take 200)
  | notANumber text => "could not convert string to float: " ++ quote text
  | integerTooLong digits =>
    "Exceeds the limit (" ++ toString maxDigits
      ++ " digits) for integer string conversion: value has " ++ toString digits
      ++ " digits; use sys.set_int_max_str_digits() to increase the limit"
  | integerTooLongToWrite =>
    "Exceeds the limit (" ++ toString maxDigits
      ++ " digits) for integer string conversion; use sys.set_int_max_str_digits()"
      ++ " to increase the limit"
  | levelTooDeep => "cannot fit 'int' into an index-sized integer"
  | levelOutOfMemory => ""
  | unknownStatus name => quote name ++ " is not a valid TaskStatus"
  | misfit m => m.message
  | infiniteInteger => "cannot convert float infinity to integer"
  | undefinedInteger => "cannot convert float NaN to integer"
  | numberTooLarge => "int too large to convert to float"
  | pauseTooLong => "timestamp out of range for platform time_t"
  | pauseUndefined => "Invalid value NaN (not a number)"
  | invalidDate field shown =>
    "Invalid " ++ field ++ " date " ++ shown ++ ", expected YYYY-MM-DD"
  | unknownOperation shown =>
    "Unknown operation " ++ shown ++ ", expected one of " ++ operationNames
  | missingArgument operation argument =>
    "Operation " ++ quote operation ++ " requires " ++ argument
  | undecodable => ""
  | fileMissing path => "[Errno 2] No such file or directory: " ++ quote path
  | isDirectory path => "[Errno 21] Is a directory: " ++ quote path
  | fileExists path => "[Errno 17] File exists: " ++ quote path
  | notADirectory path => "[Errno 20] Not a directory: " ++ quote path
  | noFile => ""
  | staleUnknown => ""
  | invalidAddress => ""
  | unknownScheme name => quote name
  | unwritableNumber => "Out of range float values are not JSON compliant"
  | unwritableText => ""

end Fault

end Roadmap
