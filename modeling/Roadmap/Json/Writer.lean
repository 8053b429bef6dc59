import Roadmap.Json
import Roadmap.Text.Quoted
import Roadmap.Text.Shortest

/-!
# Writing JSON

Two forms of the same value, both in ASCII: `line` on one line, with a blank after each comma and
colon, and `indented`, one item a line, each level two blanks deeper.
-/

namespace Roadmap.Json

/-- A 16-bit unit as an escape. -/
def unitEscape (n : Nat) : List Char := '\\' :: 'u' :: Text.hexDigits 4 n

/-- A character inside a string; one past ASCII is written as its one or two 16-bit units. -/
def stringChar (c : Char) : List Char :=
  if c == '"' || c == '\\' then ['\\', c]
  else if c == '\n' then ['\\', 'n']
  else if c == '\r' then ['\\', 'r']
  else if c == '\t' then ['\\', 't']
  else if c == Char.ofNat 8 then ['\\', 'b']
  else if c == Char.ofNat 12 then ['\\', 'f']
  else
    let n := c.toNat
    if 0x20 ≤ n && n < 0x7F then [c]
    else if n < 0x10000 then unitEscape n
    else unitEscape (0xD800 + (n - 0x10000) / 0x400) ++ unitEscape (0xDC00 + (n - 0x10000) % 0x400)

def string (s : String) : List Char := '"' :: (s.toList.flatMap stringChar ++ ['"'])

/-- The form of a value that holds no other values. -/
def scalar : Json → List Char
  | bool true => "true".toList
  | bool false => "false".toList
  | int n => Text.intDigits n
  | decimal n => n.write
  | text s => string s
  | _ => "null".toList

mutual

def lineChars : Json → List Char
  | list [] => ['[', ']']
  | list (item :: items) => '[' :: (lineChars item ++ lineItems items)
  | object [] => ['\x7b', '\x7d']
  | object (field :: fields) => '\x7b' :: (lineField field ++ lineFields fields)
  | j => scalar j

/-- The items after the first, with the closing bracket. -/
def lineItems : List Json → List Char
  | [] => [']']
  | item :: items => ',' :: ' ' :: (lineChars item ++ lineItems items)

def lineField : String × Json → List Char
  | (key, value) => string key ++ ':' :: ' ' :: lineChars value

/-- The fields after the first, with the closing brace. -/
def lineFields : List (String × Json) → List Char
  | [] => ['\x7d']
  | field :: fields => ',' :: ' ' :: (lineField field ++ lineFields fields)

end

/-- The value on one line. -/
def line (j : Json) : String := String.ofList (lineChars j)

/-- A new line at the given depth. -/
def lineBreak (depth : Nat) : List Char := '\n' :: List.replicate (2 * depth) ' '

mutual

def indentedChars (depth : Nat) : Json → List Char
  | list [] => ['[', ']']
  | list (item :: items) =>
    '[' :: (lineBreak (depth + 1) ++ indentedChars (depth + 1) item ++ indentedItems depth items)
  | object [] => ['\x7b', '\x7d']
  | object (field :: fields) =>
    '\x7b' :: (lineBreak (depth + 1) ++ indentedField depth field ++ indentedFields depth fields)
  | j => scalar j

/-- The items after the first of a list at `depth`, with the closing bracket. -/
def indentedItems (depth : Nat) : List Json → List Char
  | [] => lineBreak depth ++ [']']
  | item :: items =>
    ',' :: (lineBreak (depth + 1) ++ indentedChars (depth + 1) item ++ indentedItems depth items)

def indentedField (depth : Nat) : String × Json → List Char
  | (key, value) => string key ++ ':' :: ' ' :: indentedChars (depth + 1) value

/-- The fields after the first of an object at `depth`, with the closing brace. -/
def indentedFields (depth : Nat) : List (String × Json) → List Char
  | [] => lineBreak depth ++ ['\x7d']
  | field :: fields =>
    ',' :: (lineBreak (depth + 1) ++ indentedField depth field ++ indentedFields depth fields)

end

/-- The value with one item a line. -/
def indented (j : Json) : String := String.ofList (indentedChars 0 j)

end Roadmap.Json
