import Roadmap.Json
import Roadmap.Text.Quoted
import Roadmap.Text.Shortest

/-!
# Values shown in a title

A title may be set to any JSON value and then shows it: a text as it is, anything else as a
literal, with quoted texts, `None`, `True` and `False`, and brackets around lists and objects.
-/

namespace Roadmap.Json

mutual

def literal : Json → List Char
  | null => "None".toList
  | bool true => "True".toList
  | bool false => "False".toList
  | int n => Text.intDigits n
  | decimal n => n.literal
  | text s => Text.quoted s.toList
  | brokenText => Text.quoted []
  | list [] => ['[', ']']
  | list (item :: items) => '[' :: (literal item ++ literalItems items)
  | object [] => ['\x7b', '\x7d']
  | object (field :: fields) => '\x7b' :: (literalField field ++ literalFields fields)

def literalItems : List Json → List Char
  | [] => [']']
  | item :: items => ',' :: ' ' :: (literal item ++ literalItems items)

def literalField : String × Json → List Char
  | (key, value) => Text.quoted key.toList ++ ':' :: ' ' :: literal value

def literalFields : List (String × Json) → List Char
  | [] => ['\x7d']
  | field :: fields => ',' :: ' ' :: (literalField field ++ literalFields fields)

end

/-- The value as a title shows it. -/
def shown : Json → List Char
  | text s => s.toList
  | j => literal j

end Roadmap.Json
