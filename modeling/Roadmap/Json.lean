import Roadmap.Text.Double

/-!
# JSON values

Requests, tool answers and the values of a change are JSON. The fields of an object keep their
order, and a number written as an integer is told apart from a decimal, which is kept in double
precision.
-/

namespace Roadmap

inductive Json where
  | null
  | bool (b : Bool)
  | int (n : Int)
  | decimal (n : Number)
  | text (s : String)
  /-- A text with half of a character beyond the first 65536, which no text can hold. -/
  | brokenText
  | list (items : List Json)
  | object (fields : List (String × Json))

namespace Json

instance : Inhabited Json := ⟨.null⟩

/-- The value of the field `key`. -/
def field? (key : String) : Json → Option Json
  | object fields => fields.lookup key
  | _ => none

/-- The fields with `key` set: a field that is there keeps its place, a new one comes last. -/
def setField (key : String) (value : Json) : List (String × Json) → List (String × Json)
  | [] => [(key, value)]
  | (k, v) :: rest =>
    if k == key then (k, value) :: rest else (k, v) :: setField key value rest

def ofOption (f : α → Json) : Option α → Json
  | some a => f a
  | none => null

def ofNat (n : Nat) : Json := int n

/-- Null, false, zero and whatever is empty count as nothing. -/
def isNothing : Json → Bool
  | null => true
  | bool b => !b
  | int n => n == 0
  | decimal n => n.isZero
  | text s => s.isEmpty
  | brokenText => false
  | list items => items.isEmpty
  | object fields => fields.isEmpty

/-- The name that messages use for a kind of value. -/
def kind : Json → String
  | null => "NoneType"
  | bool _ => "bool"
  | int _ => "int"
  | decimal _ => "float"
  | text _ => "str"
  | brokenText => "str"
  | list _ => "list"
  | object _ => "dict"

/-! ## What JSON cannot write -/

mutual

/-- Somewhere in the value is a number that is infinite or none at all. -/
def hasOddNumber : Json → Bool
  | decimal (.finite _) => false
  | decimal _ => true
  | list items => anyOddNumber items
  | object fields => fieldsOddNumber fields
  | _ => false

def anyOddNumber : List Json → Bool
  | [] => false
  | item :: items => hasOddNumber item || anyOddNumber items

def fieldsOddNumber : List (String × Json) → Bool
  | [] => false
  | (_, value) :: fields => hasOddNumber value || fieldsOddNumber fields

end

mutual

/-- Somewhere in the value is a text that is none. -/
def hasBrokenText : Json → Bool
  | brokenText => true
  | list items => anyBrokenText items
  | object fields => fieldsBrokenText fields
  | _ => false

def anyBrokenText : List Json → Bool
  | [] => false
  | item :: items => hasBrokenText item || anyBrokenText items

def fieldsBrokenText : List (String × Json) → Bool
  | [] => false
  | (_, value) :: fields => hasBrokenText value || fieldsBrokenText fields

end

end Json

end Roadmap
