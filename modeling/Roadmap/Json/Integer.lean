import Roadmap.Json
import Roadmap.Text.Integer

/-!
# Integers out of JSON

Where an integer is wanted, a decimal loses its places, a truth value counts as 0 or 1, and a text
is read. Every other value is of the wrong kind.
-/

namespace Roadmap

/-- The integer part of a number. -/
def Number.integer : Number → Except Fault Int
  | .finite d => .ok d.truncate
  | .infinite _ => .error .infiniteInteger
  | .undefined => .error .undefinedInteger

/-- The integer that a value stands for. -/
def Json.integer : Json → Except Fault Int
  | .int n => .ok n
  | .bool b => .ok (if b then 1 else 0)
  | .decimal n => n.integer
  | .text s => Text.readInt s.toList
  | j => .error (.misfit (.notANumber j.kind))

end Roadmap
