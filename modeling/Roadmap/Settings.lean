import Roadmap.Text.Number

/-!
# Settings

Settings come from the environment, a list of names with their texts. A flag is set by `true`, `1`
or `yes` in any case; numbers are read when they are needed, and a text that is no number is a
fault.
-/

namespace Roadmap

/-- The variables that are set. -/
abbrev Environment := List (String × String)

namespace Environment

/-- The text of a variable, or `fallback` if it is not set. -/
def get (env : Environment) (name fallback : String) : String := (env.lookup name).getD fallback

def flag (env : Environment) (name fallback : String) : Bool :=
  ["true", "1", "yes"].contains (String.ofList ((env.get name fallback).toList.map Char.toLower))

end Environment

/-- How the file is watched: the pause between two looks and the time that it has to be quiet, both
in seconds. -/
structure WatchSettings where
  pause : Number
  window : Double
deriving DecidableEq, Repr

/-- Thousandths of a second in seconds. -/
def Double.seconds (millis : Int) : Except Fault Double :=
  match Number.ofInt millis with
  | .finite ms =>
    match Number.nearest ms.negative ms.size.1 (ms.size.2 * 1000) with
    | .finite s => .ok s
    | _ => .error .numberTooLarge
  | _ => .error .numberTooLarge

namespace WatchSettings

/-- The pause that the environment asks for. -/
def defaultPause (env : Environment) : Except Fault Number :=
  Number.read (env.get "POLL_INTERVAL" "2.0").toList

/-- The pause, and the window in thousandths, that are given, or else what the environment says, or
else two seconds and half a second. A pause of zero counts as not given. -/
def read (env : Environment) (pause : Option Number) (window : Option Int) :
    Except Fault WatchSettings := do
  let pause ← match pause with
    | some p => if p.isZero then defaultPause env else pure p
    | none => defaultPause env
  let window ← match window with
    | some w => pure w
    | none => Text.readInt (env.get "DEBOUNCE_MS" "500").toList
  return ⟨pause, ← Double.seconds window⟩

/-- The time in seconds that is too long to wait for: 2^63 billionths. -/
def endless : Rat := mkRat 0x8000000000000000 1000000000

/-- When watching stops, up to two seconds more than a pause are waited for. -/
def checkStop (s : WatchSettings) : Except Fault Unit :=
  if s.pause = .undefined then .error .pauseUndefined
  else if s.pause.isBelow (endless - 2) then .ok ()
  else .error .pauseTooLong

end WatchSettings

end Roadmap
