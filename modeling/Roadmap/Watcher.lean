import Roadmap.Settings

/-!
# Watching a file

A watcher looks at the file of a session from time to time. A change is reported once, and only
after the file has been quiet for a whole window of time, as editors often save in several quick
writes. A change that shows a new time starts the window again; a file that is up to date or gone
forgets what was pending.

Clocks run in doubles. The time between two looks is their exact difference rounded to a double, so
it can come out as a whole window though a little of it is missing.
-/

namespace Roadmap

/-- A change that waits for its window to pass: the time of the file, and when that was first
seen, in seconds. -/
structure Pending where
  fileTime : Int
  since : Rat
deriving DecidableEq

structure Watcher where
  /-- How long a file has to be quiet, in seconds. -/
  window : Double
  pending : Option Pending := none
  /-- The time of the file at the last change that was reported. -/
  reported : Option Int := none
deriving DecidableEq

namespace Watcher

/-- A watcher whose window is given in thousandths of a second. -/
def ofMillis (millis : Int) : Except Fault Watcher := do
  let window ← Double.seconds millis
  return { window := window }

/-- When the file was first seen to have the time `m`, as far as the watcher knows at `now`. -/
def firstSeen (w : Watcher) (m : Int) (now : Rat) : Rat :=
  match w.pending with
  | some p => if p.fileTime = m then p.since else now
  | none => now

/-- The time `m` is not the one that is pending. -/
def isNew (w : Watcher) (m : Int) : Bool :=
  match w.pending with
  | some p => p.fileTime != m
  | none => true

/-- A whole window has passed between two moments, as far as doubles tell. -/
def hasPassed (window : Double) (since now : Rat) : Bool :=
  !(Number.ofRat (now - since)).isBelow window.toRat

/-- One look at the file at the time `now`: whether it has changed since it was loaded, and the
time it shows, if it is there. The answer tells whether a change is reported. -/
def poll (w : Watcher) (stale : Bool) (fileTime : Option Int) (now : Rat) : Watcher × Bool :=
  match stale, fileTime with
  | false, _ => ({ w with pending := none }, false)
  | true, none => ({ w with pending := none }, false)
  | true, some m =>
    if w.reported = some m then (w, false)
    else
      let since := w.firstSeen m now
      let waiting := { w with pending := some ⟨m, since⟩ }
      if w.isNew m ∧ 0 < w.window.toRat then (waiting, false)
      else if hasPassed w.window since now then
        ({ w with pending := none, reported := some m }, true)
      else (waiting, false)

end Watcher

end Roadmap
