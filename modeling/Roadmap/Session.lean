import Roadmap.History
import Roadmap.Outline.EditCall
import Roadmap.Plan.Drag
import Roadmap.Session.Disk

/-!
# Editing sessions

A session holds what it last loaded from its file: the text, the outline and the plan. Every edit
is written to the file at once and the session is then rebuilt from what the file says, so text,
outline and plan always belong together.

The operations change the session and the disk, and may stop with a fault. What they did before a
fault stays done: the state after a failure is part of their meaning.
-/

namespace Roadmap

/-- What a session has loaded; `time` is the time of the file it came from, and `stamp` says when
that was. -/
structure Loaded where
  text : String
  time : Int
  outline : Outline
  plan : Plan
  stamp : String
deriving DecidableEq

structure Session where
  /-- The day that counts as today for the whole session. -/
  today : Date
  /-- How the session notes down when it loads. -/
  stamp : String := ""
  path : Option String := none
  loaded : Option Loaded := none
  history : History := {}
  /-- The number of refreshes that were asked for and not yet done. -/
  waiting : Nat := 0
deriving DecidableEq

/-- A session and the file it works on. -/
structure Desk where
  session : Session
  disk : Disk := {}
deriving DecidableEq

/-- An operation on a desk. A fault leaves the desk as it is at that point. -/
abbrev Work (α : Type) := ExceptT Fault (StateM Desk) α

namespace Work

/-- Does the work and gives its outcome and the desk after it. -/
def on (desk : Desk) (work : Work α) : Except Fault α × Desk := (ExceptT.run work).run desk

/-- The work with its fault, if it has one, as an outcome. -/
def attempt (work : Work α) : Work (Except Fault α) :=
  ExceptT.mk ((ExceptT.run work).map Except.ok)

end Work

namespace Session

/-- The text that edits start from. -/
def text (s : Session) : String := (s.loaded.map (·.text)).getD ""

def projects (s : Session) : List Plan.Project := (s.loaded.map (·.plan.projects)).getD []

def conflicts (s : Session) : List Plan.Conflict := (s.loaded.map (·.plan.conflicts)).getD []

/-- The time of the file when it was last loaded. -/
def time (s : Session) : Int := (s.loaded.map (·.time)).getD 0

/-- A task with a given id, and its project. -/
def task? (s : Session) (id : String) : Option (Plan.Task × Plan.Project) :=
  s.projects.findSome? fun p => (p.find? id).map fun t => (t, p)

def project? (s : Session) (id : String) : Option Plan.Project := s.projects.find? (·.id == id)

/-- The task on a line of the text. -/
def taskOnLine? (s : Session) (line : Int) : Option Plan.Task :=
  s.projects.findSome? fun p => p.tasks.find? (·.line == line)

/-- The outcome of a drag that is only tried out. -/
def preview (s : Session) (d : Plan.Drag) : Plan.Dragged := Plan.drag d s.projects

end Session

namespace Desk

/-- The file has changed since it was loaded. -/
def isStale (d : Desk) : Bool :=
  d.session.path.isSome && match d.disk.time? with
    | some time => d.session.time < time
    | none => false

end Desk

namespace Session

/-! ## Loading and writing -/

def modifySession (f : Session → Session) : Work Unit :=
  modify fun d => { d with session := f d.session }

/-- The path of the file. -/
def requirePath : Work String := do
  match (← get).session.path with
  | some path => return path
  | none => throw .noFile

/-- Reads the file and rebuilds outline and plan from it. -/
def reload : Work Unit := do
  let path ← requirePath
  let desk ← get
  let (text, time) ← desk.disk.read path
  let outline ← Outline.read text desk.session.today
  modifySession fun s =>
    { s with loaded := some ⟨text, time, outline, Plan.ofOutline outline, s.stamp⟩ }

/-- Changes the disk at the path of the file. -/
def changeDisk (f : Disk → String → Except Fault Disk) : Work Unit := do
  let path ← requirePath
  let disk ← f (← get).disk path
  modify fun d => { d with disk := disk }

/-- Writes a text to the file. -/
def save (text : String) : Work Unit := changeDisk fun disk path => disk.write path text

/-- Writes a text and rebuilds from it. -/
def store (text : String) : Work Unit := do
  save text
  reload

/-- Starts the session on a file. One that does not exist is written first, with a starter
outline and the directories on the way, if `create` allows it. -/
def start (path : String) (create : Bool) : Work Unit := do
  modifySession fun s => { s with path := some path }
  let desk ← get
  if desk.disk.time?.isNone then
    if create then
      changeDisk Disk.makeWay
      save (Outline.starter desk.session.today)
    else throw (.fileMissing path)
  reload

/-- Reloads if the file has changed, and says whether it has. -/
def refresh : Work Bool := do
  if (← get).isStale then
    reload
    return true
  else return false

/-- Asks for a refresh later on. -/
def askRefresh : Work Unit := modifySession fun s => { s with waiting := s.waiting + 1 }

/-- Refreshes `n` times, passing over failures. -/
def refreshTimes : Nat → Work Unit
  | 0 => return ()
  | n + 1 => do
    let _ ← refresh.attempt
    refreshTimes n

/-- Does the refreshes that were asked for. -/
def drain : Work Unit := do
  let n := (← get).session.waiting
  modifySession fun s => { s with waiting := 0 }
  refreshTimes n

/-! ## Edits -/

/-- The text with the durations of some tasks written on their lines. -/
def writeDurations (text : String) : List Plan.Task → Except Fault String
  | [] => .ok text
  | t :: rest => do
    let text ← Outline.patchLine text t.line [.duration t.duration]
    writeDurations text rest

/-- The text of a session after a drag: the new day and duration on the line of the dragged task
`t`, and the durations of its ancestors on theirs. -/
def draggedText (text : String) (after : Plan.Dragged) (t : Plan.Task) : Except Fault String := do
  let text ← Outline.patchLine text t.line [.start (some t.start), .duration t.duration]
  match after.projects.find? (·.id == t.projectId) with
  | some p => writeDurations text (p.ancestors t)
  | none => return text

/-- Drags a task and writes the outcome. The answer is the task before and after the drag, or
nothing if there is no such task. -/
def applyDrag (d : Plan.Drag) : Work (Option (Plan.Task × Plan.Task)) := do
  let s := (← get).session
  match s.task? d.task with
  | none => return none
  | some (before, _) =>
    let after := s.preview d
    match after.task with
    | none => return none
    | some t =>
      store (← draggedText s.text after t)
      return some (before, t)

def record (a : Action) : Work Unit := modifySession fun s => { s with history := s.history.push a }

def placement (t : Plan.Task) : Placement := ⟨t.start, t.duration⟩

/-- Drags a task for good and records it. The answer is the task in the rebuilt plan. -/
def commit (d : Plan.Drag) : Work (Option Plan.Task) := do
  match ← applyDrag d with
  | none => return none
  | some (before, after) =>
    record {
      kind := if before.duration = after.duration then .move else .resize
      task := d.task
      line := before.line
      before := placement before
      after := placement after }
    return (← get).session.taskOnLine? before.line

/-- Changes fields of a task. A change of its days is recorded. -/
def update (id : String) (changes : List Outline.Change) : Work (Option Plan.Task) := do
  let s := (← get).session
  match s.task? id with
  | none => return none
  | some (before, _) =>
    store (← Outline.patchLine s.text before.line changes)
    match (← get).session.taskOnLine? before.line with
    | none => return none
    | some after =>
      if changes.any (·.isDated) then
        record {
          kind := .edit
          task := id
          line := before.line
          before := placement before
          after := placement after }
      return some after

/-- Rearranges the lines, and says whether that changed anything. Lines may then have other
numbers, so nothing can be undone any more. -/
def edit (e : Outline.Edit) : Work Bool := do
  let text := (← get).session.text
  let edited := e.apply text
  if edited = text then return false
  store edited
  modifySession fun s => { s with history := s.history.clear }
  return true

/-- Rearranges the lines as a call asks, and says whether that changed anything. -/
def call (c : Outline.EditCall) : Work Bool := do
  match ← c.resolve (Text.linesOf (← get).session.text.toList) with
  | none => return false
  | some e => edit e

/-! ## Undo and redo -/

/-- Puts the task of an action at a placement, if its line still holds a task. -/
def restore (a : Action) (p : Placement) : Work Unit := do
  match (← get).session.taskOnLine? a.line with
  | none => return ()
  | some t =>
    let _ ← applyDrag { task := t.id, start := p.start, duration := some p.duration }

/-- Takes back the last action and answers it. -/
def undo : Work (Option Action) := do
  let (history, action) := (← get).session.history.undo
  modifySession fun s => { s with history := history }
  match action with
  | none => return none
  | some a =>
    restore a a.before
    return some a

/-- Repeats the action that was taken back last and answers it. -/
def redo : Work (Option Action) := do
  let (history, action) := (← get).session.history.redo
  modifySession fun s => { s with history := history }
  match action with
  | none => return none
  | some a =>
    restore a a.after
    return some a

end Session

end Roadmap
