import Roadmap.Calendar.Date

/-!
# Undo and redo

A history keeps the actions that can be undone and those that can be redone. It is a value: every
operation gives a new one. Recording an action drops what could be redone, and keeps no more than
`limit` actions, the latest ones.
-/

namespace Roadmap

/-- The start and the duration of a task at one time. -/
structure Placement where
  start : Date
  duration : Int
deriving DecidableEq

inductive ActionKind where
  | move
  | resize
  | edit
deriving DecidableEq, Repr

def ActionKind.name : ActionKind → String
  | move => "task_move"
  | resize => "task_resize"
  | edit => "task_edit"

/-- What was done to a task: the line that held it, and its placement before and after. -/
structure Action where
  kind : ActionKind
  task : String
  line : Int
  before : Placement
  after : Placement
deriving DecidableEq

/-- Both lists end with the action that is next in turn. -/
structure History where
  undoable : List Action := []
  redoable : List Action := []
  limit : Int := 50
deriving DecidableEq

namespace History

/-- The actions that are kept of a list: the last `limit` ones. A limit of zero keeps all, and a
negative one drops as many from the front. -/
def retain (limit : Int) (actions : List Action) : List Action :=
  if 0 < limit then actions.drop (actions.length - limit.toNat) else actions.drop limit.natAbs

def canUndo (h : History) : Bool := !h.undoable.isEmpty

def canRedo (h : History) : Bool := !h.redoable.isEmpty

/-- Records an action. -/
def push (h : History) (a : Action) : History :=
  { h with undoable := retain h.limit (h.undoable ++ [a]), redoable := [] }

/-- Takes back the last action, if there is one. -/
def undo (h : History) : History × Option Action :=
  match h.undoable.getLast? with
  | none => (h, none)
  | some a =>
    ({ h with undoable := h.undoable.dropLast, redoable := h.redoable ++ [a] }, some a)

/-- Repeats the action that was last taken back, if there is one. -/
def redo (h : History) : History × Option Action :=
  match h.redoable.getLast? with
  | none => (h, none)
  | some a =>
    ({ h with undoable := h.undoable ++ [a], redoable := h.redoable.dropLast }, some a)

/-- Forgets all actions. -/
def clear (h : History) : History := { h with undoable := [], redoable := [] }

end History

end Roadmap
