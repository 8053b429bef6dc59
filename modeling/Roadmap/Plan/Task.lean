import Roadmap.Outline.Task

/-!
# Scheduled tasks

A task of a plan is a task of the outline with its place: an id, its position in the project, the
days it takes up and its links to the tasks above and below it. A task takes up the days from
`start` up to, but without, `finish`.

A project owns its tasks as one list in the order of their lines. Links are indices into that
list, so a project is plain data that can be copied and compared.
-/

namespace Roadmap

namespace Plan

structure Task extends Outline.Task where
  id : String
  projectId : String
  /-- The place in the project's list of tasks. -/
  index : Nat
  start : Date
  finish : Date
  parent : Option Nat := none
  children : List Nat := []
deriving DecidableEq

structure Project where
  id : String
  name : String
  icon : String
  note : Option String
  line : Int
  start : Date
  finish : Date
  tasks : List Task
deriving DecidableEq

namespace Task

/-- The number by which other tasks refer to this one. -/
def position (t : Task) : Int := t.index + 1

/-- The task stays at the day that its line names. -/
def pinned (t : Task) : Bool := t.explicitStart.isSome

def hasChildren (t : Task) : Bool := !t.children.isEmpty

end Task

/-- The id of the project at a place in the outline. -/
def projectId (index : Nat) : String := "project-" ++ toString index

/-- The id of the task at a place in a project. -/
def taskId (projectId : String) (index : Nat) : String := projectId ++ "-task-" ++ toString index

namespace Project

/-- The index that a position refers to, if there is such a task. -/
def indexAt? (size : Nat) (position : Int) : Option Nat :=
  if 1 ≤ position ∧ position ≤ size then some (position - 1).toNat else none

/-- The task that a position refers to. -/
def taskAt? (p : Project) (position : Int) : Option Task :=
  (indexAt? p.tasks.length position).bind (p.tasks[·]?)

def find? (p : Project) (id : String) : Option Task := p.tasks.find? (·.id == id)

/-- The tasks that have no parent, in order. -/
def roots (p : Project) : List Task := p.tasks.filter (·.parent.isNone)

def childrenOf (p : Project) (t : Task) : List Task := t.children.filterMap (p.tasks[·]?)

def parentOf? (p : Project) (t : Task) : Option Task := t.parent.bind (p.tasks[·]?)

/-- The bounds of the project: the first start and the last finish of its tasks, or `fallback` if
it has none. -/
def withBounds (p : Project) (fallback : Date) : Project :=
  { p with
    start := Date.earliest fallback (p.tasks.map (·.start))
    finish := Date.latest fallback (p.tasks.map (·.finish)) }

end Project

/-- A task that starts before a task it depends on has finished. -/
structure Conflict where
  task : String
  message : String
  dependency : String
deriving DecidableEq, Repr

end Plan

/-- A scheduled outline. -/
structure Plan where
  projects : List Plan.Project
  conflicts : List Plan.Conflict
  /-- The last finish of a project, or the start of the outline if that is later. -/
  finish : Date
deriving DecidableEq

end Roadmap
