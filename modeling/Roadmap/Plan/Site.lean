import Roadmap.Plan.Forest

/-!
# What places a task

A task that names no start of its own is placed by other tasks: those it depends on, the sibling
before it and its parent. The *site* of a task holds these as indices, together with its duration
and its own start, so it is all that is needed to find its days once the others have theirs.

`Site.place` is the rule. A pinned task starts on its own day. Any other starts as early as it can,
not before the start of the outline and not before the tasks it depends on have finished. A task
with a parent also waits for the sibling before it or, if it is the first, for the start of the
parent.
-/

namespace Roadmap.Plan

/-- The days of a task. -/
structure Span where
  start : Date
  finish : Date
deriving DecidableEq

structure Site where
  pinnedAt : Option Date
  duration : Int
  /-- The tasks that this one depends on, in the order they are named. -/
  dependencies : List Nat
  parent : Option Nat
  /-- The sibling before the task. -/
  sibling : Option Nat
deriving DecidableEq

/-- The site of the task at an index. -/
def Task.site (tasks : List Task) (i : Nat) (t : Task) : Site where
  pinnedAt := t.explicitStart
  duration := t.duration
  dependencies := t.dependencies.filterMap (Project.indexAt? tasks.length)
  parent := t.parent
  sibling := previousSibling? tasks i

/-- The sites of linked tasks. -/
def sites (tasks : List Task) : List Site := tasks.zipIdx.map fun (t, i) => t.site tasks i

namespace Site

/-- The tasks that have to be placed before this one. -/
def requires (s : Site) : List Nat :=
  match s.pinnedAt with
  | some _ => []
  | none => s.dependencies ++ s.parent.toList ++ match s.parent with
    | some _ => s.sibling.toList
    | none => []

/-- The day that a parent or the sibling before the task asks for. -/
def nested (s : Site) (placed : Nat → Option Span) : Option Date :=
  match s.parent with
  | none => none
  | some parent =>
    match s.sibling with
    | some sibling => (placed sibling).map (·.finish)
    | none => (placed parent).map (·.start)

/-- The days before which the task cannot start, as far as other tasks have been placed. -/
def bounds (s : Site) (placed : Nat → Option Span) : List Date :=
  s.dependencies.filterMap (fun i => (placed i).map (·.finish)) ++ (s.nested placed).toList

/-- The days of the task; `origin` is the start of the outline. -/
def place (s : Site) (origin : Date) (placed : Nat → Option Span) : Span :=
  let start := s.pinnedAt.getD ((s.bounds placed).foldl max origin)
  ⟨start, start.shift s.duration⟩

end Site

end Roadmap.Plan
