import Roadmap.Plan.Forest

/-!
# Fitting parents to their children

A parent takes up exactly the days of its children, and its duration is their number, at least 1.
A child always follows its parent, so going through the list from the end settles the children
before the parent.
-/

namespace Roadmap.Plan

/-- A parent fitted to its children. -/
def Task.cover (t : Task) (children : List Task) : Task :=
  let start := Date.earliest t.start (children.map (·.start))
  let finish := Date.latest t.finish (children.map (·.finish))
  { t with start := start, finish := finish, duration := max 1 (start.daysTo finish) }

/-- Fits the task at an index, if it has children. -/
def fitAt (i : Nat) (tasks : List Task) : List Task :=
  match tasks[i]? with
  | some t =>
    if t.hasChildren then tasks.set i (t.cover (t.children.filterMap (tasks[·]?))) else tasks
  | none => tasks

/-- Fits all parents, the last first. -/
def reconcile (tasks : List Task) : List Task := (List.range tasks.length).foldr fitAt tasks

end Roadmap.Plan
