import Roadmap.Proofs.Plan.Nesting
import Roadmap.Service.View

/-!
# Nested answers

The answer about a project shows its tasks as a forest of objects. Read with each object before the
ones in its list of children, it shows them in the order of a walk (`entries_treesJson`), and that is
the order of the project. With it come the other ways in which tasks find each other: links to
parents and children, and the chain of ancestors.
-/

namespace Roadmap

namespace Json

mutual

/-- The fields of an object without its children, and then those of the children. -/
def entries : Json → List (List (String × Json))
  | object fields => fields.filter (·.1 != "children") :: fieldsEntries fields
  | list items => itemsEntries items
  | _ => []

def itemsEntries : List Json → List (List (String × Json))
  | [] => []
  | item :: items => entries item ++ itemsEntries items

def fieldEntries : String × Json → List (List (String × Json))
  | (key, value) => if key = "children" then entries value else []

def fieldsEntries : List (String × Json) → List (List (String × Json))
  | [] => []
  | field :: fields => fieldEntries field ++ fieldsEntries fields

end

theorem fieldsEntries_append (fields more : List (String × Json)) :
    fieldsEntries (fields ++ more) = fieldsEntries fields ++ fieldsEntries more := by
  induction fields with
  | nil => rfl
  | cons field fields ih =>
      rw [List.cons_append, fieldsEntries, fieldsEntries, ih, List.append_assoc]

end Json

namespace Service

open Json (entries itemsEntries fieldEntries fieldsEntries)

/-- No field of a task by itself lists children. -/
theorem filter_taskFields (t : Plan.Task) :
    (taskFields t).filter (·.1 != "children") = taskFields t := rfl

theorem fieldsEntries_taskFields (t : Plan.Task) : fieldsEntries (taskFields t) = [] := rfl

mutual

theorem entries_treeFields (tree : Plan.Tree) :
    entries (.object (treeFields tree)) = tree.preorder.map taskFields := by
  cases tree with
  | node t children =>
      cases children with
      | nil => rfl
      | cons child children =>
          have hchildren : fieldsEntries
              [("children", .list (.object (treeFields child) :: treesJson children))]
              = (Plan.Tree.preorderAll (child :: children)).map taskFields := by
            rw [fieldsEntries, fieldsEntries, fieldEntries, if_pos rfl, entries, itemsEntries,
              entries_treeFields child, entries_treesJson children, Plan.Tree.preorderAll,
              List.map_append, List.append_nil]
          rw [treeFields, entries, List.filter_append, filter_taskFields,
            Json.fieldsEntries_append, fieldsEntries_taskFields, hchildren, Plan.Tree.preorder]
          rfl

theorem entries_treesJson (trees : List Plan.Tree) :
    itemsEntries (treesJson trees) = (Plan.Tree.preorderAll trees).map taskFields := by
  cases trees with
  | nil => rfl
  | cons tree trees =>
      rw [treesJson, itemsEntries, entries_treeFields tree, entries_treesJson trees,
        Plan.Tree.preorderAll, List.map_append]

end

/-- However tasks are levelled, linking them gives each the nearest task before it of a lower level
for its parent, and to each parent its children in order; the ancestors of a task are all there are,
up to a root. Both the walk and the answer list every task once, in the order of the project. -/
theorem nesting_of_relinked (p : Plan.Project) :
    (∀ i t, p.tasks[i]? = some t → ∃ u, p.relinked.Nests p.tasks i t u)
      ∧ p.relinked.tasks.length = p.tasks.length
      ∧ p.relinked.walk = p.relinked.tasks
      ∧ ((projectJson p.relinked).field? "tasks").map entries
        = some (p.relinked.tasks.map taskFields) := by
  have hwalk : p.relinked.walk = p.relinked.tasks :=
    Plan.Project.walk_of_linked (Plan.linked_link p.tasks)
  refine ⟨fun i t ht => p.nests_relinked ht, Plan.length_link p.tasks, hwalk, ?_⟩
  have hfield : (projectJson p.relinked).field? "tasks"
      = some (.list (treesJson p.relinked.forest)) := rfl
  rw [hfield, Option.map_some, entries, entries_treesJson, ← Plan.Project.walk, hwalk]

def stair (level : Int) (index : Nat) : Plan.Task where
  level := level
  title := "Step"
  duration := 1
  id := Plan.taskId (Plan.projectId 0) index
  projectId := Plan.projectId 0
  index := index
  start := Date.first
  finish := Date.first

/-- Tasks on levels that skip and go below zero. -/
def stairs : Plan.Project where
  id := Plan.projectId 0
  name := "Stairs"
  icon := Outline.defaultIcon
  note := none
  line := 1
  start := Date.first
  finish := Date.first
  tasks := [2, 1, 3, 0, -1, 4, 2].zipIdx.map fun (level, i) => stair level i

/-- The fourth task is no parent of the seventh: the fifth, which is nearer, is on a lower level. -/
theorem nesting_of_relinked_stairs :
    ∃ u, stairs.relinked.tasks[6]? = some u ∧ u.parent = some 4
      ∧ IsGreatest (Plan.Earlier stairs.tasks 6 (·.level < 2)) 4
      ∧ stairs.relinked.Climbs (u :: stairs.relinked.ancestors u)
      ∧ stairs.relinked.walk.map (·.level) = [2, 1, 3, 0, -1, 4, 2] := by
  have ht : stairs.tasks[6]? = some (stair 2 6) := rfl
  obtain ⟨u, hu⟩ := (nesting_of_relinked stairs).1 6 (stair 2 6) ht
  have hparent : stairs.relinked.tasks[6]?.bind (·.parent) = some 4 := by decide
  rw [hu.found, Option.bind_some] at hparent
  refine ⟨u, hu.found, hparent, (hu.parent 4).mp hparent, hu.climbs, ?_⟩
  rw [(nesting_of_relinked stairs).2.2.1]
  decide

end Service

end Roadmap
