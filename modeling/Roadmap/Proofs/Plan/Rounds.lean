import Roadmap.Proofs.Plan.Pushed
import Roadmap.Proofs.Plan.Untouched

/-!
# Pushing ends

Tasks may refer to each other in circles, to themselves, to one task many times and to tasks that do
not exist, and a task may be pushed along many paths. Still the list of pushes is worked off. A push
is only put on the list for a task that has moved later, and the days by which tasks can still move
later are bounded (`slack`). So each round takes one off the sum of these days and the pushes on the
list (`load_round`), and there are no more rounds than that (`iterate_round`).

What a run leaves behind holds of circles as well. A task is moved to later days of its duration or
not at all (`Postponed`), the dragged one is on every path and so is never moved, and only the
sources of pushes are waited for, which are affected by the drag.
-/

namespace Roadmap.Plan

/-! ## Rounds -/

/-- One round: a push is taken off the list, and those that follow from it are put on. -/
def round : List Task × List Push → List Task × List Push
  | (tasks, []) => (tasks, [])
  | (tasks, p :: rest) =>
    match tasks[p.source]? with
    | none => (tasks, rest)
    | some source => (p.apply source tasks, p.next source tasks ++ rest)

/-- The days by which tasks can still move later, and the pushes on the list. -/
def load (s : List Task × List Push) : Nat := slack s.1 + s.2.length

theorem push_round (tasks : List Task) (stack : List Push) :
    push (round (tasks, stack)).1 (round (tasks, stack)).2 = push tasks stack := by
  cases stack with
  | nil => rfl
  | cons p rest =>
      rw [push, round]
      cases tasks[p.source]? with
      | none => rfl
      | some source => rfl

theorem load_round (tasks : List Task) (p : Push) (rest : List Push) :
    load (round (tasks, p :: rest)) < load (tasks, p :: rest) := by
  rw [round]
  cases tasks[p.source]? with
  | none => exact Nat.lt_succ_self _
  | some source =>
      have hslack := slack_apply p source tasks
      simp only [load, List.length_append, List.length_cons]
      omega

theorem iterate_round_nil (tasks : List Task) (n : Nat) :
    round^[n] (tasks, []) = (push tasks [], []) := by
  rw [push]
  exact Function.iterate_fixed rfl n

/-- After as many rounds as that there are no pushes left. -/
theorem iterate_round {tasks : List Task} {stack : List Push} {n : Nat}
    (h : load (tasks, stack) ≤ n) : round^[n] (tasks, stack) = (push tasks stack, []) := by
  induction n generalizing tasks stack with
  | zero =>
      obtain rfl : stack = [] := List.eq_nil_of_length_eq_zero (Nat.le_zero.mp (Nat.le_of_add_left_le h))
      exact iterate_round_nil tasks 0
  | succ n ih =>
      cases stack with
      | nil => exact iterate_round_nil tasks (n + 1)
      | cons p rest =>
          have hload := Nat.le_of_lt_succ ((load_round tasks p rest).trans_le h)
          rw [Function.iterate_succ_apply, ← push_round tasks (p :: rest)]
          exact ih hload

/-! ## What a drag leaves behind -/

/-- The task as it was, or on the days of its duration from a later start on. -/
def Task.Delayed (t t' : Task) : Prop := t' = t ∨ t.start < t'.start ∧ t' = t.startAt t'.start

/-- A push delays tasks, if it moves them at all. -/
theorem delayed_apply {tasks later : List Task} (h : List.Forall₂ Task.Delayed tasks later) (p : Push)
    (source : Task) : List.Forall₂ Task.Delayed tasks (p.apply source later) := by
  rw [Push.apply, List.forall₂_map_right_iff]
  refine h.imp fun t t' ht => ?_
  split
  · next hmoves =>
    have hlt : t'.start < source.finish := by
      simp only [Push.moves, Bool.and_eq_true, decide_eq_true_eq] at hmoves
      exact hmoves.2
    rcases ht with rfl | ⟨hle, heq⟩
    · exact .inr ⟨hlt, rfl⟩
    · refine .inr ⟨hle.trans hlt, ?_⟩
      rw [heq]
      rfl
  · exact ht

section

variable {tasks : List Task} {x : Nat}
  (hindex : ∀ (i : Nat) (t : Task), tasks[i]? = some t → t.index = i)

include hindex

theorem postponed_pushDependents : Postponed tasks x (pushDependents tasks x) := by
  have hdelayed : List.Forall₂ Task.Delayed tasks (pushDependents tasks x) :=
    push_induction (P := List.Forall₂ Task.Delayed tasks)
      (fun _ p source h => delayed_apply h p source)
      (List.forall₂_same.mpr fun t _ => .inl rfl) _
  refine ⟨hdelayed.length_eq.symm, push_getElem? hindex fun q hq => ?_, fun {i t t'} ht ht' => ?_⟩
  · rw [List.mem_singleton.mp hq]
    exact List.mem_singleton_self x
  · obtain ⟨hi, rfl⟩ := List.getElem?_eq_some_iff.mp ht
    obtain ⟨hi', rfl⟩ := List.getElem?_eq_some_iff.mp ht'
    exact hdelayed.get hi hi'

omit hindex in
/-- An affected task depends on the dragged one, through others or not. -/
theorem Affected.transGen (hx : x < tasks.length) {i : Nat} (h : Affected tasks x i) :
    i = x ∨ Relation.TransGen (DependsOn tasks) i x := by
  refine h.least (q := fun i => i = x ∨ Relation.TransGen (DependsOn tasks) i x) (.inl rfl)
    fun {j k t} hj ht hnamed => .inr ?_
  rcases hj with rfl | hj
  · exact .single ⟨t, ht, Task.mem_dependsOn.mpr ⟨hx, hnamed⟩⟩
  · obtain ⟨u, hu⟩ : ∃ u, tasks[j]? = some u := by
      obtain ⟨_, ⟨u, hu, -⟩, -⟩ := Relation.TransGen.head'_iff.mp hj
      exact ⟨u, hu⟩
    have hlt := (List.getElem?_eq_some_iff.mp hu).1
    exact hj.head ⟨t, ht, Task.mem_dependsOn.mpr ⟨hlt, hnamed⟩⟩

/-- What has moved, depends on the dragged task. -/
theorem transGen_of_pushed {i : Nat} (hi : (pushDependents tasks x)[i]? ≠ tasks[i]?) :
    Relation.TransGen (DependsOn tasks) i x := by
  have hpost := postponed_pushDependents hindex (x := x)
  -- nobody is pushed by a task that does not exist
  have hx : x < tasks.length := by
    by_contra hx
    have hnone := List.getElem?_eq_none (Nat.not_lt.mp hx)
    refine hi ?_
    rw [pushDependents, push, hnone]
    rw [push]
  have haffected : Affected tasks x i := by
    by_contra hfree
    refine hi (push_untouched (Agree.refl tasks) hindex (x := x) (fun q hq => ?_) hfree)
    rw [List.mem_singleton.mp hq]
    exact .self
  refine (haffected.transGen hx).resolve_left ?_
  rintro rfl
  exact hi hpost.self

end

/-- Whatever tasks refer to, pushing ends: no push is left after one round, and one more for each
day by which a task could still move later. The dragged task stays, and each other one is as it was
or takes up the days of its duration from a later start on. Only tasks that depend on the dragged
one, through others or not, have moved. -/
theorem pushDependents_ends {tasks : List Task} (x : Nat)
    (hindex : ∀ (i : Nat) (t : Task), tasks[i]? = some t → t.index = i) :
    round^[slack tasks + 1] (tasks, [⟨x, [x]⟩]) = (pushDependents tasks x, [])
      ∧ Postponed tasks x (pushDependents tasks x)
      ∧ ∀ i, (pushDependents tasks x)[i]? ≠ tasks[i]? →
        Relation.TransGen (DependsOn tasks) i x :=
  ⟨iterate_round (Nat.le_refl _), postponed_pushDependents hindex,
    fun _ hi => transGen_of_pushed hindex hi⟩

/-- Digging waits for the stone, the stone for the concrete, and the concrete for the digging, for
that once more and for itself. Others that are waited for do not exist. -/
def knot : List Task :=
  let lines : List Outline.Task := [
    { level := 1, title := "Digging", duration := 6, dependencies := [3] },
    { level := 1, title := "Concrete", duration := 2, dependencies := [1, 2, 1] },
    { level := 1, title := "Stone", duration := 1, dependencies := [9, 2, -1] },
    { level := 1, title := "Lamps", duration := 1, dependencies := [0, 5] }]
  lines.zipIdx.map fun (t, i) => Task.ofOutline t "project-0" i ⟨738500, by decide, by decide⟩

theorem pushDependents_ends_knot :
    (∀ (i : Nat) (t : Task), knot[i]? = some t → t.index = i)
      ∧ Relation.TransGen (DependsOn knot) 0 0
      ∧ (pushDependents knot 0).map (fun t => (t.start.ordinal, t.finish.ordinal))
        = [(738500, 738506), (738506, 738508), (738508, 738509), (738500, 738501)]
      ∧ round^[slack knot + 1] (knot, [⟨0, [0]⟩]) = (pushDependents knot 0, [])
      ∧ Postponed knot 0 (pushDependents knot 0) := by
  have hindex : ∀ (i : Nat) (t : Task), knot[i]? = some t → t.index = i := by
    have hall : ∀ i < 4, ∀ t ∈ knot[i]?, t.index = i := by decide
    exact fun i t ht => hall i (List.getElem?_eq_some_iff.mp ht).1 t ht
  obtain ⟨hend, hpost, hmoved⟩ := pushDependents_ends 0 hindex
  have hdays : (pushDependents knot 0).map (fun t => (t.start.ordinal, t.finish.ordinal))
      = [(738500, 738506), (738506, 738508), (738508, 738509), (738500, 738501)] := by cbv
  have hstone : (pushDependents knot 0)[2]? ≠ knot[2]? := by
    intro heq
    have hstart : (pushDependents knot 0)[2]?.map (·.start.ordinal) = some 738508 := by cbv
    rw [heq] at hstart
    exact absurd hstart (by decide)
  exact ⟨hindex, (hmoved 2 hstone).head ⟨_, rfl, by decide⟩, hdays, hend, hpost⟩

end Roadmap.Plan
