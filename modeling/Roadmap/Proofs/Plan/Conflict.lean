import Roadmap.Proofs.Plan.Settled

/-!
# Conflicts and their causes

A conflict is a task that starts before one that it depends on has finished. The conflicts of a plan
are listed by the days that the plan ends up with, so they say nothing yet about how a task came to
start too early. `conflict_cause` does: the task was put there by its pin, or fitting moved one of
the two because it has children, or the dependency requires the task in turn. So the only
dependencies that placing leaves out are those that close a cycle.

The argument is about the moment at which the task was placed (`Recursion.Moment`): the dependency
was looked up before, so it was placed, and then the task starts after it, or it was still open, and
then it was waiting for the task.
-/

namespace Roadmap.Plan

/-! ## The list of conflicts -/

/-- The tasks that a task depends on, in the order it names them. -/
def Task.dependencyTasks (t : Task) (tasks : List Task) : List Task :=
  (t.dependsOn tasks).filterMap (tasks[·]?)

/-- The report that `t` starts before `s` ends. -/
def Task.conflictWith (t s : Task) : Conflict where
  task := t.id
  message := "\"" ++ t.title ++ "\" starts before \"" ++ s.title ++ "\" ends"
  dependency := s.id

theorem conflicts_eq (p : Project) :
    p.conflicts = p.tasks.flatMap fun t =>
      ((t.dependencyTasks p.tasks).filter (t.start < ·.finish)).map t.conflictWith := by
  rw [Project.conflicts]
  congr 1
  funext t
  rw [Task.dependencyTasks, Task.dependsOn_eq]
  induction t.dependencies with
  | nil => rfl
  | cons position positions ih =>
      rw [List.filterMap_cons, ih, List.filterMap_cons, Project.taskAt?]
      cases hi : Project.indexAt? p.tasks.length position with
      | none => rfl
      | some i =>
          rw [List.filterMap_cons, Option.bind_some]
          cases hs : p.tasks[i]? with
          | none => rfl
          | some s =>
              rw [Option.bind_some, conflict?, List.filter_cons]
              by_cases h : t.start < s.finish
              · rw [if_pos h, if_pos (by simpa using h)]
                rfl
              · rw [if_neg h, if_neg (by simpa using h)]

/-! ## The cause of a conflict -/

/-- A task that is free and on which fitting has no effect starts after whatever it depends on,
unless that leads back to the task. -/
theorem start_or_reaches {tasks : List Task} (hl : Linked tasks) (origin : Date) {i j : Nat}
    {t s : Task} (ht : (placeTasks tasks origin)[i]? = some t)
    (hs : (placeTasks tasks origin)[j]? = some s) (hfree : t.explicitStart = none)
    (hj : j ∈ t.dependsOn tasks) : s.finish ≤ t.start ∨ Reaches tasks j i := by
  obtain ⟨t₀, ht₀⟩ := exists_of_placeTasks_getElem? ht
  obtain ⟨s₀, hs₀⟩ := exists_of_placeTasks_getElem? hs
  obtain ⟨m, hm, htm⟩ := placeTasks_getElem? hl origin ht₀
  obtain ⟨m', hm', hsm⟩ := placeTasks_getElem? hl origin hs₀
  obtain rfl := Option.some.inj (htm.symm.trans ht)
  obtain rfl := Option.some.inj (hsm.symm.trans hs)
  have hlook : j ∈ lookups tasks i := by
    have hpin : t₀.pinned = false := by
      rw [Task.pinned, show t₀.explicitStart = none from hfree]
      rfl
    rw [lookups, ht₀]
    simp only [hpin, Bool.false_eq_true, if_false, List.mem_append]
    exact .inl (.inl hj)
  obtain ⟨s', hs', hmark⟩ := hm'.mark
  obtain rfl := Option.some.inj (hs₀.symm.trans hs')
  have hjm : j < m.length := hm.length ▸ (List.getElem?_eq_some_iff.mp hs₀).1
  have hget := List.getElem?_eq_getElem hjm
  cases hmj : m[j] with
  | unseen => exact absurd (hget.trans (congrArg some hmj)) (hm.looked j hlook)
  | opened => exact .inr (hm.waiting j (hget.trans (congrArg some hmj)))
  | placed span =>
      have hplaced := hget.trans (congrArg some hmj)
      -- what was placed then is still so in the end
      have hspan := hm.kept j span hplaced
      rw [hmark] at hspan
      obtain rfl := Mark.placed.inj (Option.some.inj hspan)
      exact .inl (Recursion.le_startDay hfree hj hplaced origin)

theorem conflict_cause {o : Outline} {p : Project} (hp : p ∈ (ofOutline o).projects) {i j : Nat}
    {t s : Task} (ht : p.tasks[i]? = some t) (hs : p.tasks[j]? = some s)
    (hj : j ∈ t.dependsOn p.tasks) (hlt : t.start < s.finish) :
    t.explicitStart.isSome ∨ t.hasChildren ∨ s.hasChildren ∨ Reaches p.tasks j i := by
  obtain ⟨⟨q, k⟩, -, rfl⟩ := List.mem_map.mp hp
  change (schedule q.tasks _ o.start)[i]? = some t at ht
  change (schedule q.tasks _ o.start)[j]? = some s at hs
  change j ∈ t.dependsOn (schedule q.tasks _ o.start) at hj
  change _ ∨ _ ∨ _ ∨ Reaches (schedule q.tasks _ o.start) j i
  rw [schedule_eq] at ht hs hj ⊢
  generalize hlinked : link (Task.allOfOutline q.tasks (projectId k) o.start) = linked at *
  have hl : Linked linked := hlinked ▸ linked_link _
  have hplace := agree_placeTasks hl o.start
  have hagree := (agree_reconcile (placeTasks linked o.start)).trans hplace
  cases htc : t.hasChildren with
  | true => exact .inr (.inl rfl)
  | false =>
      cases hsc : s.hasChildren with
      | true => exact .inr (.inr (.inl rfl))
      | false =>
          cases hfree : t.explicitStart with
          | some d => exact .inl rfl
          | none =>
              have hl' := hl.of_agree hplace
              rw [hagree.dependsOn (t := t) rfl] at hj
              rcases start_or_reaches hl o.start (reconcile_leaf hl' ht htc)
                (reconcile_leaf hl' hs hsc) hfree hj with hle | hreach
              · exact absurd hlt (not_lt.mpr hle)
              · exact .inr (.inr (.inr (hagree.reaches.mpr hreach)))

/-- The conflicts of a plan are the dependencies that end after the task that names them starts, in
the order of the projects, of their tasks and of what these name; and each has a cause. -/
theorem conflicts_ofOutline (o : Outline) :
    ((ofOutline o).conflicts = (ofOutline o).projects.flatMap fun p => p.tasks.flatMap fun t =>
        ((t.dependencyTasks p.tasks).filter (t.start < ·.finish)).map t.conflictWith)
      ∧ ∀ p ∈ (ofOutline o).projects, ∀ (i j : Nat) (t s : Task), p.tasks[i]? = some t →
        p.tasks[j]? = some s → j ∈ t.dependsOn p.tasks → t.start < s.finish →
        t.explicitStart.isSome ∨ t.hasChildren ∨ s.hasChildren ∨ Reaches p.tasks j i := by
  refine ⟨?_, fun p hp i j t s ht hs hj hlt => conflict_cause hp ht hs hj hlt⟩
  show (ofOutline o).projects.flatMap Project.conflicts = _
  exact congrArg (List.flatMap · (ofOutline o).projects) (funext conflicts_eq)

theorem conflicts_ofOutline_hall :
    ∃ p ∈ (ofOutline hall).projects, ∃ t s : Task, p.tasks[5]? = some t ∧ p.tasks[4]? = some s
      ∧ 4 ∈ t.dependsOn p.tasks ∧ t.start < s.finish ∧ Reaches p.tasks 4 5 := by
  have hfacts : (ofOutline hall).projects.map (fun p : Project => (p.tasks[5]?.map fun t : Task =>
      (t.dependsOn p.tasks, t.start.ordinal, t.explicitStart, t.hasChildren),
        p.tasks[4]?.map fun s : Task => (s.finish.ordinal, s.hasChildren)))
      = [(some ([4], 738000, none, false), some (738003, false))] := by cbv
  obtain ⟨p, hmem, hp⟩ := List.mem_map.mp (hfacts ▸ List.mem_cons_self)
  rw [Prod.mk.injEq] at hp
  obtain ⟨ht, hs⟩ := hp
  obtain ⟨t, ht, htfacts⟩ := Option.map_eq_some_iff.mp ht
  obtain ⟨s, hs, hsfacts⟩ := Option.map_eq_some_iff.mp hs
  simp only [Prod.mk.injEq] at htfacts hsfacts
  obtain ⟨hdeps, hstart, hfree, htleaf⟩ := htfacts
  obtain ⟨hfinish, hsleaf⟩ := hsfacts
  have hj : 4 ∈ t.dependsOn p.tasks := hdeps ▸ List.mem_cons_self
  have hlt : t.start < s.finish := by
    show t.start.ordinal < s.finish.ordinal
    omega
  refine ⟨p, hmem, t, s, ht, hs, hj, hlt, ?_⟩
  rcases (conflicts_ofOutline hall).2 p hmem 5 4 t s ht hs hj hlt with h | h | h | h
  · rw [hfree] at h
    cases h
  · rw [htleaf] at h
    cases h
  · rw [hsleaf] at h
    cases h
  · exact h
end Roadmap.Plan
