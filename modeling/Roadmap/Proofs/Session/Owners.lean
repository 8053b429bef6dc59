import Roadmap.Proofs.Plan.Untouched
import Roadmap.Session

/-!
# Tasks and their owners

A task is looked up by its id in one project after the other, and the project of a task by the id
that the task names. Both find what they are to find. For ids are made of places: those of a task
are read off its id (`Plan.taskId_injective`), so there are no two tasks, and no two projects, with
one id.

All of this is about seats, and drags leave tasks in their seats (`Plan.Seated.seats_drag`). So it
holds of a plan after any drags if it holds of every plan that an outline has.
-/

namespace Roadmap

namespace Plan

/-! ## Seats after drags -/

theorem Seated.seats_drag {ps : List Project} (h : Seated ps) (d : Drag) :
    (Plan.drag d ps).projects.map Project.seats = ps.map Project.seats := by
  by_cases hknown : ∃ p ∈ ps, ∃ t ∈ p.tasks, t.id = d.task
  · obtain ⟨p, hp, t, ht, hid⟩ := hknown
    obtain ⟨k, hk⟩ := List.getElem?_of_mem hp
    obtain ⟨x, hx⟩ := List.getElem?_of_mem ht
    obtain ⟨hlt, rfl⟩ := List.getElem?_eq_some_iff.mp hk
    have hseats : (ps[k].drag t d).seats = ps[k].seats :=
      Prod.ext rfl (bare_drag (h k _ hk).fitted ht d)
    rw [h.drag_of_known hk hx hid, List.map_set, hseats,
      ← List.getElem_map Project.seats (h := by simpa using hlt)]
    exact List.set_getElem_self _
  · rw [drag_of_unknown fun p hp t ht hid => hknown ⟨p, hp, t, ht, hid⟩]

theorem seats_afterDrags (o : Outline) (ds : List Drag) :
    (afterDrags o ds).map Project.seats = (ofOutline o).projects.map Project.seats := by
  have hrun := afterDrags_induction (o := o)
    (P := fun ps => Seated ps ∧ ps.map Project.seats = (ofOutline o).projects.map Project.seats)
    ⟨seated_ofOutline o, rfl⟩ (fun ps d h => ⟨h.1.drag d, (h.1.seats_drag d).trans h.2⟩) ds
  exact hrun.2

/-! ## Ids by place -/

/-- The project at a place of the plan, and its tasks, have the ids of their places. -/
structure Project.Numbered (p : Project) (k : Nat) : Prop where
  id : p.id = projectId k
  task : ∀ (i : Nat) (t : Task), p.tasks[i]? = some t →
    t.projectId = projectId k ∧ t.id = taskId (projectId k) i

theorem numbered_ofOutline {o : Outline} {k : Nat} {p : Project}
    (hp : (ofOutline o).projects[k]? = some p) : p.Numbered k := by
  rw [projects_getElem?, Option.map_eq_some_iff] at hp
  obtain ⟨p₀, -, rfl⟩ := hp
  refine ⟨rfl, fun i t ht => ?_⟩
  have ht : (schedule p₀.tasks (projectId k) o.start)[i]? = some t := ht
  obtain ⟨t₀, -, hu⟩ := exists_of_schedule_getElem? ht
  exact ⟨congrArg Task.projectId hu, congrArg Task.id hu⟩

theorem Project.Numbered.of_seats {p q : Project} {k : Nat} (h : q.Numbered k)
    (hseats : p.seats = q.seats) : p.Numbered k := by
  refine ⟨(congrArg Prod.fst hseats).trans h.id, fun i t ht => ?_⟩
  obtain ⟨s, hs, hbare⟩ := exists_of_bare (congrArg Prod.snd hseats).symm ht
  have hproject : s.projectId = t.projectId := congrArg (·.projectId) hbare
  have hid : s.id = t.id := congrArg (·.id) hbare
  rw [← hproject, ← hid]
  exact h.task i s hs

theorem numbered_afterDrags {o : Outline} {ds : List Drag} {k : Nat} {p : Project}
    (hp : (afterDrags o ds)[k]? = some p) : p.Numbered k := by
  have hk := congrArg (·[k]?) (seats_afterDrags o ds)
  simp only [List.getElem?_map, hp, Option.map_some] at hk
  obtain ⟨q, hq, hseats⟩ := Option.map_eq_some_iff.mp hk.symm
  exact (numbered_ofOutline hq).of_seats hseats.symm

/-- The place of a task can be read off its id. -/
theorem place_of_id {p q : Project} {k k' i i' : Nat} {s t : Task} (hp : p.Numbered k)
    (hq : q.Numbered k') (hs : p.tasks[i]? = some s) (ht : q.tasks[i']? = some t)
    (hid : s.id = t.id) : k = k' ∧ i = i' := by
  rw [(hp.task i s hs).2, (hq.task i' t ht).2] at hid
  exact taskId_injective hid

/-! ## Looking up -/

section

variable {ps : List Project} (hnumbered : ∀ (k : Nat) (p : Project), ps[k]? = some p → p.Numbered k)

include hnumbered

theorem eq_of_id {p q : Project} (hp : p ∈ ps) (hq : q ∈ ps) {s t : Task} (hs : s ∈ p.tasks)
    (ht : t ∈ q.tasks) (hid : s.id = t.id) : p = q ∧ s = t := by
  obtain ⟨k, hk⟩ := List.getElem?_of_mem hp
  obtain ⟨k', hk'⟩ := List.getElem?_of_mem hq
  obtain ⟨i, hi⟩ := List.getElem?_of_mem hs
  obtain ⟨i', hi'⟩ := List.getElem?_of_mem ht
  obtain ⟨rfl, rfl⟩ := place_of_id (hnumbered k p hk) (hnumbered k' q hk') hi hi' hid
  obtain rfl := Option.some.inj (hk.symm.trans hk')
  exact ⟨rfl, Option.some.inj (hi.symm.trans hi')⟩

theorem nodup_ids : (ps.flatMap fun p => p.tasks.map (·.id)).Nodup := by
  refine List.pairwise_flatMap.mpr ⟨fun p hp => ?_, ?_⟩
  · obtain ⟨k, hk⟩ := List.getElem?_of_mem hp
    refine List.pairwise_map.mpr (List.pairwise_iff_getElem.mpr fun i j hi hj hlt heq => ?_)
    have hplace := place_of_id (hnumbered k p hk) (hnumbered k p hk) (List.getElem?_eq_getElem hi)
      (List.getElem?_eq_getElem hj) heq
    exact absurd hplace.2 (Nat.ne_of_lt hlt)
  · refine List.pairwise_iff_getElem.mpr fun k k' hk hk' hlt a ha b hb heq => ?_
    obtain ⟨s, hs, rfl⟩ := List.mem_map.mp ha
    obtain ⟨t, ht, rfl⟩ := List.mem_map.mp hb
    obtain ⟨i, hi⟩ := List.getElem?_of_mem hs
    obtain ⟨j, hj⟩ := List.getElem?_of_mem ht
    have hplace := place_of_id (hnumbered k _ (List.getElem?_eq_getElem hk))
      (hnumbered k' _ (List.getElem?_eq_getElem hk')) hi hj heq
    exact absurd hplace.1 (Nat.ne_of_lt hlt)

/-- The id of a project that a task names is that of the project that has it. -/
theorem find?_owner {p : Project} (hp : p ∈ ps) {t : Task} (ht : t ∈ p.tasks) :
    ps.find? (·.id == t.projectId) = some p := by
  obtain ⟨k, hk⟩ := List.getElem?_of_mem hp
  obtain ⟨i, hi⟩ := List.getElem?_of_mem ht
  have hname : t.projectId = p.id :=
    ((hnumbered k p hk).task i t hi).1.trans (hnumbered k p hk).id.symm
  cases hfind : ps.find? (·.id == t.projectId) with
  | none =>
      have hnone := List.find?_eq_none.mp hfind p hp
      rw [hname] at hnone
      exact absurd (beq_self_eq_true p.id) hnone
  | some q =>
      obtain ⟨k', hk'⟩ := List.getElem?_of_mem (List.mem_of_find?_eq_some hfind)
      have hid : q.id = t.projectId := by
        simpa using List.find?_some (p := fun q : Project => q.id == t.projectId) hfind
      rw [hname, (hnumbered k' q hk').id, (hnumbered k p hk).id] at hid
      obtain rfl := projectId_injective hid
      rw [Option.some.inj (hk.symm.trans hk')]

end

end Plan

namespace Session

/-- In a plan after any drags no two tasks have one id, and looking up the id of a task finds it with
its project. Another drag has an outcome for its task if there is such a task. The project that this
outcome names as its own is then found, and has it. -/
theorem owner_of_preview {o : Outline} {ds : List Plan.Drag} {s : Session}
    (h : s.projects = Plan.afterDrags o ds) :
    (s.projects.flatMap fun p => p.tasks.map (·.id)).Nodup
      ∧ (∀ p ∈ s.projects, ∀ t ∈ p.tasks, s.task? t.id = some (t, p))
      ∧ ∀ d, ((s.preview d).task.isSome ↔ ∃ p ∈ s.projects, ∃ t ∈ p.tasks, t.id = d.task)
        ∧ ∀ t, (s.preview d).task = some t → t.id = d.task
          ∧ ∃ p, (s.preview d).projects.find? (·.id == t.projectId) = some p ∧ t ∈ p.tasks := by
  have hnumbered : ∀ (k : Nat) (p : Plan.Project), s.projects[k]? = some p → p.Numbered k :=
    fun k p hp => Plan.numbered_afterDrags (h ▸ hp)
  have hseated : Plan.Seated s.projects := h ▸ Plan.seated_afterDrags o ds
  refine ⟨Plan.nodup_ids hnumbered, fun p hp t ht => ?_, fun d => ?_⟩
  · refine (Plan.findSome?_eq_some_iff fun p hp q hq s hs u hu hsid huid => ?_).mpr
      ⟨hp, ht, beq_self_eq_true t.id⟩
    exact Plan.eq_of_id hnumbered hp hq hs hu ((beq_iff_eq.mp hsid).trans (beq_iff_eq.mp huid).symm)
  · by_cases hknown : ∃ p ∈ s.projects, ∃ t ∈ p.tasks, t.id = d.task
    · obtain ⟨p, hp, t, ht, hid⟩ := hknown
      obtain ⟨t', htask, hid', p', hp', ht'⟩ := hseated.task_drag hp ht hid
      refine ⟨iff_of_true (Option.isSome_of_mem htask) ⟨p, hp, t, ht, hid⟩, fun u hu => ?_⟩
      obtain rfl := Option.some.inj (htask.symm.trans hu)
      -- the outcome is the plan after one more drag
      have hafter : (s.preview d).projects = Plan.afterDrags o (ds ++ [d]) := by
        rw [preview, h, Plan.afterDrags, Plan.afterDrags, List.foldl_append]
        rfl
      have hnumbered' : ∀ (k : Nat) (p : Plan.Project), (s.preview d).projects[k]? = some p →
          p.Numbered k := fun k p hp => Plan.numbered_afterDrags (hafter ▸ hp)
      exact ⟨hid', p', Plan.find?_owner hnumbered' hp' ht', ht'⟩
    · have hnone : s.preview d = ⟨s.projects, none⟩ :=
        Plan.drag_of_unknown fun p hp t ht hid => hknown ⟨p, hp, t, ht, hid⟩
      rw [hnone]
      refine ⟨iff_of_false Bool.false_ne_true hknown, ?_⟩
      rintro t ⟨⟩

/-- A hall, a yard where nothing is to be done, and a shed. -/
def lots : Outline where
  start := ⟨738600, by decide, by decide⟩
  projects := [
    { name := "Hall", tasks := [
      { level := 1, title := "Shell", duration := 0 },
      { level := 2, title := "Walls", duration := 3 }] },
    { name := "Yard" },
    { name := "Shed", tasks := [
      { level := 1, title := "Door", duration := 1 },
      { level := 1, title := "Paint", duration := 1, dependencies := [1] }] }]

/-- The door comes late, and the walls come early. -/
def lotDrags : List Plan.Drag :=
  [⟨"project-2-task-0", Date.last, some 2⟩, ⟨"project-0-task-1", Date.first, none⟩]

def lotSession : Session where
  today := Date.first
  loaded := some {
    text := "", time := 0, outline := lots, stamp := ""
    plan := { projects := Plan.afterDrags lots lotDrags, conflicts := [], finish := Date.last } }

theorem owner_of_preview_lots :
    lotSession.projects = Plan.afterDrags lots lotDrags
      ∧ (∃ t p, lotSession.task? "project-2-task-1" = some (t, p))
      ∧ ∃ t p, (lotSession.preview ⟨"project-2-task-1", Date.first, none⟩).task = some t
        ∧ (lotSession.preview ⟨"project-2-task-1", Date.first, none⟩).projects.find?
          (·.id == t.projectId) = some p := by
  have hprojects : lotSession.projects = Plan.afterDrags lots lotDrags := rfl
  obtain ⟨-, hfound, hpreview⟩ := owner_of_preview hprojects
  obtain ⟨hsome, howner⟩ := hpreview ⟨"project-2-task-1", Date.first, none⟩
  have hids : (lotSession.projects.flatMap fun p => p.tasks.map (·.id))
      = ["project-0-task-0", "project-0-task-1", "project-2-task-0", "project-2-task-1"] := by cbv
  have hmem : "project-2-task-1" ∈ lotSession.projects.flatMap fun p => p.tasks.map (·.id) := by
    rw [hids]
    decide
  obtain ⟨p, hp, hmem⟩ := List.mem_flatMap.mp hmem
  obtain ⟨t, ht, hid⟩ := List.mem_map.mp hmem
  obtain ⟨t', ht'⟩ := Option.isSome_iff_exists.mp (hsome.mpr ⟨p, hp, t, ht, hid⟩)
  obtain ⟨-, p', hp', -⟩ := howner t' ht'
  exact ⟨hprojects, ⟨t, p, hid ▸ hfound p hp t ht⟩, t', p', ht', hp'⟩

end Session

end Roadmap
