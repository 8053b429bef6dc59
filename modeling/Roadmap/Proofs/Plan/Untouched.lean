import Roadmap.Proofs.Plan.Leaf

/-!
# What a drag leaves alone

A drag pushes the tasks that depend on the dragged one, directly or through others (`Affected`), and
then fits the whole project anew. Whatever is neither affected nor an ancestor of an affected task
comes out as it was, in every field (`drag_untouched`).

That a push moves none of the others is an invariant of working off the pushes: their sources are
all affected (`push_untouched`). Fitting could still move a parent that did not cover its children
before. But each parent did, in every project that a schedule and any drags have left
(`seated_afterDrags`), and the days of fitted parents are those of the leaves below them
(`Fitted.days`).
-/

namespace Roadmap.Plan

theorem Task.ext_undated {t t' : Task} (hu : t.undated = t'.undated) (hspan : t.span = t'.span)
    (hduration : t.duration = t'.duration) : t = t' := by
  have hstart : t.start = t'.start := congrArg Span.start hspan
  have hfinish : t.finish = t'.finish := congrArg Span.finish hspan
  calc t = { t.undated with start := t.start, finish := t.finish, duration := t.duration } := rfl
    _ = { t'.undated with start := t'.start, finish := t'.finish, duration := t'.duration } := by
      rw [hu, hstart, hfinish, hduration]
    _ = t' := rfl

/-! ## Affected tasks -/

/-- The task at `x`, and every task with an affected one among those it depends on. -/
inductive Affected (tasks : List Task) (x : Nat) : Nat → Prop where
  | self : Affected tasks x x
  | named {j k : Nat} {t : Task} (hj : Affected tasks x j) (ht : tasks[k]? = some t)
      (hnamed : (j : Int) + 1 ∈ t.dependencies) : Affected tasks x k

/-- The affected tasks are the least such set. -/
theorem Affected.least {tasks : List Task} {x : Nat} {q : Nat → Prop} (hx : q x)
    (hclosed : ∀ {j k : Nat} {t : Task}, q j → tasks[k]? = some t →
      (j : Int) + 1 ∈ t.dependencies → q k) {j : Nat} (hj : Affected tasks x j) : q j := by
  induction hj with
  | self => exact hx
  | named _ ht hnamed ih => exact hclosed ih ht hnamed

theorem Affected.mono {xs ys : List Task} (h : ∀ {k : Nat} {t : Task}, xs[k]? = some t →
    ∃ t', ys[k]? = some t' ∧ t'.dependencies = t.dependencies) {x j : Nat}
    (hj : Affected xs x j) : Affected ys x j := by
  refine hj.least .self fun hj ht hnamed => ?_
  obtain ⟨t', ht', hdependencies⟩ := h ht
  exact hj.named ht' (hdependencies ▸ hnamed)

/-- The step: a push by an affected task moves affected tasks only. -/
theorem Affected.of_moves {tasks later : List Task} (hagree : Agree later tasks)
    (hindex : ∀ (i : Nat) (t : Task), tasks[i]? = some t → t.index = i) {p : Push} {source : Task}
    (hsource : later[p.source]? = some source) {x : Nat} (hp : Affected tasks x p.source) {i : Nat}
    {t : Task} (ht : later[i]? = some t) (hmoves : p.moves source t) : Affected tasks x i := by
  obtain ⟨t₀, ht₀, hu⟩ := hagree.exists ht
  obtain ⟨s₀, hs₀, hu'⟩ := hagree.exists hsource
  have hposition : source.position = (p.source : Int) + 1 := by
    rw [Task.position, ← Task.index_of_undated hu', hindex _ _ hs₀]
  unfold Push.moves at hmoves
  simp only [Bool.and_eq_true, List.contains_iff_mem] at hmoves
  refine hp.named ht₀ ?_
  rw [Task.dependencies_of_undated hu, ← hposition]
  exact hmoves.1.1

/-- Working off pushes by affected tasks leaves the others alone. -/
theorem push_untouched {tasks later : List Task} (hagree : Agree later tasks)
    (hindex : ∀ (i : Nat) (t : Task), tasks[i]? = some t → t.index = i) {stack : List Push} {x : Nat}
    (hstack : ∀ p ∈ stack, Affected tasks x p.source) {i : Nat} (hi : ¬ Affected tasks x i) :
    (push later stack)[i]? = later[i]? := by
  fun_induction push later stack with
  | case1 later => rfl
  | case2 later p rest hnone ih => exact ih hagree fun q hq => hstack q (List.mem_cons_of_mem p hq)
  | case3 later p rest source hsource ih =>
      have hp := hstack p List.mem_cons_self
      have hmoves := fun {j : Nat} {t : Task} =>
        Affected.of_moves hagree hindex hsource hp (i := j) (t := t)
      have hlater : (p.apply source later)[i]? = later[i]? := by
        rw [Push.apply, List.getElem?_map]
        cases ht : later[i]? with
        | none => rfl
        | some t => rw [Option.map_some, if_neg fun hm => hi (hmoves ht hm)]
      rw [ih ((agree_apply p source later).trans hagree) ?_, hlater]
      intro q hq
      rcases List.mem_append.mp hq with hq | hq
      · obtain ⟨t, ht, rfl⟩ := List.mem_map.mp (List.mem_reverse.mp hq)
        obtain ⟨htmem, hm⟩ := List.mem_filter.mp ht
        obtain ⟨j, hj⟩ := List.getElem?_of_mem htmem
        obtain ⟨t₀, ht₀, hu⟩ := hagree.exists hj
        show Affected tasks x t.index
        rw [← Task.index_of_undated hu, hindex j t₀ ht₀]
        exact hmoves hj hm
      · exact hstack q (List.mem_cons_of_mem p hq)

/-! ## One project -/

theorem exists_of_set_dragged {tasks : List Task} {t : Task} (ht : tasks[t.index]? = some t)
    (d : Drag) {i : Nat} {s : Task} (hs : (tasks.set t.index (t.dragged d))[i]? = some s) :
    ∃ s₀, tasks[i]? = some s₀ ∧ s₀.index = s.index ∧ s₀.dependencies = s.dependencies := by
  by_cases hi : t.index = i
  · subst hi
    rw [List.getElem?_set_self (List.getElem?_eq_some_iff.mp ht).1] at hs
    exact ⟨t, ht, Option.some.inj hs ▸ ⟨rfl, rfl⟩⟩
  · rw [List.getElem?_set_ne hi] at hs
    exact ⟨s, hs, rfl, rfl⟩

section

variable {p : Project} (h : Fitted p.tasks) {t : Task} (ht : p.tasks[t.index]? = some t) (d : Drag)

include h ht

theorem indexed_set_dragged (i : Nat) (s : Task)
    (hs : (p.tasks.set t.index (t.dragged d))[i]? = some s) : s.index = i := by
  obtain ⟨s₀, hs₀, hindex, -⟩ := exists_of_set_dragged ht d hs
  exact hindex.symm.trans (h.indexed i s₀ hs₀)

theorem fitted_drag : Fitted (p.drag t d).tasks := by
  have hagree := agree_pushDependents (link (p.tasks.set t.index (t.dragged d))) t.index
  refine fitted_reconcile ((linked_link _).of_agree hagree) fun i s hs => ?_
  obtain ⟨s₀, hs₀, hu⟩ := hagree.exists hs
  rw [link_dragged h (List.mem_of_getElem? ht)] at hs₀
  exact (Task.index_of_undated hu).symm.trans (indexed_set_dragged h ht d i s₀ hs₀)

/-- Before anything is fitted, a task that is not affected is as it was. -/
theorem pushDependents_untouched {i : Nat} (hi : ¬ Affected p.tasks t.index i) :
    (pushDependents (link (p.tasks.set t.index (t.dragged d))) t.index)[i]? = p.tasks[i]? := by
  have hne : t.index ≠ i := by
    rintro rfl
    exact hi .self
  rw [link_dragged h (List.mem_of_getElem? ht), pushDependents,
    push_untouched (Agree.refl _) (indexed_set_dragged h ht d) (x := t.index) ?_ fun haffected => ?_,
    List.getElem?_set_ne hne]
  · intro q hq
    rw [List.mem_singleton.mp hq]
    exact .self
  · refine hi (haffected.mono fun hs => ?_)
    obtain ⟨s₀, hs₀, -, hdependencies⟩ := exists_of_set_dragged ht d hs
    exact ⟨s₀, hs₀, hdependencies⟩

/-- Nor is it moved by fitting if nothing below it is affected. -/
theorem drag_getElem?_of_unaffected {i : Nat} {s : Task} (hs : p.tasks[i]? = some s)
    (hfree : ∀ j, Affected p.tasks t.index j → ¬ Below p.tasks i j) :
    (p.drag t d).tasks[i]? = some s := by
  have hfitted := fitted_drag h ht d
  have hlevel : p.tasks.map (·.level) = (p.drag t d).tasks.map (·.level) := by
    have hmap := congrArg (List.map (·.level)) (bare_drag h (List.mem_of_getElem? ht) d)
    rw [List.map_map, List.map_map] at hmap
    exact hmap.symm
  have hlinked := (linked_link _).of_agree
    (agree_pushDependents (link (p.tasks.set t.index (t.dragged d))) t.index)
  -- a leaf is not fitted, so it is as the pushes have left it
  have hleaf : ∀ {j : Nat} {u : Task}, Below p.tasks i j → p.tasks[j]? = some u →
      u.hasChildren = false → (p.drag t d).tasks[j]? = some u := by
    intro j u hj hu hc
    have hpushed := (pushDependents_untouched h ht d fun haffected => hfree j haffected hj).trans hu
    exact (reconcile_getElem? hlinked hpushed).trans (by rw [if_neg (by simp [hc])])
  have hpushed := (pushDependents_untouched h ht d fun haffected => hfree i haffected .refl).trans hs
  obtain ⟨s', hs', hu⟩ := (agree_reconcile _).symm.exists hpushed
  have hs' : (p.drag t d).tasks[i]? = some s' := hs'
  have hspan : s'.span = s.span := by
    refine h.days hfitted hlevel (fun {j u u'} hj hu hu' hc => ?_) hs hs'
    obtain rfl := Option.some.inj (hu'.symm.trans (hleaf hj hu hc))
    rfl
  have hduration : s'.duration = s.duration := by
    cases hc : s.hasChildren with
    | false =>
        obtain rfl := Option.some.inj (hs'.symm.trans (hleaf .refl hs hc))
        rfl
    | true =>
        have hc' : s'.hasChildren := by
          rwa [Task.hasChildren, Task.children_of_undated hu]
        rw [(hfitted.cover i s' hs' hc').2.2, (h.cover i s hs hc).2.2,
          show s'.start = s.start from congrArg Span.start hspan,
          show s'.finish = s.finish from congrArg Span.finish hspan]
  rw [hs', Task.ext_undated hu hspan hduration]

end

/-! ## All projects -/

/-- Fitted tasks that carry the ids of their places in the plan. -/
structure Project.Seated (p : Project) (k : Nat) : Prop where
  fitted : Fitted p.tasks
  id : ∀ (i : Nat) (t : Task), p.tasks[i]? = some t → t.id = taskId (projectId k) i

/-- Every project of the plan is fitted, and has the ids of its place. -/
def Seated (ps : List Project) : Prop := ∀ (k : Nat) (p : Project), ps[k]? = some p → p.Seated k

theorem seated_ofOutline (o : Outline) : Seated (ofOutline o).projects := by
  intro k p hp
  rw [projects_getElem?, Option.map_eq_some_iff] at hp
  obtain ⟨p₀, -, rfl⟩ := hp
  refine ⟨fitted_schedule p₀.tasks (projectId k) o.start, fun i t ht => ?_⟩
  have ht : (schedule p₀.tasks (projectId k) o.start)[i]? = some t := ht
  obtain ⟨t₀, -, hu⟩ := exists_of_schedule_getElem? ht
  exact congrArg Task.id hu

theorem Project.Seated.drag {p : Project} {k : Nat} (h : p.Seated k) {t : Task}
    (ht : p.tasks[t.index]? = some t) (d : Drag) : (p.drag t d).Seated k := by
  refine ⟨fitted_drag h.fitted ht d, fun i s hs => ?_⟩
  have hbare := bare_drag h.fitted (List.mem_of_getElem? ht) d
  obtain ⟨s₀, hs₀, hsame⟩ := exists_of_bare hbare.symm hs
  exact (congrArg Task.id hsame).symm.trans (h.id i s₀ hs₀)

/-- Among seated projects, an id finds the one task that has it. -/
theorem Project.Seated.find? {p : Project} {k x : Nat} (h : p.Seated k) {t : Task}
    (ht : p.tasks[x]? = some t) : p.find? t.id = some t := by
  cases hfind : p.find? t.id with
  | none =>
      have hnone := List.find?_eq_none.mp hfind t (List.mem_of_getElem? ht)
      exact absurd (beq_self_eq_true t.id) hnone
  | some s =>
      obtain ⟨i, hi⟩ := List.getElem?_of_mem (List.mem_of_find?_eq_some hfind)
      have hid : s.id = t.id := by
        simpa using List.find?_some (p := fun s : Task => s.id == t.id) hfind
      rw [h.id i s hi, h.id x t ht] at hid
      obtain rfl := (taskId_injective hid).2
      exact congrArg some (Option.some.inj (hi.symm.trans ht))

theorem Project.Seated.find?_eq_none {p : Project} {k k' x : Nat} (h : p.Seated k) (hk : k ≠ k') :
    p.find? (taskId (projectId k') x) = none := by
  refine List.find?_eq_none.mpr fun s hs heq => ?_
  obtain ⟨i, hi⟩ := List.getElem?_of_mem hs
  have hid := (h.id i s hi).symm.trans (beq_iff_eq.mp heq)
  exact hk (taskId_injective hid).1

/-- A drag changes the project that has the task, if one has. -/
theorem drag_of_find? {d : Drag} {ps : List Project} {k : Nat} {p : Project} {t : Task}
    (hp : ps[k]? = some p) (ht : p.find? d.task = some t)
    (hother : ∀ (j : Nat) (q : Project), ps[j]? = some q → j ≠ k → q.find? d.task = none) :
    drag d ps = ⟨ps.set k (p.drag t d), (p.drag t d).tasks[t.index]?⟩ := by
  induction ps generalizing k with
  | nil => nomatch hp
  | cons q ps ih =>
      cases k with
      | zero =>
          obtain rfl : q = p := Option.some.inj hp
          rw [drag, ht]
          rfl
      | succ k =>
          have hq := hother 0 q rfl (Nat.succ_ne_zero k).symm
          have hrest := ih hp fun j r hr hj => hother (j + 1) r hr fun heq => hj (Nat.succ.inj heq)
          rw [drag, hq, hrest]
          rfl

theorem drag_of_unknown {d : Drag} {ps : List Project}
    (h : ∀ p ∈ ps, ∀ t ∈ p.tasks, t.id ≠ d.task) : drag d ps = ⟨ps, none⟩ := by
  induction ps with
  | nil => rfl
  | cons q ps ih =>
      have hq : q.find? d.task = none := List.find?_eq_none.mpr fun t ht heq =>
        h q List.mem_cons_self t ht (beq_iff_eq.mp heq)
      rw [drag, hq, ih fun p hp => h p (List.mem_cons_of_mem q hp)]

theorem Seated.drag_eq {ps : List Project} (h : Seated ps) {k x : Nat} {p : Project} {t : Task}
    (hp : ps[k]? = some p) (ht : p.tasks[x]? = some t) {d : Drag} (hid : t.id = d.task) :
    drag d ps = ⟨ps.set k (p.drag t d), (p.drag t d).tasks[t.index]?⟩ := by
  refine drag_of_find? hp (hid ▸ (h k p hp).find? ht) fun j q hq hj => ?_
  rw [← hid, (h k p hp).id x t ht]
  exact (h j q hq).find?_eq_none hj

theorem Seated.drag_of_known {ps : List Project} (h : Seated ps) {k x : Nat} {p : Project} {t : Task}
    (hp : ps[k]? = some p) (ht : p.tasks[x]? = some t) {d : Drag} (hid : t.id = d.task) :
    (drag d ps).projects = ps.set k (p.drag t d) :=
  congrArg Dragged.projects (h.drag_eq hp ht hid)

/-- A drag of a task that there is comes to an outcome for this task, in the project that has it. -/
theorem Seated.task_drag {ps : List Project} (h : Seated ps) {p : Project} (hp : p ∈ ps) {t : Task}
    (ht : t ∈ p.tasks) {d : Drag} (hid : t.id = d.task) : ∃ t', (drag d ps).task = some t'
      ∧ t'.id = d.task ∧ ∃ p' ∈ (drag d ps).projects, t' ∈ p'.tasks := by
  obtain ⟨k, hk⟩ := List.getElem?_of_mem hp
  obtain ⟨x, hx⟩ := List.getElem?_of_mem ht
  have hfitted := (h k p hk).fitted
  obtain rfl := hfitted.indexed x t hx
  obtain ⟨t', ht', hbare⟩ := exists_of_bare (bare_drag hfitted ht d) hx
  have hid' : t'.id = t.id := congrArg (·.id) hbare
  rw [h.drag_eq hk hx hid]
  exact ⟨t', ht', hid'.trans hid, p.drag t d,
    List.mem_set (List.getElem?_eq_some_iff.mp hk).1 _, List.mem_of_getElem? ht'⟩

/-- The step: a drag keeps all projects seated. -/
theorem Seated.drag {ps : List Project} (h : Seated ps) (d : Drag) :
    Seated (drag d ps).projects := by
  by_cases hknown : ∃ p ∈ ps, ∃ t ∈ p.tasks, t.id = d.task
  · obtain ⟨p, hp, t, ht, hid⟩ := hknown
    obtain ⟨k, hk⟩ := List.getElem?_of_mem hp
    obtain ⟨x, hx⟩ := List.getElem?_of_mem ht
    rw [h.drag_of_known hk hx hid]
    intro j q hq
    by_cases hj : k = j
    · subst hj
      rw [List.getElem?_set_self (List.getElem?_eq_some_iff.mp hk).1] at hq
      obtain rfl := (h k p hk).fitted.indexed x t hx
      exact Option.some.inj hq ▸ (h k p hk).drag hx d
    · rw [List.getElem?_set_ne hj] at hq
      exact h j q hq
  · rw [drag_of_unknown fun p hp t ht hid => hknown ⟨p, hp, t, ht, hid⟩]
    exact h

theorem seated_afterDrags (o : Outline) (ds : List Drag) : Seated (afterDrags o ds) :=
  afterDrags_induction (seated_ofOutline o) (fun _ d h => h.drag d) ds

/-- A drag changes one project, or none if there is no such task. In that project it leaves alone
all tasks but the dragged one, those that depend on it, directly or through others, and the
ancestors of these. -/
theorem drag_untouched (o : Outline) (ds : List Drag) (d : Drag) :
    ((∀ p ∈ afterDrags o ds, ∀ t ∈ p.tasks, t.id ≠ d.task) →
      drag d (afterDrags o ds) = ⟨afterDrags o ds, none⟩)
      ∧ ∀ (k x : Nat) (p : Project) (t : Task), (afterDrags o ds)[k]? = some p →
        p.tasks[x]? = some t → t.id = d.task →
        (drag d (afterDrags o ds)).projects = (afterDrags o ds).set k (p.drag t d)
          ∧ (p.drag t d).tasks.length = p.tasks.length
          ∧ ∀ (i : Nat) (s : Task), p.tasks[i]? = some s →
            (∀ j, Affected p.tasks x j → ¬ Below p.tasks i j) → (p.drag t d).tasks[i]? = some s := by
  have hseated := seated_afterDrags o ds
  refine ⟨drag_of_unknown, fun k x p t hp ht hid => ?_⟩
  have hfitted := (hseated k p hp).fitted
  obtain rfl := hfitted.indexed x t ht
  refine ⟨hseated.drag_of_known hp ht hid, ?_, fun i s hs hfree => ?_⟩
  · simpa using congrArg List.length (bare_drag hfitted (List.mem_of_getElem? ht) d)
  · exact drag_getElem?_of_unaffected hfitted ht d hs hfree

/-- The roof of the hall comes early, and takes no time. -/
def earlyRoof : List Drag := [⟨"project-0-task-2", Date.first, some (-4)⟩]

/-- Ids, dependencies and parents of the tasks of the hall. -/
def hallRows : List (String × List Int × Option Nat) := [
  ("project-0-task-0", [], none), ("project-0-task-1", [4], some 0),
  ("project-0-task-2", [], some 0), ("project-0-task-3", [1], none),
  ("project-0-task-4", [6], none), ("project-0-task-5", [5], none)]

theorem exists_hallRow {p : Project}
    (hp : (p.tasks.map fun t => (t.id, t.dependencies, t.parent)) = hallRows) {k : Nat} {t : Task}
    (ht : p.tasks[k]? = some t) :
    k < 6 ∧ hallRows[k]? = some (t.id, t.dependencies, t.parent) := by
  have hlength : p.tasks.length = 6 := by simpa [hallRows] using congrArg List.length hp
  refine ⟨hlength ▸ (List.getElem?_eq_some_iff.mp ht).1, ?_⟩
  rw [← hp, List.getElem?_map, ht]
  rfl

/-- The lights move and push the wiring, but not the paint, and no task is called `Paint`. -/
theorem drag_untouched_hall :
    (∃ (p : Project) (t s : Task), (afterDrags hall earlyRoof)[0]? = some p ∧ p.tasks[5]? = some t
      ∧ t.id = "project-0-task-5" ∧ p.tasks[3]? = some s
      ∧ (p.drag t ⟨"project-0-task-5", Date.last, none⟩).tasks[3]? = some s)
      ∧ drag ⟨"Paint", Date.last, none⟩ (afterDrags hall earlyRoof)
        = ⟨afterDrags hall earlyRoof, none⟩ := by
  have hrows : (afterDrags hall earlyRoof).map
      (fun p => p.tasks.map fun t => (t.id, t.dependencies, t.parent)) = [hallRows] := by cbv
  obtain ⟨p, hps, hrow⟩ := List.map_eq_singleton_iff.mp hrows
  have hp : (afterDrags hall earlyRoof)[0]? = some p := by rw [hps]; rfl
  have hlength : p.tasks.length = 6 := by
    simpa [hallRows] using congrArg List.length hrow
  constructor
  · have ht := List.getElem?_eq_getElem (l := p.tasks) (i := 5) (by omega)
    have hs := List.getElem?_eq_getElem (l := p.tasks) (i := 3) (by omega)
    have hid : p.tasks[5].id = "project-0-task-5" :=
      (congrArg (·.1) (Option.some.inj (exists_hallRow hrow ht).2)).symm
    refine ⟨p, p.tasks[5], p.tasks[3], hp, ht, hid, hs, ?_⟩
    refine ((drag_untouched hall earlyRoof _).2 0 5 p p.tasks[5] hp ht hid).2.2 3 p.tasks[3] hs ?_
    intro j hj hbelow
    -- wiring and lights wait for each other, and nothing else for either
    have haffected : j = 4 ∨ j = 5 := by
      refine hj.least (q := fun j => j = 4 ∨ j = 5) (.inr rfl) fun {j k t} hj hk hnamed => ?_
      obtain ⟨hlt, hrow⟩ := exists_hallRow hrow hk
      have hclosed : ∀ k < 6, ∀ r ∈ hallRows[k]?, 5 ∈ r.2.1 ∨ 6 ∈ r.2.1 → k = 4 ∨ k = 5 := by decide
      refine hclosed k hlt _ hrow ?_
      rcases hj with rfl | rfl
      · exact .inl hnamed
      · exact .inr hnamed
    rcases hbelow.cases_head with rfl | ⟨k, ⟨c, hc, hparent⟩, -⟩
    · omega
    · obtain ⟨hlt, hrow⟩ := exists_hallRow hrow hc
      have hleaf : ∀ k < 6, ∀ r ∈ hallRows[k]?, r.2.2 ≠ some 3 := by decide
      exact hleaf k hlt _ hrow hparent
  · refine (drag_untouched hall earlyRoof _).1 fun q hq t ht hid => ?_
    rw [hps, List.mem_singleton] at hq
    subst hq
    obtain ⟨k, hk⟩ := List.getElem?_of_mem ht
    have hids : ∀ r ∈ hallRows, r.1 ≠ "Paint" := by decide
    exact hids _ (List.mem_of_getElem? (exists_hallRow hrow hk).2) hid

end Roadmap.Plan
