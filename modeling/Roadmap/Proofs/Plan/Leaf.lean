import Roadmap.Proofs.Plan.Fitted
import Roadmap.Proofs.Plan.Seats

/-!
# Dragging a leaf

A task without children ends up exactly where it is dragged to (`drag_leaf`). It is not pushed away
by what it pushes, since every path of pushes goes through it, and there are no children that it
would be fitted to. In a schedule such a task has the duration that its line states, and starts
on the day to which it is pinned.

Other tasks may move, but a drag leaves all seats as they are, so the ancestors of the task are the
same ones as before.
-/

namespace Roadmap.Plan

/-! ## Pushes leave their source alone -/

theorem indexed_apply {tasks : List Task}
    (h : ∀ (i : Nat) (t : Task), tasks[i]? = some t → t.index = i) (p : Push) (source : Task) :
    ∀ (i : Nat) (t : Task), (p.apply source tasks)[i]? = some t → t.index = i := by
  intro i t ht
  rw [Push.apply, List.getElem?_map, Option.map_eq_some_iff] at ht
  obtain ⟨t₀, ht₀, rfl⟩ := ht
  have hindex := h i t₀ ht₀
  split
  · exact hindex
  · exact hindex

/-- A task on the path of every push stays where it is. -/
theorem push_getElem? {tasks : List Task} {stack : List Push} {i : Nat}
    (h : ∀ (i : Nat) (t : Task), tasks[i]? = some t → t.index = i)
    (hpath : ∀ p ∈ stack, i ∈ p.path) : (push tasks stack)[i]? = tasks[i]? := by
  fun_induction push tasks stack with
  | case1 tasks => rfl
  | case2 tasks p rest hnone ih => exact ih h fun q hq => hpath q (List.mem_cons_of_mem p hq)
  | case3 tasks p rest source hsource ih =>
      have hp := hpath p List.mem_cons_self
      have hnext : ∀ q ∈ p.next source tasks ++ rest, i ∈ q.path := by
        intro q hq
        rcases List.mem_append.mp hq with hq | hq
        · obtain ⟨t, -, rfl⟩ := List.mem_map.mp (List.mem_reverse.mp hq)
          exact List.mem_cons_of_mem t.index hp
        · exact hpath q (List.mem_cons_of_mem p hq)
      rw [ih (indexed_apply h p source) hnext, Push.apply, List.getElem?_map]
      cases ht : tasks[i]? with
      | none => rfl
      | some t =>
          have hstays : p.moves source t = false := by
            have hon : p.path.contains t.index = true := by
              rw [h i t ht, List.contains_iff_mem]
              exact hp
            rw [Push.moves, hon, Bool.not_true, Bool.and_false, Bool.false_and]
          rw [Option.map_some, hstays, if_neg Bool.false_ne_true]

/-! ## The dragged task -/

/-- Links are right before the drag, and a drag leaves them so. -/
theorem link_dragged {tasks : List Task} (h : Fitted tasks) {t : Task} (ht : t ∈ tasks) (d : Drag) :
    link (tasks.set t.index (t.dragged d)) = tasks.set t.index (t.dragged d) := by
  obtain ⟨k, hk⟩ := List.getElem?_of_mem ht
  obtain rfl := h.indexed k t hk
  refine List.ext_getElem? fun i => ?_
  cases hs : (link (tasks.set t.index (t.dragged d)))[i]? with
  | none =>
      have hi := List.getElem?_eq_none_iff.mp hs
      rw [length_link] at hi
      rw [List.getElem?_eq_none hi]
  | some s =>
      have hs' := hs
      rw [link_getElem?, Option.map_eq_some_iff] at hs'
      obtain ⟨s₀, hs₀, rfl⟩ := hs'
      have hold : ∃ u, tasks[i]? = some u ∧ s₀.parent = u.parent ∧ s₀.children = u.children := by
        by_cases hi : t.index = i
        · subst hi
          rw [List.getElem?_set_self (List.getElem?_eq_some_iff.mp hk).1] at hs₀
          obtain rfl := Option.some.inj hs₀
          exact ⟨t, hk, rfl, rfl⟩
        · rw [List.getElem?_set_ne hi] at hs₀
          exact ⟨s₀, hs₀, rfl, rfl⟩
      obtain ⟨u, hu, hparent, hchildren⟩ := hold
      obtain ⟨hp, hc⟩ := (linked_link _).ext h.linked
        ((levels_link _).trans (levels_set_dragged hk d)) hs hu
      have hp : (parents ((tasks.set t.index (t.dragged d)).map (·.level)))[i]?.join = s₀.parent :=
        hp.trans hparent.symm
      have hc : childIndices (parents ((tasks.set t.index (t.dragged d)).map (·.level))) i
          = s₀.children := hc.trans hchildren.symm
      rw [hs₀, Task.linkAt, hp, hc]

/-- A task without children ends up where it is dragged to. -/
theorem drag_leaf {p : Project} {fallback : Date} (h : p.Settled fallback) {t : Task}
    (ht : t ∈ p.tasks) (hleaf : t.hasChildren = false) (d : Drag) :
    (p.drag t d).tasks[t.index]? = some (t.dragged d) := by
  obtain ⟨k, hk⟩ := List.getElem?_of_mem ht
  obtain rfl := h.tasks.indexed k t hk
  have hplaced := placed_pushDependents h.tasks ht d
  have hstays : (pushDependents (link (p.tasks.set t.index (t.dragged d))) t.index)[t.index]?
      = some (t.dragged d) := by
    rw [pushDependents, push_getElem? (placed_link_set h.tasks ht d).indexed,
      link_dragged h.tasks.fitted ht,
      List.getElem?_set_self (List.getElem?_eq_some_iff.mp hk).1]
    intro q hq
    rw [List.mem_singleton.mp hq]
    exact List.mem_singleton_self t.index
  have hleaf' : ¬ (t.dragged d).hasChildren := by
    rw [Bool.not_eq_true]
    exact hleaf
  show (reconcile (pushDependents (link (p.tasks.set t.index (t.dragged d))) t.index))[t.index]? = _
  rw [reconcile_getElem? hplaced.linked hstays, if_neg hleaf']

/-- A drag leaves all tasks in their seats. -/
theorem bare_drag {p : Project} (h : Fitted p.tasks) {t : Task} (ht : t ∈ p.tasks) (d : Drag) :
    (p.drag t d).tasks.map Task.bare = p.tasks.map Task.bare := by
  obtain ⟨k, hk⟩ := List.getElem?_of_mem ht
  obtain rfl := h.indexed k t hk
  have hlt := (List.getElem?_eq_some_iff.mp hk).1
  have hset : (p.tasks.set t.index (t.dragged d)).map Task.bare = p.tasks.map Task.bare := by
    have hsame : (t.dragged d).bare = p.tasks[t.index].bare := by
      rw [(List.getElem?_eq_some_iff.mp hk).2]
      rfl
    rw [List.map_set, hsame, ← List.getElem_map Task.bare (h := by simpa using hlt)]
    exact List.set_getElem_self _
  have hpush : (pushDependents (link (p.tasks.set t.index (t.dragged d))) t.index).map Task.bare
      = p.tasks.map Task.bare := by
    refine push_induction (P := fun later => later.map Task.bare = p.tasks.map Task.bare)
      (fun later q source hlater => ?_) ?_ _
    · rw [← hlater, Push.apply, List.map_map]
      refine List.map_congr_left fun s _ => ?_
      rw [Function.comp_apply]
      split
      · rfl
      · rfl
    · rw [link_dragged h ht, hset]
  exact (agree_reconcile _).bare.trans hpush

/-! ## Looking up the drag -/

/-- What a drag of a task says and does, if no other task has its id. -/
theorem drag_of_mem {ps : List Project} (h : Distinct ps) {p : Project} (hp : p ∈ ps) {t : Task}
    (ht : t ∈ p.tasks) {d : Drag} (hid : t.id = d.task) :
    (drag d ps).task = (p.drag t d).tasks[t.index]?
      ∧ (drag d ps).projects.find? (·.id == p.id) = some (p.drag t d) := by
  induction ps with
  | nil => cases hp
  | cons q ps ih =>
      rw [drag]
      split
      · next t' hfind =>
          have hid' : t'.id = d.task := by
            simpa using List.find?_some (p := fun t : Task => t.id == d.task) hfind
          obtain ⟨rfl, rfl⟩ := h.id q List.mem_cons_self p hp t' (List.mem_of_find?_eq_some hfind) t
            ht (hid'.trans hid.symm)
          exact ⟨rfl, List.find?_cons_of_pos (p := fun r : Project => r.id == q.id)
            (beq_self_eq_true q.id)⟩
      · next hnone =>
          have hne : p ≠ q := by
            rintro rfl
            have := List.find?_eq_none.mp hnone t ht
            exact this (beq_iff_eq.mpr hid)
          have hp := (List.mem_cons.mp hp).resolve_left hne
          have hproject := List.nodup_cons.mp h.project
          obtain ⟨htask, hprojects⟩ := ih ⟨hproject.2,
            fun p hp q hq => h.id p (List.mem_cons_of_mem _ hp) q (List.mem_cons_of_mem _ hq),
            fun p hp q hq => h.line p (List.mem_cons_of_mem _ hp) q (List.mem_cons_of_mem _ hq)⟩ hp
          have hother : ¬ (q.id == p.id) = true := by
            intro heq
            have hid : q.id = p.id := beq_iff_eq.mp heq
            exact hproject.1 (List.mem_map.mpr ⟨p, hp, hid.symm⟩)
          exact ⟨htask, (List.find?_cons_of_neg (p := fun r : Project => r.id == p.id) hother).trans
            hprojects⟩

/-! ## Ancestors -/

/-- Ancestors are tasks of the project that have children. -/
theorem ancestors_hasChildren {tasks : List Task} (hl : Linked tasks) {n i : Nat} {t : Task}
    (ht : tasks[i]? = some t) : ∀ a ∈ ancestorsWithin tasks n t.parent, a ∈ tasks ∧ a.hasChildren := by
  induction n generalizing i t with
  | zero => rintro a ⟨⟩
  | succ n ih =>
      intro a ha
      rw [ancestorsWithin] at ha
      split at ha
      · next b hb =>
          obtain ⟨j, hj, hb⟩ := Option.bind_eq_some_iff.mp hb
          rcases List.mem_cons.mp ha with rfl | ha
          · exact ⟨List.mem_of_getElem? hb, (hl.hasChildren_iff hb).mpr ⟨i, t, ht, hj⟩⟩
          · exact ih hb a ha
      · cases ha

/-- Ancestors stand before the task, each one before those below it. -/
theorem ancestors_sorted {tasks : List Task} (h : Placed tasks) {n i : Nat} {t : Task}
    (ht : tasks[i]? = some t) :
    (ancestorsWithin tasks n t.parent).Pairwise (fun a b => b.index < a.index)
      ∧ ∀ a ∈ ancestorsWithin tasks n t.parent, a.index < i := by
  induction n generalizing i t with
  | zero => exact ⟨List.Pairwise.nil, by rintro a ⟨⟩⟩
  | succ n ih =>
      rw [ancestorsWithin]
      split
      · next b hb =>
          obtain ⟨j, hj, hb⟩ := Option.bind_eq_some_iff.mp hb
          obtain ⟨hsorted, hbelow⟩ := ih hb
          have hindex := h.indexed j b hb
          have hlt : j < i := ((h.linked.parent i t ht j).mp hj).1.1
          refine ⟨List.pairwise_cons.mpr ⟨fun a ha => hindex ▸ hbelow a ha, hsorted⟩, ?_⟩
          intro a ha
          rcases List.mem_cons.mp ha with rfl | ha
          · omega
          · exact (hbelow a ha).trans hlt
      · exact ⟨List.Pairwise.nil, by rintro a ⟨⟩⟩

/-- Tasks in the same seats have ancestors in the same seats. -/
theorem bare_ancestors {tasks tasks' : List Task} (h : tasks.map Task.bare = tasks'.map Task.bare)
    (n : Nat) (parent : Option Nat) : (ancestorsWithin tasks n parent).map Task.bare
      = (ancestorsWithin tasks' n parent).map Task.bare := by
  induction n generalizing parent with
  | zero => rfl
  | succ n ih =>
      cases parent with
      | none => rfl
      | some j =>
          rw [ancestorsWithin, ancestorsWithin, Option.bind_some, Option.bind_some]
          cases ha : tasks[j]? with
          | none =>
              have hlength : tasks.length = tasks'.length := by simpa using congrArg List.length h
              rw [List.getElem?_eq_none (hlength ▸ List.getElem?_eq_none_iff.mp ha)]
          | some a =>
              obtain ⟨a', ha', hbare⟩ := exists_of_bare h.symm ha
              have hparent : a'.parent = a.parent := congrArg (·.parent) hbare
              rw [ha', List.map_cons, List.map_cons, hbare, hparent, ih a.parent]

theorem Project.bare_ancestors {p q : Project} (h : p.tasks.map Task.bare = q.tasks.map Task.bare)
    {t u : Task} (hparent : t.parent = u.parent) :
    (p.ancestors t).map Task.bare = (q.ancestors u).map Task.bare := by
  have hlength : p.tasks.length = q.tasks.length := by simpa using congrArg List.length h
  rw [ancestors, ancestors, hlength, hparent]
  exact Plan.bare_ancestors h _ _

/-! ## Scheduled leaves -/

/-- A task without children keeps the duration of its line, and the start if its line names one. -/
theorem schedule_leaf {tasks : List Outline.Task} {projectId : String} {origin : Date} {i : Nat}
    {t : Task} (ht : (schedule tasks projectId origin)[i]? = some t) (hleaf : t.hasChildren = false) :
    ∃ t₀, tasks[i]? = some t₀ ∧ t.line = t₀.line ∧ t.duration = t₀.duration
      ∧ t.explicitStart = t₀.explicitStart ∧ ∀ d ∈ t₀.explicitStart, t.start = d := by
  have hl := linked_link (Task.allOfOutline tasks projectId origin)
  have hplaced := placeTasks_of_leaf ht hleaf
  obtain ⟨t₁, ht₁⟩ := exists_of_placeTasks_getElem? hplaced
  obtain ⟨m, -, hday⟩ := placeTasks_getElem? hl origin ht₁
  obtain rfl := Option.some.inj (hplaced.symm.trans hday)
  rw [link_getElem?, allOfOutline_getElem?, Option.map_map, Option.map_eq_some_iff] at ht₁
  obtain ⟨t₀, ht₀, rfl⟩ := ht₁
  exact ⟨t₀, ht₀, rfl, rfl, rfl, fun d hd => Recursion.startDay_of_pinned hd _ origin m i⟩

theorem exists_of_leaf {o : Outline} {p : Project} (hp : p ∈ (ofOutline o).projects) {t : Task}
    (ht : t ∈ p.tasks) (hleaf : t.hasChildren = false) :
    ∃ p₀ ∈ o.projects, ∃ t₀ ∈ p₀.tasks, t.line = t₀.line ∧ t.duration = t₀.duration
      ∧ t.explicitStart = t₀.explicitStart ∧ ∀ d ∈ t₀.explicitStart, t.start = d := by
  obtain ⟨k, hk⟩ := List.getElem?_of_mem hp
  rw [projects_getElem?, Option.map_eq_some_iff] at hk
  obtain ⟨p₀, hp₀, rfl⟩ := hk
  obtain ⟨i, hi⟩ := List.getElem?_of_mem ht
  have hi : (schedule p₀.tasks (projectId k) o.start)[i]? = some t := hi
  obtain ⟨t₀, ht₀, hsame⟩ := schedule_leaf hi hleaf
  exact ⟨p₀, List.mem_of_getElem? hp₀, t₀, List.mem_of_getElem? ht₀, hsame⟩

theorem settled_of_mem {o : Outline} (hpos : ∀ p ∈ o.projects, ∀ t ∈ p.tasks, 0 ≤ t.duration)
    {p : Project} (hp : p ∈ (ofOutline o).projects) : p.Settled o.start := by
  obtain ⟨k, hk⟩ := List.getElem?_of_mem hp
  rw [projects_getElem?, Option.map_eq_some_iff] at hk
  obtain ⟨p₀, hp₀, rfl⟩ := hk
  exact settled_ofOutline (hpos p₀ (List.mem_of_getElem? hp₀)) k o.start

end Roadmap.Plan
