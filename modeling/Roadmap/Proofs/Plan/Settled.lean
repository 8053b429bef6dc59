import Roadmap.Plan.Drag
import Roadmap.Proofs.Plan.Cover
import Roadmap.Proofs.Plan.Recursion

/-!
# Settled projects

A project is *settled* when its links are those of its levels, each parent covers exactly its
children, every other task takes up the days of its duration, and the project's bounds are those of
its tasks. Scheduling an outline gives settled projects, and a drag keeps them settled.

Both end with `reconcile`, which only needs linked tasks whose leaves take up their days
(`Placed`): placing gives that, and so do moving one task and pushing others. What happens to the
days of parents on the way does not matter.
-/

namespace Roadmap.Plan

/-! ## The invariants -/

/-- The days that `f` reads off the direct children of the task at `i`. -/
def childDays (tasks : List Task) (i : Nat) (f : Task → Date) : Set Date :=
  {d | ∃ (j : Nat) (c : Task), tasks[j]? = some c ∧ c.parent = some i ∧ f c = d}

/-- Linked tasks whose leaves take up their days, before parents are fitted. -/
structure Placed (tasks : List Task) : Prop where
  linked : Linked tasks
  indexed : ∀ (i : Nat) (t : Task), tasks[i]? = some t → t.index = i
  leaf : ∀ t ∈ tasks, t.hasChildren = false → t.finish = t.start.shift t.duration
  lasting : ∀ t ∈ tasks, 0 ≤ t.duration

structure Settled (tasks : List Task) : Prop extends Placed tasks where
  cover : ∀ (i : Nat) (t : Task), tasks[i]? = some t → t.hasChildren →
    IsLeast (childDays tasks i (·.start)) t.start
      ∧ IsGreatest (childDays tasks i (·.finish)) t.finish
      ∧ t.duration = max 1 (t.start.daysTo t.finish)
  forward : ∀ t ∈ tasks, t.start ≤ t.finish

/-- The tasks of the project are settled and its bounds are theirs, or `fallback` if it has no
task. -/
structure Project.Settled (p : Project) (fallback : Date) : Prop where
  tasks : Plan.Settled p.tasks
  bounds : p.tasks ≠ [] →
    IsLeast {d | ∃ t ∈ p.tasks, t.start = d} p.start
      ∧ IsGreatest {d | ∃ t ∈ p.tasks, t.finish = d} p.finish
  empty : p.tasks = [] → p.start = fallback ∧ p.finish = fallback

/-! ## Fitting settles -/

theorem mem_childrenIn {tasks : List Task} (hl : Linked tasks) {i : Nat} {t : Task}
    (ht : tasks[i]? = some t) {later : List Task} (hagree : Agree later tasks) (c : Task) :
    c ∈ t.childrenIn later ↔ ∃ j : Nat, later[j]? = some c ∧ c.parent = some i := by
  simp only [Task.childrenIn, List.mem_filterMap, hl.children i t ht]
  constructor
  · rintro ⟨j, ⟨c', hc', hp⟩, hc⟩
    obtain ⟨c'', hc'', hu⟩ := hagree.exists hc
    obtain rfl := Option.some.inj (hc'.symm.trans hc'')
    exact ⟨j, hc, (Task.parent_of_undated hu).symm.trans hp⟩
  · rintro ⟨j, hc, hp⟩
    obtain ⟨c', hc', hu⟩ := hagree.exists hc
    exact ⟨j, ⟨c', hc', (Task.parent_of_undated hu).trans hp⟩, hc⟩

/-- A parent is fitted to its children as they are in the result. -/
theorem reconcile_cover {tasks : List Task} (hl : Linked tasks) {i : Nat} {t : Task}
    (ht : (reconcile tasks)[i]? = some t) (hc : t.hasChildren) :
    IsLeast (childDays (reconcile tasks) i (·.start)) t.start
      ∧ IsGreatest (childDays (reconcile tasks) i (·.finish)) t.finish
      ∧ t.duration = max 1 (t.start.daysTo t.finish) := by
  have hagree := agree_reconcile tasks
  obtain ⟨t₀, ht₀, hu⟩ := hagree.exists ht
  have hc₀ : t₀.hasChildren := by
    rwa [Task.hasChildren, Task.children_of_undated hu]
  have heq := reconcile_getElem? hl ht₀
  rw [ht, if_pos hc₀] at heq
  have hmem := mem_childrenIn hl ht₀ hagree
  have hdays : ∀ f : Task → Date,
      {d | d ∈ (t₀.childrenIn (reconcile tasks)).map f} = childDays (reconcile tasks) i f := by
    intro f
    ext d
    constructor
    · intro hd
      obtain ⟨c, hc, rfl⟩ := List.mem_map.mp hd
      obtain ⟨j, hj, hp⟩ := (hmem c).mp hc
      exact ⟨j, c, hj, hp, rfl⟩
    · rintro ⟨j, c, hj, hp, rfl⟩
      exact List.mem_map.mpr ⟨c, (hmem c).mpr ⟨j, hj, hp⟩, rfl⟩
  have hsome : ∀ f : Task → Date, (t₀.childrenIn (reconcile tasks)).map f ≠ [] := by
    intro f hnil
    have hl' := hl.of_agree hagree
    obtain ⟨j, c, hj, hp⟩ := (hl'.hasChildren_iff ht).mp hc
    have := (hmem c).mpr ⟨j, hj, hp⟩
    rw [List.map_eq_nil_iff.mp hnil] at this
    cases this
  obtain rfl := Option.some.inj heq
  refine ⟨?_, ?_, rfl⟩
  · rw [← hdays]
    exact Date.isLeast_earliest _ (hsome _)
  · rw [← hdays]
    exact Date.isGreatest_latest _ (hsome _)

theorem reconcile_leaf {tasks : List Task} (hl : Linked tasks) {i : Nat} {t : Task}
    (ht : (reconcile tasks)[i]? = some t) (hc : t.hasChildren = false) : tasks[i]? = some t := by
  obtain ⟨t₀, ht₀, hu⟩ := (agree_reconcile tasks).exists ht
  have hchildren := Task.children_of_undated hu
  have heq := reconcile_getElem? hl ht₀
  rw [if_neg (by rw [Task.hasChildren, hchildren, ← Task.hasChildren, hc]; simp), ht] at heq
  rw [ht₀, heq]

theorem reconcile_leaf_days {tasks : List Task} (h : Placed tasks) {i : Nat} {t : Task}
    (ht : (reconcile tasks)[i]? = some t) (hc : t.hasChildren = false) :
    t.finish = t.start.shift t.duration ∧ 0 ≤ t.duration := by
  have hmem := List.mem_of_getElem? (reconcile_leaf h.linked ht hc)
  exact ⟨h.leaf t hmem hc, h.lasting t hmem⟩

/-- By induction on how far a task is from the end: a parent spans its children, which stand after
it. -/
theorem reconcile_forward {tasks : List Task} (h : Placed tasks) {n i : Nat} {t : Task}
    (hn : tasks.length - i ≤ n) (ht : (reconcile tasks)[i]? = some t) : t.start ≤ t.finish := by
  have hl := h.linked
  have hagree := agree_reconcile tasks
  have hlinked := hl.of_agree hagree
  have hin : ∀ {j : Nat} {s : Task}, (reconcile tasks)[j]? = some s → j < tasks.length :=
    fun hs => hagree.length ▸ (List.getElem?_eq_some_iff.mp hs).1
  induction n generalizing i t with
  | zero =>
      have := hin ht
      omega
  | succ n ih =>
      cases hc : t.hasChildren with
      | false =>
          obtain ⟨hdays, hpos⟩ := reconcile_leaf_days h ht hc
          rw [hdays]
          exact t.start.le_shift hpos
      | true =>
          obtain ⟨hstart, hfinish, -⟩ := reconcile_cover hl ht hc
          obtain ⟨j, c, hj, hp⟩ := (hlinked.hasChildren_iff ht).mp hc
          have hij : i < j := ((hlinked.parent j c hj i).mp hp).1.1
          have hj' := hin hj
          calc t.start ≤ c.start := hstart.2 ⟨j, c, hj, hp, rfl⟩
            _ ≤ c.finish := ih (by omega) hj
            _ ≤ t.finish := hfinish.2 ⟨j, c, hj, hp, rfl⟩

theorem settled_reconcile {tasks : List Task} (h : Placed tasks) : Settled (reconcile tasks) := by
  have hagree := agree_reconcile tasks
  refine ⟨⟨h.linked.of_agree hagree, fun i t ht => ?_, fun t ht hc => ?_, fun t ht => ?_⟩,
    fun i t ht hc => reconcile_cover h.linked ht hc, fun t ht => ?_⟩
  · obtain ⟨t₀, ht₀, hu⟩ := hagree.exists ht
    exact (Task.index_of_undated hu).symm.trans (h.indexed i t₀ ht₀)
  all_goals obtain ⟨i, hi⟩ := List.getElem?_of_mem ht
  · exact (reconcile_leaf_days h hi hc).1
  · cases hc : t.hasChildren with
    | false => exact (reconcile_leaf_days h hi hc).2
    | true =>
        rw [(reconcile_cover h.linked hi hc).2.2]
        exact le_trans zero_le_one (le_max_left _ _)
  · exact reconcile_forward h (Nat.le_refl _) hi

theorem settled_withBounds {p : Project} (h : Settled p.tasks) (fallback : Date) :
    (p.withBounds fallback).Settled fallback := by
  refine ⟨h, fun hne => ⟨?_, ?_⟩, fun hnil => ?_⟩
  · have hstart : p.tasks.map (·.start) ≠ [] := fun h => hne (List.map_eq_nil_iff.mp h)
    show IsLeast {d | ∃ t ∈ p.tasks, t.start = d}
      (Date.earliest fallback (p.tasks.map (·.start)))
    simpa only [List.mem_map] using Date.isLeast_earliest fallback hstart
  · have hfinish : p.tasks.map (·.finish) ≠ [] := fun h => hne (List.map_eq_nil_iff.mp h)
    show IsGreatest {d | ∃ t ∈ p.tasks, t.finish = d}
      (Date.latest fallback (p.tasks.map (·.finish)))
    simpa only [List.mem_map] using Date.isGreatest_latest fallback hfinish
  · have hnil : p.tasks = [] := hnil
    rw [Project.withBounds, hnil]
    exact ⟨rfl, rfl⟩

/-! ## Scheduling settles -/

/-- The tasks of a project of the outline, before they are linked. -/
def Task.allOfOutline (tasks : List Outline.Task) (projectId : String) (origin : Date) :
    List Task :=
  tasks.zipIdx.map fun (t, i) => Task.ofOutline t projectId i origin

theorem schedule_eq (tasks : List Outline.Task) (projectId : String) (origin : Date) :
    schedule tasks projectId origin
      = reconcile (placeTasks (link (Task.allOfOutline tasks projectId origin)) origin) := rfl

theorem allOfOutline_getElem? (tasks : List Outline.Task) (projectId : String) (origin : Date)
    (i : Nat) :
    (Task.allOfOutline tasks projectId origin)[i]?
      = tasks[i]?.map fun t => Task.ofOutline t projectId i origin := by
  simp [Task.allOfOutline, List.getElem?_zipIdx, Function.comp_def]

theorem exists_of_placeTasks_getElem? {tasks : List Task} {origin : Date} {i : Nat} {t : Task}
    (ht : (placeTasks tasks origin)[i]? = some t) : ∃ t₀, tasks[i]? = some t₀ := by
  have hi := (List.getElem?_eq_some_iff.mp ht).1
  have := length_placeTasks tasks origin
  exact ⟨tasks[i], List.getElem?_eq_getElem (by omega)⟩

theorem agree_placeTasks {tasks : List Task} (hl : Linked tasks) (origin : Date) :
    Agree (placeTasks tasks origin) tasks := by
  refine List.ext_getElem? fun i => ?_
  rw [List.getElem?_map, List.getElem?_map]
  cases ht : tasks[i]? with
  | none =>
      have hi := List.getElem?_eq_none_iff.mp ht
      have := length_placeTasks tasks origin
      rw [List.getElem?_eq_none (by omega)]
  | some t =>
      obtain ⟨m, -, hplace⟩ := placeTasks_getElem? hl origin ht
      rw [hplace]
      rfl

theorem agree_schedule (tasks : List Outline.Task) (projectId : String) (origin : Date) :
    Agree (schedule tasks projectId origin) (link (Task.allOfOutline tasks projectId origin)) :=
  (agree_reconcile _).trans (agree_placeTasks (linked_link _) origin)

theorem levels_allOfOutline (tasks : List Outline.Task) (projectId : String) (origin : Date) :
    (Task.allOfOutline tasks projectId origin).map (·.level) = tasks.map (·.level) := by
  refine List.ext_getElem? fun i => ?_
  rw [List.getElem?_map, allOfOutline_getElem?, List.getElem?_map, Option.map_map]
  rfl

theorem levels_schedule (tasks : List Outline.Task) (projectId : String) (origin : Date) :
    (schedule tasks projectId origin).map (·.level) = tasks.map (·.level) := by
  have hmap := congrArg (List.map (·.level)) (agree_schedule tasks projectId origin)
  rw [List.map_map, List.map_map] at hmap
  exact hmap.trans ((levels_link _).trans (levels_allOfOutline tasks projectId origin))

/-- Nothing fits a task without children, so it is where it has been placed. -/
theorem placeTasks_of_leaf {tasks : List Outline.Task} {projectId : String} {origin : Date} {i : Nat}
    {t : Task} (ht : (schedule tasks projectId origin)[i]? = some t) (hleaf : t.hasChildren = false) :
    (placeTasks (link (Task.allOfOutline tasks projectId origin)) origin)[i]? = some t :=
  reconcile_leaf ((linked_link _).of_agree (agree_placeTasks (linked_link _) origin)) ht hleaf

theorem placed_placeTasks {tasks : List Task} (hl : Linked tasks)
    (hindex : ∀ (i : Nat) (t : Task), tasks[i]? = some t → t.index = i)
    (hpos : ∀ t ∈ tasks, 0 ≤ t.duration) (origin : Date) : Placed (placeTasks tasks origin) := by
  have hplace : ∀ {i : Nat} {t : Task}, (placeTasks tasks origin)[i]? = some t →
      t.index = i ∧ t.finish = t.start.shift t.duration ∧ 0 ≤ t.duration := by
    intro i t ht
    obtain ⟨t₀, ht₀⟩ := exists_of_placeTasks_getElem? ht
    obtain ⟨m, -, hm⟩ := placeTasks_getElem? hl origin ht₀
    obtain rfl := Option.some.inj (hm.symm.trans ht)
    exact ⟨hindex i t₀ ht₀, rfl, hpos t₀ (List.mem_of_getElem? ht₀)⟩
  refine ⟨hl.of_agree (agree_placeTasks hl origin), fun i t ht => (hplace ht).1,
    fun t ht _ => ?_, fun t ht => ?_⟩
  all_goals obtain ⟨i, hi⟩ := List.getElem?_of_mem ht
  · exact (hplace hi).2.1
  · exact (hplace hi).2.2

theorem settled_schedule {tasks : List Outline.Task} (hpos : ∀ t ∈ tasks, 0 ≤ t.duration)
    (projectId : String) (origin : Date) : Settled (schedule tasks projectId origin) := by
  have horig : ∀ {i : Nat} {t : Task},
      (link (Task.allOfOutline tasks projectId origin))[i]? = some t →
      t.index = i ∧ 0 ≤ t.duration := by
    intro i t ht
    rw [link_getElem?, allOfOutline_getElem?, Option.map_map, Option.map_eq_some_iff] at ht
    obtain ⟨t₀, ht₀, rfl⟩ := ht
    exact ⟨rfl, hpos t₀ (List.mem_of_getElem? ht₀)⟩
  rw [schedule_eq]
  refine settled_reconcile (placed_placeTasks (linked_link _) (fun i t ht => (horig ht).1)
    (fun t ht => ?_) origin)
  obtain ⟨i, hi⟩ := List.getElem?_of_mem ht
  exact (horig hi).2

theorem settled_ofOutline {p : Outline.Project} (hpos : ∀ t ∈ p.tasks, 0 ≤ t.duration)
    (index : Nat) (origin : Date) : (Project.ofOutline p index origin).Settled origin := by
  rw [Project.ofOutline]
  exact settled_withBounds (settled_schedule hpos (projectId index) origin) origin

/-! ## Drags keep projects settled -/

theorem push_induction {P : List Task → Prop}
    (step : ∀ (tasks : List Task) (p : Push) (source : Task), P tasks → P (p.apply source tasks))
    {tasks : List Task} (h : P tasks) (stack : List Push) : P (push tasks stack) := by
  fun_induction push with
  | case1 => exact h
  | case2 tasks p rest hnone ih => exact ih h
  | case3 tasks p rest source hsource ih => exact ih (step tasks p source h)

theorem agree_apply (p : Push) (source : Task) (tasks : List Task) :
    Agree (p.apply source tasks) tasks := by
  rw [Agree, Push.apply, List.map_map]
  refine List.map_congr_left fun t _ => ?_
  rw [Function.comp_apply]
  split
  · rfl
  · rfl

theorem agree_pushDependents (tasks : List Task) (index : Nat) :
    Agree (pushDependents tasks index) tasks :=
  push_induction (P := fun later => Agree later tasks)
    (fun later p source h => (agree_apply p source later).trans h) (Agree.refl tasks) _

theorem placed_apply {tasks : List Task} (h : Placed tasks) (p : Push) (source : Task) :
    Placed (p.apply source tasks) := by
  have hagree := agree_apply p source tasks
  refine ⟨h.linked.of_agree hagree, fun i t ht => ?_, fun t ht hc => ?_, fun t ht => ?_⟩
  · obtain ⟨t₀, ht₀, hu⟩ := hagree.exists ht
    exact (Task.index_of_undated hu).symm.trans (h.indexed i t₀ ht₀)
  all_goals
    obtain ⟨t₀, ht₀, rfl⟩ := List.mem_map.mp ht
  · by_cases hm : p.moves source t₀
    · rw [if_pos hm]
      rfl
    · rw [if_neg hm] at hc ⊢
      exact h.leaf t₀ ht₀ hc
  · split
    · exact h.lasting t₀ ht₀
    · exact h.lasting t₀ ht₀

theorem lasting_dragged {t : Task} (h : 0 ≤ t.duration) (d : Drag) :
    0 ≤ (t.dragged d).duration := by
  obtain ⟨id, start, duration⟩ := d
  cases duration with
  | none => exact h
  | some n => exact le_max_left 0 n

theorem levels_set_dragged {tasks : List Task} {t : Task} (ht : tasks[t.index]? = some t)
    (d : Drag) : (tasks.set t.index (t.dragged d)).map (·.level) = tasks.map (·.level) := by
  refine List.ext_getElem? fun i => ?_
  rw [List.getElem?_map, List.getElem?_map]
  by_cases hi : t.index = i
  · subst hi
    rw [List.getElem?_set_self (List.getElem?_eq_some_iff.mp ht).1, ht]
    rfl
  · rw [List.getElem?_set_ne hi]

/-- Moving one task leaves the levels alone, so leaves stay leaves. -/
theorem placed_link_set {tasks : List Task} (h : Settled tasks) {t : Task} (ht : t ∈ tasks)
    (d : Drag) : Placed (link (tasks.set t.index (t.dragged d))) := by
  obtain ⟨k, hk⟩ := List.getElem?_of_mem ht
  obtain rfl := h.indexed k t hk
  have hlevel := levels_set_dragged hk d
  have hlinked := linked_link (tasks.set t.index (t.dragged d))
  -- what stands at a place of the result: the dragged task or an untouched one, newly linked
  have hcases : ∀ {i : Nat} {s : Task}, (link (tasks.set t.index (t.dragged d)))[i]? = some s →
      s.index = i ∧ 0 ≤ s.duration
        ∧ (s.hasChildren = false → s.finish = s.start.shift s.duration) := by
    intro i s hs
    have hs' := hs
    rw [link_getElem?, Option.map_eq_some_iff] at hs'
    obtain ⟨s₀, hs₀, hlink⟩ := hs'
    by_cases hi : t.index = i
    · subst hi
      rw [List.getElem?_set_self (List.getElem?_eq_some_iff.mp hk).1] at hs₀
      obtain rfl := Option.some.inj hs₀
      subst hlink
      exact ⟨rfl, lasting_dragged (h.lasting t ht) d, fun _ => rfl⟩
    · rw [List.getElem?_set_ne hi] at hs₀
      have hmem := List.mem_of_getElem? hs₀
      have hchildren := (hlinked.ext h.linked ((levels_link _).trans hlevel) hs hs₀).2
      have hleaf : s.hasChildren = s₀.hasChildren := by
        rw [Task.hasChildren, Task.hasChildren, hchildren]
      subst hlink
      exact ⟨h.indexed i s₀ hs₀, h.lasting s₀ hmem, fun hc => h.leaf s₀ hmem (hleaf ▸ hc)⟩
  refine ⟨hlinked, fun i s hs => (hcases hs).1, fun s hs hc => ?_, fun s hs => ?_⟩
  all_goals obtain ⟨i, hi⟩ := List.getElem?_of_mem hs
  · exact (hcases hi).2.2 hc
  · exact (hcases hi).2.1

theorem placed_pushDependents {tasks : List Task} (h : Settled tasks) {t : Task} (ht : t ∈ tasks)
    (d : Drag) :
    Placed (pushDependents (link (tasks.set t.index (t.dragged d))) t.index) :=
  push_induction (P := Placed) (fun _ p source h => placed_apply h p source)
    (placed_link_set h ht d) _

theorem settled_drag {p : Project} {fallback : Date} (h : p.Settled fallback) {t : Task}
    (ht : t ∈ p.tasks) (d : Drag) : (p.drag t d).Settled fallback := by
  have hplaced := placed_pushDependents h.tasks ht d
  have hs : (p.drag t d).Settled p.start := settled_withBounds (settled_reconcile hplaced) p.start
  refine ⟨hs.tasks, hs.bounds, fun hnil => absurd hnil (List.ne_nil_of_length_pos ?_)⟩
  show 0 < (reconcile (pushDependents (link (p.tasks.set t.index (t.dragged d))) t.index)).length
  rw [(agree_reconcile _).length, (agree_pushDependents _ _).length, length_link, List.length_set]
  exact List.length_pos_of_mem ht

/-- A drag changes at most one project, the first that has the task. -/
theorem drag_forall {P : Project → Prop} {d : Drag}
    (step : ∀ (p : Project) (t : Task), t ∈ p.tasks → P p → P (p.drag t d)) {ps : List Project}
    (h : ∀ p ∈ ps, P p) : ∀ p ∈ (drag d ps).projects, P p := by
  induction ps with
  | nil => exact h
  | cons q ps ih =>
      have hq := h q List.mem_cons_self
      have hps := fun p hp => h p (List.mem_cons_of_mem q hp)
      rw [drag]
      split
      · next t hfind =>
          intro p hp
          rcases List.mem_cons.mp hp with rfl | hp
          · exact step q t (List.mem_of_find?_eq_some hfind) hq
          · exact hps p hp
      · intro p hp
        rcases List.mem_cons.mp hp with rfl | hp
        · exact hq
        · exact ih hps p hp

/-- The projects of a scheduled outline after some drags, each of which moves a task of the
projects that the one before it left. -/
def afterDrags (o : Outline) (ds : List Drag) : List Project :=
  ds.foldl (fun ps d => (drag d ps).projects) (ofOutline o).projects

theorem afterDrags_induction {P : List Project → Prop} {o : Outline} (h : P (ofOutline o).projects)
    (step : ∀ (ps : List Project) (d : Drag), P ps → P (drag d ps).projects) (ds : List Drag) :
    P (afterDrags o ds) := by
  rw [afterDrags]
  generalize (ofOutline o).projects = ps at h
  induction ds generalizing ps with
  | nil => exact h
  | cons d ds ih => exact ih _ (step ps d h)

/-- However often and wherever tasks are dragged, every project stays settled. As the drags are
any list, this holds after each of them. -/
theorem settled_afterDrags {o : Outline}
    (hpos : ∀ p ∈ o.projects, ∀ t ∈ p.tasks, 0 ≤ t.duration) (ds : List Drag) :
    ∀ p ∈ afterDrags o ds, p.Settled o.start := by
  have hrun : ∀ {ps : List Project}, (∀ p ∈ ps, p.Settled o.start) →
      ∀ p ∈ ds.foldl (fun ps d => (drag d ps).projects) ps, p.Settled o.start := by
    induction ds with
    | nil => exact fun h => h
    | cons d ds ih =>
        exact fun h => ih (drag_forall (fun p t ht hp => settled_drag hp ht d) h)
  refine hrun fun p hp => ?_
  obtain ⟨⟨q, i⟩, hq, rfl⟩ := List.mem_map.mp hp
  exact settled_ofOutline (hpos q (List.fst_mem_of_mem_zipIdx hq)) i o.start

/-- A hall whose walls wait for the paint of the hall that has them, and whose wiring and lights
wait for each other. -/
def hall : Outline where
  start := ⟨738000, by decide, by decide⟩
  projects := [{
    name := "Hall"
    tasks := [
      { level := 1, title := "Shell", duration := 0 },
      { level := 2, title := "Walls", duration := 3, dependencies := [4] },
      { level := 2, title := "Roof", duration := 2 },
      { level := 1, title := "Paint", duration := 1, dependencies := [1] },
      { level := 1, title := "Wiring", duration := 2, dependencies := [6] },
      { level := 1, title := "Lights", duration := 1, dependencies := [5] }] }]

/-- The roof is torn down early. -/
theorem settled_afterDrags_hall :
    (∀ p ∈ hall.projects, ∀ t ∈ p.tasks, 0 ≤ t.duration)
      ∧ ∃ p ∈ afterDrags hall [⟨"project-0-task-2", ⟨738001, by decide, by decide⟩, some (-4)⟩],
        p.tasks.length = 6 ∧ p.Settled hall.start := by
  have hpos : ∀ p ∈ hall.projects, ∀ t ∈ p.tasks, 0 ≤ t.duration := by decide
  have hlength : ((afterDrags hall
      [⟨"project-0-task-2", ⟨738001, by decide, by decide⟩, some (-4)⟩]).map
        (·.tasks.length)) = [6] := by cbv
  refine ⟨hpos, ?_⟩
  obtain ⟨p, hp, hsix⟩ := List.mem_map.mp (hlength ▸ List.mem_cons_self)
  exact ⟨p, hp, hsix, settled_afterDrags hpos _ p hp⟩

end Roadmap.Plan
