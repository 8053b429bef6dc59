import Roadmap.Proofs.Outline.Frame
import Roadmap.Proofs.Plan.Settled

/-!
# Places of tasks in a plan

Ids, positions and links of scheduled tasks come from the frame of the outline alone
(`seats_ofOutline`): texts, durations and days have no part in them. Ids tell tasks apart, and so
do lines, so looking a task up by either finds the one task that has it.
-/

namespace Roadmap.Plan

/-! ## Ids -/

theorem toList_projectId (k : Nat) :
    (projectId k).toList = "project-".toList ++ Nat.toDigits 10 k := by
  rw [projectId, String.toList_append]
  congr 1
  exact Nat.toList_repr

theorem toList_taskId (k i : Nat) : (taskId (projectId k) i).toList
    = "project-".toList ++ (Nat.toDigits 10 k ++ '-' :: ("task-".toList ++ Nat.toDigits 10 i)) := by
  rw [taskId, String.toList_append, String.toList_append, toList_projectId]
  have hi : (toString i).toList = Nat.toDigits 10 i := Nat.toList_repr
  rw [hi, List.append_assoc, List.append_assoc]
  rfl

theorem toDigits_injective {m n : Nat} (h : Nat.toDigits 10 m = Nat.toDigits 10 n) : m = n := by
  rw [← Nat.ofDigitChars_ten_toDigits (n := m), h, Nat.ofDigitChars_ten_toDigits]

theorem projectId_injective {k k' : Nat} (h : projectId k = projectId k') : k = k' := by
  have hlist := congrArg String.toList h
  rw [toList_projectId, toList_projectId] at hlist
  exact toDigits_injective (List.append_cancel_left hlist)

/-- The dash after the digits of the project's number ends them, so both numbers can be read off a
task's id. -/
theorem taskId_injective {k i k' i' : Nat}
    (h : taskId (projectId k) i = taskId (projectId k') i') : k = k' ∧ i = i' := by
  have hdigits : ∀ n, ∀ c ∈ Nat.toDigits 10 n, c.isDigit :=
    fun n c hc => Nat.isDigit_of_mem_toDigits (by decide) (by decide) hc
  have hstop : ∀ {rest : List Char}, ∀ c ∈ ('-' :: rest).head?, c.isDigit = false := by
    rintro rest c ⟨⟩
    rfl
  have hlist := congrArg String.toList h
  rw [toList_taskId, toList_taskId] at hlist
  have hlist := List.append_cancel_left hlist
  have htake := congrArg (List.takeWhile Char.isDigit) hlist
  rw [Text.takeWhile_append_stop (hdigits k) hstop,
    Text.takeWhile_append_stop (hdigits k') hstop] at htake
  rw [htake] at hlist
  have htail := (List.cons.inj (List.append_cancel_left hlist)).2
  exact ⟨toDigits_injective htake, toDigits_injective (List.append_cancel_left htail)⟩

/-! ## Bare plans -/

/-- The task without its texts, modifiers and days. -/
def Task.bare (t : Task) : Task where
  level := t.level
  title := ""
  duration := 0
  line := t.line
  id := t.id
  projectId := t.projectId
  index := t.index
  start := Date.first
  finish := Date.first
  parent := t.parent
  children := t.children

theorem exists_of_bare {xs ys : List Task} (h : xs.map Task.bare = ys.map Task.bare) {i : Nat}
    {t : Task} (ht : ys[i]? = some t) : ∃ s, xs[i]? = some s ∧ s.bare = t.bare := by
  have hi := congrArg (·[i]?) h
  simp only [List.getElem?_map, ht, Option.map_some] at hi
  exact Option.map_eq_some_iff.mp hi

theorem Agree.bare {xs ys : List Task} (h : Agree xs ys) : xs.map Task.bare = ys.map Task.bare := by
  have hmap := congrArg (List.map Task.bare) h
  rwa [List.map_map, List.map_map] at hmap

theorem bare_schedule {tasks tasks' : List Outline.Task}
    (h : tasks.map Outline.Task.bare = tasks'.map Outline.Task.bare) (projectId : String)
    (origin origin' : Date) : (schedule tasks projectId origin).map Task.bare
      = (schedule tasks' projectId origin').map Task.bare := by
  have hlevels : tasks.map (·.level) = tasks'.map (·.level) := by
    have hmap := congrArg (List.map (·.level)) h
    rwa [List.map_map, List.map_map] at hmap
  rw [(agree_schedule tasks projectId origin).bare, (agree_schedule tasks' projectId origin').bare]
  refine List.ext_getElem? fun i => ?_
  have hi := congrArg (·[i]?) h
  rw [List.getElem?_map, List.getElem?_map, link_getElem?, link_getElem?, levels_allOfOutline,
    levels_allOfOutline, hlevels, allOfOutline_getElem?, allOfOutline_getElem?]
  simp only [List.getElem?_map] at hi
  cases ht : tasks[i]? with
  | none =>
      rw [ht, Option.map_none] at hi
      rw [Option.map_eq_none_iff.mp hi.symm]
      rfl
  | some t =>
      rw [ht, Option.map_some] at hi
      obtain ⟨t', ht', hbare⟩ := Option.map_eq_some_iff.mp hi.symm
      rw [ht']
      have hline : t'.line = t.line := congrArg (·.line) hbare
      have hlevel : t'.level = t.level := congrArg (·.level) hbare
      simp only [Option.map_some, Task.linkAt, Task.ofOutline, Task.bare, hline, hlevel]

/-- A project's id with its bare tasks. -/
def Project.seats (p : Project) : String × List Task := (p.id, p.tasks.map Task.bare)

theorem Project.seats_ofOutline (p : Outline.Project) (index : Nat) (origin : Date) :
    (Project.ofOutline p index origin).seats
      = (projectId index, (schedule p.tasks (projectId index) origin).map Task.bare) := rfl

theorem projects_getElem? (o : Outline) (k : Nat) :
    (ofOutline o).projects[k]? = o.projects[k]?.map fun p => Project.ofOutline p k o.start := by
  simp [ofOutline, List.getElem?_zipIdx, Function.comp_def]

/-- A project stands at one place only. -/
theorem eq_of_projects_getElem? {o : Outline} {k k' : Nat} {p : Project}
    (hk : (ofOutline o).projects[k]? = some p) (hk' : (ofOutline o).projects[k']? = some p) :
    k = k' := by
  rw [projects_getElem?, Option.map_eq_some_iff] at hk hk'
  obtain ⟨p₀, -, rfl⟩ := hk
  obtain ⟨p₁, -, heq⟩ := hk'
  exact projectId_injective (congrArg Project.id heq).symm

/-- Outlines of one frame have plans whose tasks sit in the same places. -/
theorem seats_ofOutline {o o' : Outline}
    (h : o.projects.map Outline.Project.bare = o'.projects.map Outline.Project.bare) :
    (ofOutline o).projects.map Project.seats = (ofOutline o').projects.map Project.seats := by
  refine List.ext_getElem? fun k => ?_
  have hk := congrArg (·[k]?) h
  simp only [List.getElem?_map] at hk
  rw [List.getElem?_map, List.getElem?_map, projects_getElem?, projects_getElem?, Option.map_map,
    Option.map_map]
  cases hp : o.projects[k]? with
  | none =>
      rw [hp, Option.map_none] at hk
      rw [Option.map_eq_none_iff.mp hk.symm, Option.map_none, Option.map_none]
  | some p =>
      rw [hp, Option.map_some] at hk
      obtain ⟨p', hp', hbare⟩ := Option.map_eq_some_iff.mp hk.symm
      have htasks : p'.tasks.map Outline.Task.bare = p.tasks.map Outline.Task.bare :=
        congrArg (·.tasks) hbare
      rw [hp', Option.map_some, Option.map_some, Function.comp_apply, Function.comp_apply,
        Project.seats_ofOutline, Project.seats_ofOutline,
        bare_schedule htasks (projectId k) o'.start o.start]

/-! ## Looking up -/

/-- What a scheduled task has from the outline. -/
theorem exists_of_schedule_getElem? {tasks : List Outline.Task} {projectId : String}
    {origin : Date} {i : Nat} {t : Task} (ht : (schedule tasks projectId origin)[i]? = some t) :
    ∃ t₀, tasks[i]? = some t₀ ∧ t.undated = ((Task.ofOutline t₀ projectId i origin).linkAt
      (tasks.map (·.level)) i).undated := by
  obtain ⟨t', ht', hu⟩ := (agree_schedule tasks projectId origin).exists ht
  rw [link_getElem?, allOfOutline_getElem?, Option.map_map, levels_allOfOutline,
    Option.map_eq_some_iff] at ht'
  obtain ⟨t₀, ht₀, rfl⟩ := ht'
  exact ⟨t₀, ht₀, hu.symm⟩

/-- The place of a task of a plan, and the task of the outline that it comes from. -/
theorem exists_place {o : Outline} {p : Project} (hp : p ∈ (ofOutline o).projects) {t : Task}
    (ht : t ∈ p.tasks) : ∃ (k : Nat) (p₀ : Outline.Project) (t₀ : Outline.Task),
      (ofOutline o).projects[k]? = some p ∧ o.projects[k]? = some p₀ ∧ p₀.tasks[t.index]? = some t₀
        ∧ p.tasks[t.index]? = some t ∧ p.id = projectId k ∧ t.projectId = p.id
        ∧ t.id = taskId (projectId k) t.index ∧ t.line = t₀.line := by
  obtain ⟨k, hk⟩ := List.getElem?_of_mem hp
  have hk' := hk
  rw [projects_getElem?, Option.map_eq_some_iff] at hk'
  obtain ⟨p₀, hp₀, rfl⟩ := hk'
  obtain ⟨i, hi⟩ := List.getElem?_of_mem ht
  have hi : (schedule p₀.tasks (projectId k) o.start)[i]? = some t := hi
  obtain ⟨t₀, ht₀, hu⟩ := exists_of_schedule_getElem? hi
  have hindex : t.index = i := congrArg Task.index hu
  have hid : t.id = taskId (projectId k) i := congrArg Task.id hu
  have hproject : t.projectId = projectId k := congrArg Task.projectId hu
  have hline : t.line = t₀.line := congrArg (·.line) hu
  subst hindex
  exact ⟨k, p₀, t₀, hk, hp₀, ht₀, hi, rfl, hproject, hid, hline⟩

/-- The tasks of the projects can be told apart by their ids, and by their lines. -/
structure Distinct (ps : List Project) : Prop where
  project : (ps.map (·.id)).Nodup
  id : ∀ p ∈ ps, ∀ q ∈ ps, ∀ s ∈ p.tasks, ∀ t ∈ q.tasks, s.id = t.id → p = q ∧ s = t
  line : ∀ p ∈ ps, ∀ q ∈ ps, ∀ s ∈ p.tasks, ∀ t ∈ q.tasks, s.line = t.line → p = q ∧ s = t

/-- Where the lines increase, a line gives the place of its task. -/
theorem eq_of_line {ps : List Outline.Project}
    (hlines : ((ps.flatMap (·.tasks)).map (·.line)).Pairwise (· < ·)) {k i k' i' : Nat}
    {p q : Outline.Project} {s t : Outline.Task} (hp : ps[k]? = some p)
    (hs : p.tasks[i]? = some s) (hq : ps[k']? = some q) (ht : q.tasks[i']? = some t)
    (heq : s.line = t.line) : k = k' ∧ i = i' := by
  rw [List.pairwise_map, List.pairwise_flatMap] at hlines
  obtain ⟨hwithin, hacross⟩ := hlines
  -- an earlier place has a lower line, so neither of the two places is the earlier one
  have hproject : ∀ {k k' : Nat} {p q : Outline.Project} {s t : Outline.Task}, ps[k]? = some p →
      ps[k']? = some q → s ∈ p.tasks → t ∈ q.tasks → k < k' → s.line < t.line := by
    intro k k' p q s t hp hq hs ht hlt
    obtain ⟨hk, rfl⟩ := List.getElem?_eq_some_iff.mp hp
    obtain ⟨hk', rfl⟩ := List.getElem?_eq_some_iff.mp hq
    exact List.pairwise_iff_getElem.mp hacross k k' hk hk' hlt s hs t ht
  have htask : ∀ {i i' : Nat} {s t : Outline.Task}, p.tasks[i]? = some s →
      p.tasks[i']? = some t → i < i' → s.line < t.line := by
    intro i i' s t hs ht hlt
    obtain ⟨hi, rfl⟩ := List.getElem?_eq_some_iff.mp hs
    obtain ⟨hi', rfl⟩ := List.getElem?_eq_some_iff.mp ht
    exact List.pairwise_iff_getElem.mp (hwithin p (List.mem_of_getElem? hp)) i i' hi hi' hlt
  have hsmem := List.mem_of_getElem? hs
  have htmem := List.mem_of_getElem? ht
  rcases Nat.lt_trichotomy k k' with hlt | rfl | hlt
  · have := hproject hp hq hsmem htmem hlt
    omega
  · obtain rfl := Option.some.inj (hp.symm.trans hq)
    rcases Nat.lt_trichotomy i i' with hlt | rfl | hlt
    · have := htask hs ht hlt
      omega
    · exact ⟨rfl, rfl⟩
    · have := htask ht hs hlt
      omega
  · have := hproject hq hp htmem hsmem hlt
    omega

theorem distinct_ofOutline {o : Outline}
    (hlines : ((o.projects.flatMap (·.tasks)).map (·.line)).Pairwise (· < ·)) :
    Distinct (ofOutline o).projects := by
  have hplace : ∀ {k k' : Nat} {p q : Project} {s t : Task},
      (ofOutline o).projects[k]? = some p → (ofOutline o).projects[k']? = some q →
      p.tasks[s.index]? = some s → q.tasks[t.index]? = some t → k = k' → s.index = t.index →
      p = q ∧ s = t := by
    rintro k k' p q s t hp hq hs ht rfl hindex
    obtain rfl := Option.some.inj (hp.symm.trans hq)
    rw [hindex] at hs
    exact ⟨rfl, Option.some.inj (hs.symm.trans ht)⟩
  refine ⟨?_, fun p hp q hq s hs t ht heq => ?_, fun p hp q hq s hs t ht heq => ?_⟩
  · have hid : ∀ (k : Nat) (hk : k < ((ofOutline o).projects.map (·.id)).length),
        ((ofOutline o).projects.map (·.id))[k] = projectId k := by
      intro k hk
      refine Option.some.inj ?_
      rw [← List.getElem?_eq_getElem hk, List.getElem?_map, projects_getElem?]
      rw [List.length_map] at hk
      obtain ⟨p, hp⟩ : ∃ p, o.projects[k]? = some p := by
        have hk' := List.getElem?_eq_getElem hk
        rw [projects_getElem?, Option.map_eq_some_iff] at hk'
        exact hk'.imp fun _ h => h.1
      rw [hp]
      rfl
    refine List.pairwise_iff_getElem.mpr fun i j hi hj hij heq => ?_
    rw [hid i hi, hid j hj] at heq
    exact absurd (projectId_injective heq) (Nat.ne_of_lt hij)
  · obtain ⟨k, -, -, hk, -, -, hi, -, -, hid, -⟩ := exists_place hp hs
    obtain ⟨k', -, -, hk', -, -, hi', -, -, hid', -⟩ := exists_place hq ht
    obtain ⟨hkk, hii⟩ := taskId_injective (hid.symm.trans (heq.trans hid'))
    exact hplace hk hk' hi hi' hkk hii
  · obtain ⟨k, p₀, s₀, hk, hp₀, hs₀, hi, -, -, -, hline⟩ := exists_place hp hs
    obtain ⟨k', q₀, t₀, hk', hq₀, ht₀, hi', -, -, -, hline'⟩ := exists_place hq ht
    have hsame : s₀.line = t₀.line := by rw [← hline, ← hline', heq]
    obtain ⟨rfl, hindex⟩ := eq_of_line hlines hp₀ hs₀ hq₀ ht₀ hsame
    exact hplace hk hk' hi hi' rfl hindex

/-- Looking through the projects for a task finds it if it is the only one of its kind. -/
theorem findSome?_eq_some_iff {ps : List Project} {q : Task → Bool}
    (hq : ∀ p ∈ ps, ∀ p' ∈ ps, ∀ s ∈ p.tasks, ∀ t ∈ p'.tasks, q s → q t → p = p' ∧ s = t)
    {t : Task} {p : Project} :
    (ps.findSome? fun p => (p.tasks.find? q).map fun t => (t, p)) = some (t, p)
      ↔ p ∈ ps ∧ t ∈ p.tasks ∧ q t := by
  constructor
  · intro h
    obtain ⟨p', hp', h⟩ := List.exists_of_findSome?_eq_some h
    obtain ⟨t', ht', heq⟩ := Option.map_eq_some_iff.mp h
    cases heq
    exact ⟨hp', List.mem_of_find?_eq_some ht', List.find?_some ht'⟩
  · rintro ⟨hp, ht, hqt⟩
    cases h : ps.findSome? fun p => (p.tasks.find? q).map fun t => (t, p) with
    | none =>
        have hnone := List.findSome?_eq_none_iff.mp h p hp
        rw [Option.map_eq_none_iff, List.find?_eq_none] at hnone
        exact absurd hqt (hnone t ht)
    | some found =>
        obtain ⟨p', hp', h⟩ := List.exists_of_findSome?_eq_some h
        obtain ⟨t', ht', rfl⟩ := Option.map_eq_some_iff.mp h
        obtain ⟨rfl, rfl⟩ := hq p' hp' p hp t' (List.mem_of_find?_eq_some ht') t ht
          (List.find?_some ht') hqt
        rfl

end Roadmap.Plan
