import Roadmap.Proofs.Plan.Fitted
import Roadmap.Proofs.Plan.Seats

/-!
# Siblings in a row

A free task is placed after the sibling before it, so among the days that are found for the tasks
siblings stand in a row (`InOrder`). Fitting comes after that and can undo it on both sides: the
earlier sibling is stretched to the end of its children, of which the later one knew nothing, and
the later one is drawn back to a child that a pin holds early.

These are the only ways. A stretched task ends with a leaf below it, which has stayed where it was
placed (`exists_leaf_of_finish`). What is below a task is placed no earlier than the task, but for
pins (`InOrder.le_start`): a first child waits for its parent and any other for a sibling. So a
parent that is fitted starts no earlier than it was placed, unless there is a pin below it.
-/

namespace Roadmap.Plan

/-- Placed tasks, of which each free one comes after the sibling before it or, if it is the first,
not before its parent. -/
structure InOrder (tasks : List Task) : Prop where
  linked : Linked tasks
  forward : ∀ t ∈ tasks, t.start ≤ t.finish
  pinned : ∀ t ∈ tasks, ∀ pin, t.explicitStart = some pin → t.start = pin
  sibling : ∀ {i j : Nat} {t s : Task}, tasks[i]? = some t → t.explicitStart = none →
    siblingBefore? tasks i t = some j → tasks[j]? = some s → s.finish ≤ t.start
  first : ∀ {i p : Nat} {t s : Task}, tasks[i]? = some t → t.explicitStart = none →
    siblingBefore? tasks i t = none → t.parent = some p → tasks[p]? = some s → s.start ≤ t.start

theorem inOrder_placeTasks {tasks : List Task} {origin : Date}
    (hlasting : ∀ t ∈ link tasks, 0 ≤ t.duration)
    (hacyclic : ∀ i, ¬ Relation.TransGen (Requires (link tasks)) i i) :
    InOrder (placeTasks (link tasks) origin) := by
  have hl := linked_link tasks
  have hagree := agree_placeTasks hl origin
  obtain ⟨-, hsolves, -⟩ := placeTasks_unique_solution tasks origin hacyclic
  have hspan : ∀ {i : Nat} {t : Task}, (placeTasks (link tasks) origin)[i]? = some t →
      ((placeTasks (link tasks) origin).map Task.span)[i]? = some t.span := by
    intro i t ht
    rw [List.getElem?_map, ht]
    rfl
  -- what the solution waits for, read off the placed tasks
  have hbound : ∀ {i : Nat} {t : Task}, (placeTasks (link tasks) origin)[i]? = some t →
      t.explicitStart = none → ∃ t₀ : Task, t₀.undated = t.undated ∧
        ∀ d, Bound (link tasks) origin ((placeTasks (link tasks) origin).map Task.span) i t₀ d →
          d ≤ t.start := by
    intro i t ht hfree
    obtain ⟨t₀, ht₀, hu⟩ := hagree.exists ht
    have hgreatest := hsolves.free ht₀ (hspan ht) ((Task.explicitStart_of_undated hu).trans hfree)
    exact ⟨t₀, hu, fun d hd => hgreatest.2 hd⟩
  refine ⟨hl.of_agree hagree, fun t ht => ?_, fun t ht pin hpin => ?_, fun ht hfree hsib hs => ?_,
    fun ht hfree hfirst hp hs => ?_⟩
  · obtain ⟨i, hi⟩ := List.getElem?_of_mem ht
    obtain ⟨t₀, ht₀, -⟩ := hagree.exists hi
    have hfinish : t.finish = t.start.shift t₀.duration := hsolves.finish ht₀ (hspan hi)
    rw [hfinish]
    exact Date.le_shift t.start (hlasting t₀ (List.mem_of_getElem? ht₀))
  · obtain ⟨i, hi⟩ := List.getElem?_of_mem ht
    obtain ⟨t₀, ht₀, hu⟩ := hagree.exists hi
    exact hsolves.pinned ht₀ (hspan hi) ((Task.explicitStart_of_undated hu).trans hpin)
  · obtain ⟨t₀, hu, hle⟩ := hbound ht hfree
    refine hle _ (.sibling ?_ (hspan hs))
    rwa [← hagree.siblingBefore? hu.symm]
  · obtain ⟨t₀, hu, hle⟩ := hbound ht hfree
    refine hle _ (.parent ?_ ((Task.parent_of_undated hu).trans hp) (hspan hs))
    rwa [← hagree.siblingBefore? hu.symm]

/-- A task below the one at `i`, which is not it, is pinned to the day. -/
def PinnedBelow (tasks : List Task) (i : Nat) (pin : Date) : Prop :=
  ∃ (k : Nat) (t : Task), Below tasks i k ∧ k ≠ i ∧ tasks[k]? = some t
    ∧ t.explicitStart = some pin

/-- Below a task nothing is placed before a day that the task and the pins below it keep to. -/
theorem InOrder.le_start {tasks : List Task} (h : InOrder tasks) {i : Nat} {b : Task} {d : Date}
    (hb : tasks[i]? = some b) (hd : d ≤ b.start) (hpins : ∀ pin, PinnedBelow tasks i pin → d ≤ pin)
    {k : Nat} {t : Task} (hbelow : Below tasks i k) (ht : tasks[k]? = some t) : d ≤ t.start := by
  -- whatever places a task stands before it in the list
  induction k using Nat.strongRecOn generalizing t with
  | ind k ih =>
    by_cases hik : k = i
    · obtain rfl := hik
      obtain rfl := Option.some.inj (hb.symm.trans ht)
      exact hd
    · cases hpin : t.explicitStart with
      | some pin =>
          rw [h.pinned t (List.mem_of_getElem? ht) pin hpin]
          exact hpins pin ⟨k, t, hbelow, hik, ht, hpin⟩
      | none =>
          obtain heq | ⟨p, hip, c, hc, hparent⟩ := Relation.ReflTransGen.cases_tail hbelow
          · exact absurd heq hik
          · obtain rfl := Option.some.inj (hc.symm.trans ht)
            have hpk : p < k := ((h.linked.parent k c hc p).mp hparent).1.1
            cases hsib : siblingBefore? tasks k c with
            | some j =>
                obtain ⟨-, ⟨hjk, s, hs, hsp, -⟩, -⟩ := (siblingBefore?_eq_some j).mp hsib
                calc d ≤ s.start := ih j hjk (hip.tail ⟨s, hs, hsp.trans hparent⟩) hs
                  _ ≤ s.finish := h.forward s (List.mem_of_getElem? hs)
                  _ ≤ c.start := h.sibling hc hpin hsib hs
            | none =>
                have hp := List.getElem?_eq_getElem
                  (hpk.trans (List.getElem?_eq_some_iff.mp hc).1)
                exact (ih p hpk hip hp).trans (h.first hc hpin hsib hparent hp)

/-! ## After fitting -/

theorem Agree.below {xs ys : List Task} (h : Agree xs ys) {i j : Nat} (hbelow : Below xs i j) :
    Below ys i j := by
  refine Relation.ReflTransGen.mono ?_ i j hbelow
  rintro i j ⟨c, hc, hp⟩
  obtain ⟨c', hc', hu⟩ := h.exists hc
  exact ⟨c', hc', (Task.parent_of_undated hu).trans hp⟩

theorem Agree.pinnedBelow {xs ys : List Task} (h : Agree xs ys) {i : Nat} {pin : Date}
    (hpinned : PinnedBelow xs i pin) : PinnedBelow ys i pin := by
  obtain ⟨k, t, hbelow, hk, ht, hpin⟩ := hpinned
  obtain ⟨t', ht', hu⟩ := h.exists ht
  exact ⟨k, t', h.below hbelow, hk, ht', (Task.explicitStart_of_undated hu).trans hpin⟩

theorem Linked.hasChildren_of_pinnedBelow {tasks : List Task} (hl : Linked tasks) {i : Nat}
    {t : Task} (ht : tasks[i]? = some t) {pin : Date} (hpinned : PinnedBelow tasks i pin) :
    t.hasChildren := by
  obtain ⟨k, -, hbelow, hk, -, -⟩ := hpinned
  obtain heq | ⟨j, ⟨c, hc, hp⟩, -⟩ := Relation.ReflTransGen.cases_head hbelow
  · exact absurd heq.symm hk
  · exact (hl.hasChildren_iff ht).mpr ⟨j, c, hc, hp⟩

/-- A fitted task starts no earlier than it was placed, but for the pins below it. -/
theorem InOrder.le_start_reconcile {tasks : List Task} (h : InOrder tasks) {i : Nat} {b b' : Task}
    {d : Date} (hb : tasks[i]? = some b) (hb' : (reconcile tasks)[i]? = some b') (hd : d ≤ b.start)
    (hpins : ∀ pin, PinnedBelow tasks i pin → d ≤ pin) : d ≤ b'.start := by
  have hagree := agree_reconcile tasks
  have hl := h.linked.of_agree hagree
  refine hl.of_leaves (R := fun _ s => d ≤ s.start) (fun hbelow ht ht' hleaf => ?_)
    (fun ht ht' hparent hchild => ?_) hb' hb'
  · obtain rfl := Option.some.inj (ht.symm.trans ht')
    exact h.le_start hb hd hpins (hagree.below hbelow) (reconcile_leaf h.linked ht hleaf)
  · obtain rfl := Option.some.inj (ht.symm.trans ht')
    obtain ⟨⟨k, c, hc, hp, hstart⟩, -⟩ := (reconcile_cover h.linked ht hparent).1
    exact (hchild hc hc hp).trans_eq hstart

/-- A fitted task ends with some leaf at or below it, which fitting has left on its days. -/
theorem exists_leaf_of_finish {tasks : List Task} (hl : Linked tasks) {i : Nat} {t : Task}
    (ht : (reconcile tasks)[i]? = some t) : ∃ (k : Nat) (c : Task), Below (reconcile tasks) i k
      ∧ (reconcile tasks)[k]? = some c ∧ tasks[k]? = some c ∧ c.hasChildren = false
      ∧ c.finish = t.finish := by
  refine (hl.of_agree (agree_reconcile tasks)).of_leaves (R := fun s _ => ∃ (k : Nat) (c : Task),
    Below (reconcile tasks) i k ∧ (reconcile tasks)[k]? = some c ∧ tasks[k]? = some c
      ∧ c.hasChildren = false ∧ c.finish = s.finish) (fun {k c _} hbelow hc _ hleaf => ?_)
    (fun {_ s _} hs _ hparent hchild => ?_) ht ht
  · exact ⟨k, c, hbelow, hc, reconcile_leaf hl hc hleaf, hleaf, rfl⟩
  · obtain ⟨-, ⟨⟨k, c, hc, hp, hfinish⟩, -⟩, -⟩ := reconcile_cover hl hs hparent
    rw [show s.span.finish = c.span.finish from hfinish.symm]
    exact hchild hc hc hp

/-- The tasks of a project on the days that are found for them, before parents are fitted. -/
def placedTasks (tasks : List Outline.Task) (projectId : String) (origin : Date) : List Task :=
  placeTasks (link (Task.allOfOutline tasks projectId origin)) origin

theorem inOrder_placedTasks {tasks : List Outline.Task} {projectId : String} {origin : Date}
    (hlasting : ∀ t ∈ tasks, 0 ≤ t.duration)
    (hacyclic : ∀ i, ¬ Relation.TransGen (Requires (schedule tasks projectId origin)) i i) :
    InOrder (placedTasks tasks projectId origin) := by
  rw [(agree_schedule tasks projectId origin).requires] at hacyclic
  refine inOrder_placeTasks (fun t ht => ?_) hacyclic
  obtain ⟨i, hi⟩ := List.getElem?_of_mem ht
  rw [link_getElem?, allOfOutline_getElem?, Option.map_map, Option.map_eq_some_iff] at hi
  obtain ⟨t₀, ht₀, rfl⟩ := hi
  exact hlasting t₀ (List.mem_of_getElem? ht₀)

/-- If no task requires itself through others, a free task is placed after the sibling before it,
and it starts after it in the plan as well, unless the sibling is stretched to the end of a leaf
below it that was placed to end later than that, or the task is drawn back by a pin below it. -/
theorem siblings_in_row {o : Outline} {k : Nat} {q : Outline.Project} {p : Project}
    (hq : o.projects[k]? = some q) (hp : (ofOutline o).projects[k]? = some p)
    (hlasting : ∀ t ∈ q.tasks, 0 ≤ t.duration)
    (hacyclic : ∀ i, ¬ Relation.TransGen (Requires p.tasks) i i) {i j : Nat} {a b : Task}
    (ha : p.tasks[i]? = some a) (hb : p.tasks[j]? = some b) (hfree : b.explicitStart = none)
    (hsibling : siblingBefore? p.tasks j b = some i) :
    ∃ a₀ b₀ : Task, (placedTasks q.tasks (projectId k) o.start)[i]? = some a₀
      ∧ (placedTasks q.tasks (projectId k) o.start)[j]? = some b₀ ∧ a₀.finish ≤ b₀.start
      ∧ (a.finish ≤ b.start
        ∨ a.hasChildren ∧ (∃ (l : Nat) (c : Task), Below p.tasks i l ∧ l ≠ i
          ∧ (placedTasks q.tasks (projectId k) o.start)[l]? = some c ∧ c.hasChildren = false
          ∧ c.finish = a.finish ∧ b₀.start < c.finish)
        ∨ b.hasChildren ∧ ∃ pin, PinnedBelow p.tasks j pin ∧ pin < a.finish) := by
  rw [projects_getElem?, hq] at hp
  obtain rfl := Option.some.inj hp
  change (schedule q.tasks _ o.start)[i]? = some a at ha
  change (schedule q.tasks _ o.start)[j]? = some b at hb
  change siblingBefore? (schedule q.tasks _ o.start) j b = some i at hsibling
  change ∃ a₀ b₀ : Task, _ ∧ _ ∧ _ ∧ (_
    ∨ _ ∧ (∃ (l : Nat) (c : Task), Below (schedule q.tasks _ o.start) i l ∧ _)
    ∨ _ ∧ ∃ pin, PinnedBelow (schedule q.tasks _ o.start) j pin ∧ _)
  have hplaced := inOrder_placedTasks hlasting hacyclic
  have hagree : Agree (schedule q.tasks (projectId k) o.start) (placedTasks _ _ _) :=
    agree_reconcile _
  obtain ⟨a₀, ha₀, hua⟩ := hagree.exists ha
  obtain ⟨b₀, hb₀, hub⟩ := hagree.exists hb
  have hrow : a₀.finish ≤ b₀.start := by
    refine hplaced.sibling hb₀ ((Task.explicitStart_of_undated hub).trans hfree) ?_ ha₀
    rwa [← hagree.siblingBefore? hub.symm]
  refine ⟨a₀, b₀, ha₀, hb₀, hrow, ?_⟩
  have hlinked := hplaced.linked.of_agree hagree
  by_cases hstretched : b₀.start < a.finish
  · obtain ⟨l, c, hbelow, hc, hc₀, hleaf, hfinish⟩ := exists_leaf_of_finish hplaced.linked ha
    have hparent : a.hasChildren := by
      by_contra hleaf
      obtain rfl := Option.some.inj
        (ha₀.symm.trans (reconcile_leaf hplaced.linked ha (Bool.eq_false_iff.mpr hleaf)))
      exact absurd hstretched (not_lt.mpr hrow)
    have hne : l ≠ i := by
      rintro rfl
      obtain rfl := Option.some.inj (ha.symm.trans hc)
      exact Bool.false_ne_true (hleaf.symm.trans hparent)
    exact .inr (.inl ⟨hparent, l, c, hbelow, hne, hc₀, hleaf, hfinish, hfinish ▸ hstretched⟩)
  · by_cases hpins : ∃ pin, PinnedBelow (schedule q.tasks (projectId k) o.start) j pin
        ∧ pin < a.finish
    · obtain ⟨pin, hpinned, hlt⟩ := hpins
      exact .inr (.inr ⟨hlinked.hasChildren_of_pinnedBelow hb hpinned, pin, hpinned, hlt⟩)
    · refine .inl (hplaced.le_start_reconcile hb₀ hb (not_lt.mp hstretched) fun pin hpinned => ?_)
      exact not_lt.mp fun hlt => hpins ⟨pin, hagree.symm.pinnedBelow hpinned, hlt⟩

/-! ### Yards -/

/-- A yard whose paving and whose planting have tasks of their own. -/
def yardBlock : Outline.Project where
  name := "Yard"
  tasks := [
    { level := 1, title := "Works", duration := 1 },
    { level := 2, title := "Paving", duration := 3 },
    { level := 3, title := "Stones", duration := 2 },
    { level := 2, title := "Planting", duration := 1 },
    { level := 3, title := "Trees", duration := 2 }]

def yard : Outline := ⟨hall.start, [yardBlock]⟩

theorem acyclic_yard (i : Nat) : ¬ Relation.TransGen
    (Requires (schedule yardBlock.tasks (projectId 0) yard.start)) i i := by
  rw [(agree_schedule _ _ _).requires]
  exact acyclic_of_rank id (by decide +kernel) i

theorem siblings_in_row_yard :
    (∀ t ∈ yardBlock.tasks, 0 ≤ t.duration)
      ∧ ∃ (p : Project) (a b : Task), (ofOutline yard).projects[0]? = some p
        ∧ (∀ i, ¬ Relation.TransGen (Requires p.tasks) i i)
        ∧ p.tasks[1]? = some a ∧ p.tasks[3]? = some b ∧ b.explicitStart = none
        ∧ siblingBefore? p.tasks 3 b = some 1 ∧ a.hasChildren ∧ b.hasChildren
        ∧ a.finish ≤ b.start := by
  have hlasting : ∀ t ∈ yardBlock.tasks, 0 ≤ t.duration := by decide
  have hp : (ofOutline yard).projects[0]? = some (Project.ofOutline yardBlock 0 yard.start) := rfl
  generalize hproject : Project.ofOutline yardBlock 0 yard.start = p at hp
  have hacyclic : ∀ i, ¬ Relation.TransGen (Requires p.tasks) i i := hproject ▸ acyclic_yard
  have hfacts : p.tasks[1]?.map (fun a => (a.finish.ordinal, a.hasChildren)) = some (738002, true)
      ∧ p.tasks[3]?.map (fun b => (b.explicitStart, siblingBefore? p.tasks 3 b, b.hasChildren))
        = some (none, some 1, true) := by
    rw [← hproject]
    constructor
    · cbv
    · cbv
  obtain ⟨ha, hb⟩ := hfacts
  obtain ⟨a, ha, hafacts⟩ := Option.map_eq_some_iff.mp ha
  obtain ⟨b, hb, hbfacts⟩ := Option.map_eq_some_iff.mp hb
  simp only [Prod.mk.injEq] at hafacts hbfacts
  obtain ⟨hfinish, hachildren⟩ := hafacts
  obtain ⟨hfree, hsibling, hbchildren⟩ := hbfacts
  obtain ⟨a₀, b₀, -, hb₀, -, hrow⟩ :=
    siblings_in_row (o := yard) rfl hp hlasting hacyclic ha hb hfree hsibling
  refine ⟨hlasting, p, a, b, hp, hacyclic, ha, hb, hfree, hsibling, hachildren, hbchildren, ?_⟩
  have hstart : b₀.start.ordinal = 738003 := by
    have hplaced : (placedTasks yardBlock.tasks (projectId 0) yard.start)[3]?.map (·.start.ordinal)
        = some 738003 := by cbv
    rw [hb₀] at hplaced
    exact Option.some.inj hplaced
  have hpins : p.tasks.all (·.explicitStart.isNone) = true := by
    rw [← hproject]
    cbv
  rcases hrow with hle | ⟨-, l, c, -, -, -, -, hend, hlt⟩ | ⟨-, pin, ⟨k, t, -, -, ht, hpin⟩, -⟩
  · exact hle
  · have hlt : b₀.start.ordinal < a.finish.ordinal := hend ▸ hlt
    omega
  · have hnone := List.all_eq_true.mp hpins t (List.mem_of_getElem? ht)
    rw [hpin] at hnone
    cases hnone

/-- The task at `j` is free and starts before the sibling before it has finished. -/
def RunsInto (tasks : List Task) (j i : Nat) : Prop :=
  ∃ a b : Task, tasks[i]? = some a ∧ tasks[j]? = some b ∧ b.explicitStart = none
    ∧ siblingBefore? tasks j b = some i ∧ b.start < a.finish

theorem runsInto_of_days {tasks : List Task} {i j m n : Nat}
    (ha : tasks[i]?.map (·.finish.ordinal) = some m)
    (hb : tasks[j]?.map (fun b => (b.start.ordinal, b.explicitStart, siblingBefore? tasks j b))
      = some (n, none, some i)) (hlt : n < m) : RunsInto tasks j i := by
  obtain ⟨a, ha', rfl⟩ := Option.map_eq_some_iff.mp ha
  obtain ⟨b, hb', hfacts⟩ := Option.map_eq_some_iff.mp hb
  simp only [Prod.mk.injEq] at hfacts
  obtain ⟨rfl, hfree, hsibling⟩ := hfacts
  exact ⟨a, b, ha', hb', hfree, hsibling, hlt⟩

/-- A yard in which the stones take longer than the paving, and where a tree comes before its
planting. -/
def rushedBlock : Outline.Project where
  name := "Yard"
  tasks := [
    { level := 1, title := "Works", duration := 1 },
    { level := 2, title := "Paving", duration := 1 },
    { level := 3, title := "Stones", duration := 5 },
    { level := 2, title := "Gate", duration := 1 },
    { level := 2, title := "Planting", duration := 1 },
    { level := 3, title := "Tree", duration := 1, explicitStart := some hall.start }]

def rushed : Outline := ⟨hall.start, [rushedBlock]⟩

theorem acyclic_rushed (i : Nat) : ¬ Relation.TransGen
    (Requires (schedule rushedBlock.tasks (projectId 0) rushed.start)) i i := by
  rw [(agree_schedule _ _ _).requires]
  exact acyclic_of_rank id (by decide +kernel) i

/-- The gate is in the way of the stones, and the tree comes before the gate is done. -/
theorem not_in_row_rushed :
    (∀ t ∈ rushedBlock.tasks, 0 ≤ t.duration)
      ∧ ∃ p : Project, (ofOutline rushed).projects[0]? = some p
        ∧ (∀ i, ¬ Relation.TransGen (Requires p.tasks) i i)
        ∧ RunsInto p.tasks 3 1 ∧ RunsInto p.tasks 4 3 := by
  have hp : (ofOutline rushed).projects[0]? = some (Project.ofOutline rushedBlock 0 rushed.start) :=
    rfl
  generalize hproject : Project.ofOutline rushedBlock 0 rushed.start = p at hp
  refine ⟨by decide, p, hp, hproject ▸ acyclic_rushed, ?_, ?_⟩
  · refine runsInto_of_days (m := 738005) (n := 738001) ?_ ?_ (by decide)
    all_goals
      rw [← hproject]
      cbv
  · refine runsInto_of_days (m := 738002) (n := 738000) ?_ ?_ (by decide)
    all_goals
      rw [← hproject]
      cbv

end Roadmap.Plan
