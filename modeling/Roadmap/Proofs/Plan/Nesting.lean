import Roadmap.Proofs.Plan.Fitted

/-!
# The order of a forest

As a parent is the nearest earlier task of a lower level, what is below a task is one stretch of the
list: it goes on as long as the levels stay higher than the task's own (`Linked.level_lt_of_below`).
So what is below a task comes before all that is below a later sibling (`Linked.lt_of_siblings`),
and listing each task before its children gives the tasks in the order of the list.

The walk is followed by the places it comes to. They are in order, and each place is among them, so
they are all places from the first to the last; that they are bounded in depth cuts nothing off, for
a child stands after its parent.
-/

namespace Roadmap.Plan

section

variable {tasks : List Task} (hl : Linked tasks)

include hl

/-! ## Stretches -/

theorem Linked.le_of_below {i k : Nat} (h : Below tasks i k) : i ≤ k := by
  induction h with
  | refl => exact Nat.le_refl i
  | tail _ hstep ih =>
      obtain ⟨c, hc, hp⟩ := hstep
      exact ih.trans (Nat.le_of_lt ((hl.parent _ c hc _).mp hp).1.1)

/-- From a task to one below it, all levels are higher than the task's own. -/
theorem Linked.level_lt_of_below {i k : Nat} {a : Task} (ha : tasks[i]? = some a)
    (h : Below tasks i k) {j : Nat} {b : Task} (hij : i < j) (hjk : j ≤ k)
    (hb : tasks[j]? = some b) : a.level < b.level := by
  induction h generalizing j b with
  | refl => omega
  | @tail m k hbelow hstep ih =>
      obtain ⟨c, hc, hp⟩ := hstep
      obtain ⟨⟨-, x, hx, hlow⟩, hnearest⟩ := (hl.parent k c hc m).mp hp
      rcases Nat.lt_or_ge m j with hmj | hjm
      · -- no level between the child and its parent is lower than the child's
        have hxlevel : a.level ≤ x.level := by
          rcases Nat.eq_or_lt_of_le (hl.le_of_below hbelow) with rfl | him
          · exact (congrArg (·.level) (Option.some.inj (ha.symm.trans hx))).le
          · exact (ih him (Nat.le_refl m) hx).le
        have hblevel : c.level ≤ b.level := by
          rcases Nat.eq_or_lt_of_le hjk with rfl | hlt
          · exact (congrArg (·.level) (Option.some.inj (hc.symm.trans hb))).le
          · by_contra hlower
            have := hnearest ⟨hlt, b, hb, Int.not_le.mp hlower⟩
            omega
        exact hxlevel.trans_lt (hlow.trans_le hblevel)
      · exact ih hij hjm hb

/-- A task behind one of a lower level has a parent, which is that one or stands behind it. -/
theorem Linked.exists_parent {i j : Nat} {a b : Task} (ha : tasks[i]? = some a)
    (hb : tasks[j]? = some b) (hij : i < j) (hlevel : a.level < b.level) :
    ∃ p, b.parent = some p ∧ i ≤ p := by
  have hmem : i ∈ Earlier tasks j (·.level < b.level) := ⟨hij, a, ha, hlevel⟩
  have hbound : BddAbove (Earlier tasks j (·.level < b.level)) := ⟨j, fun _ h => h.1.le⟩
  exact ⟨_, (hl.parent j b hb _).mpr ⟨Nat.sSup_mem ⟨i, hmem⟩ hbound, fun _ h => le_csSup hbound h⟩,
    le_csSup hbound hmem⟩

theorem Linked.parent_eq_none_iff {i : Nat} {t : Task} (ht : tasks[i]? = some t) :
    t.parent = none ↔ Earlier tasks i (·.level < t.level) = ∅ := by
  constructor
  · intro hp
    refine Set.eq_empty_of_forall_notMem fun j ⟨hji, u, hu, hlevel⟩ => ?_
    obtain ⟨p, hparent, -⟩ := hl.exists_parent hu ht hji hlevel
    rw [hp] at hparent
    cases hparent
  · intro hempty
    refine Option.eq_none_iff_forall_ne_some.mpr fun p hp => ?_
    have hmem := ((hl.parent i t ht p).mp hp).1
    rw [hempty] at hmem
    exact hmem

/-- What is below a task stands before a later sibling and what is below that. -/
theorem Linked.lt_of_siblings {i j x y : Nat} {a b : Task} (ha : tasks[i]? = some a)
    (hb : tasks[j]? = some b) (hij : i < j) (hparent : a.parent = b.parent) (hx : Below tasks i x)
    (hy : Below tasks j y) : x < y := by
  have hjy := hl.le_of_below hy
  by_contra hyx
  obtain ⟨p, hp, hip⟩ := hl.exists_parent ha hb hij
    (hl.level_lt_of_below ha hx hij (by omega) hb)
  have hpi := ((hl.parent i a ha p).mp (hparent.trans hp)).1.1
  omega

/-- Every task is below one that has no parent. -/
theorem Linked.exists_root {x : Nat} {t : Task} (ht : tasks[x]? = some t) :
    ∃ (r : Nat) (u : Task), tasks[r]? = some u ∧ u.parent = none ∧ Below tasks r x := by
  induction x using Nat.strongRecOn generalizing t with
  | ind x ih =>
    cases hp : t.parent with
    | none => exact ⟨x, t, ht, hp, .refl⟩
    | some p =>
        obtain ⟨hpx, u, hu, -⟩ := ((hl.parent x t ht p).mp hp).1
        obtain ⟨r, v, hv, hroot, hbelow⟩ := ih p hpx hu
        exact ⟨r, v, hv, hroot, hbelow.tail ⟨t, ht, hp⟩⟩

end

/-! ## The places of a walk -/

/-- The places of the tasks under the one at a place, itself included, each before its children. -/
def placesWithin (tasks : List Task) : Nat → Nat → List Nat
  | 0, i => [i]
  | depth + 1, i =>
    i :: ((tasks[i]?.map (·.children)).getD []).flatMap (placesWithin tasks depth)

theorem preorderAll_map {f : Task → Tree} (ts : List Task) :
    Tree.preorderAll (ts.map f) = ts.flatMap fun t => (f t).preorder := by
  induction ts with
  | nil => rfl
  | cons t ts ih =>
      rw [List.map_cons, Tree.preorderAll, ih]
      rfl

/-- The walk from the tasks at some places, if from each of them it comes to the places of `f`. -/
theorem flatMap_places {tasks : List Task} {f : Nat → List Nat} {g : Task → List Task}
    (hsome : ∀ i t, tasks[i]? = some t → g t = (f i).filterMap (tasks[·]?))
    (hnone : ∀ i, tasks[i]? = none → (f i).filterMap (tasks[·]?) = []) (is : List Nat) :
    (is.filterMap (tasks[·]?)).flatMap g = (is.flatMap f).filterMap (tasks[·]?) := by
  induction is with
  | nil => rfl
  | cons i is ih =>
      rw [List.flatMap_cons, List.filterMap_append, ← ih]
      cases hi : tasks[i]? with
      | none => rw [List.filterMap_cons_none hi, hnone i hi, List.nil_append]
      | some t => rw [List.filterMap_cons_some hi, List.flatMap_cons, hsome i t hi]

theorem filterMap_placesWithin_none {tasks : List Task} {i : Nat} (h : tasks[i]? = none)
    (depth : Nat) : (placesWithin tasks depth i).filterMap (tasks[·]?) = [] := by
  cases depth with
  | zero => rw [placesWithin, List.filterMap_cons_none h, List.filterMap_nil]
  | succ depth =>
      rw [placesWithin, h, Option.map_none, Option.getD_none, List.flatMap_nil,
        List.filterMap_cons_none h, List.filterMap_nil]

theorem Project.preorder_treeWithin (p : Project) (depth : Nat) {i : Nat} {t : Task}
    (ht : p.tasks[i]? = some t) :
    (p.treeWithin depth t).preorder = (placesWithin p.tasks depth i).filterMap (p.tasks[·]?) := by
  induction depth generalizing i t with
  | zero => rw [treeWithin, Tree.preorder, Tree.preorderAll, placesWithin,
      List.filterMap_cons_some ht, List.filterMap_nil]
  | succ depth ih =>
      rw [treeWithin, Tree.preorder, preorderAll_map, childrenOf, placesWithin, ht,
        List.filterMap_cons_some ht, Option.map_some, Option.getD_some,
        flatMap_places (fun i t ht => ih ht) fun i hi => filterMap_placesWithin_none hi depth]

section

variable {tasks : List Task} (hl : Linked tasks)

include hl

theorem Linked.below_of_mem {depth i x : Nat} (h : x ∈ placesWithin tasks depth i) :
    Below tasks i x := by
  induction depth generalizing i with
  | zero =>
      rw [List.mem_singleton.mp h]
      exact .refl
  | succ depth ih =>
      rcases List.mem_cons.mp h with rfl | h
      · exact .refl
      · obtain ⟨j, hj, hx⟩ := List.mem_flatMap.mp h
        cases ht : tasks[i]? with
        | none =>
            rw [ht] at hj
            cases hj
        | some t =>
            rw [ht] at hj
            exact (ih hx).head ((hl.children i t ht j).mp hj)

/-- A bound that reaches to the end of the list cuts nothing off. -/
theorem Linked.mem_placesWithin {depth i x : Nat} (hdepth : tasks.length ≤ i + depth + 1)
    (h : Below tasks i x) : x ∈ placesWithin tasks depth i := by
  induction depth generalizing i with
  | zero =>
      rcases Relation.ReflTransGen.cases_head h with rfl | ⟨j, ⟨c, hc, hp⟩, -⟩
      · exact List.mem_singleton_self i
      · have hij := ((hl.parent j c hc i).mp hp).1.1
        have hj := (List.getElem?_eq_some_iff.mp hc).1
        omega
  | succ depth ih =>
      rw [placesWithin, List.mem_cons, List.mem_flatMap]
      rcases Relation.ReflTransGen.cases_head h with rfl | ⟨j, ⟨c, hc, hp⟩, hbelow⟩
      · exact .inl rfl
      · obtain ⟨hij, t, ht, -⟩ := ((hl.parent j c hc i).mp hp).1
        refine .inr ⟨j, ?_, ih (by omega) hbelow⟩
        rw [ht]
        exact (hl.children i t ht j).mpr ⟨c, hc, hp⟩

/-- Going through siblings in their order, and through what is below each, keeps the order. -/
theorem Linked.pairwise_flatMap {is : List Nat} {parent : Option Nat} (his : is.Pairwise (· < ·))
    (hparent : ∀ i ∈ is, ∃ t, tasks[i]? = some t ∧ t.parent = parent) {f : Nat → List Nat}
    (hbelow : ∀ i x, x ∈ f i → Below tasks i x) (hf : ∀ i, (f i).Pairwise (· < ·)) :
    (is.flatMap f).Pairwise (· < ·) := by
  refine List.pairwise_flatMap.mpr ⟨fun i _ => hf i, his.imp_of_mem ?_⟩
  intro i j hi hj hij x hx y hy
  obtain ⟨a, ha, hap⟩ := hparent i hi
  obtain ⟨b, hb, hbp⟩ := hparent j hj
  exact hl.lt_of_siblings ha hb hij (hap.trans hbp.symm) (hbelow i x hx) (hbelow j y hy)

theorem Linked.pairwise_placesWithin (depth i : Nat) :
    (placesWithin tasks depth i).Pairwise (· < ·) := by
  induction depth generalizing i with
  | zero => exact List.pairwise_singleton _ i
  | succ depth ih =>
      rw [placesWithin]
      cases ht : tasks[i]? with
      | none => exact List.pairwise_singleton _ i
      | some t =>
          rw [Option.map_some, Option.getD_some, List.pairwise_cons]
          constructor
          · intro x hx
            obtain ⟨j, hj, hx⟩ := List.mem_flatMap.mp hx
            exact (hl.exists_child ht hj).1.trans_le (hl.le_of_below (hl.below_of_mem hx))
          · exact hl.pairwise_flatMap (hl.sorted i t ht) (fun j hj => (hl.children i t ht j).mp hj)
              (fun j x hx => hl.below_of_mem hx) ih

end

/-! ## The walk -/

theorem filterMap_getElem?_range {α : Type} (xs : List α) :
    (List.range xs.length).filterMap (xs[·]?) = xs := by
  induction xs with
  | nil => rfl
  | cons x xs ih =>
      have hx : (x :: xs)[0]? = some x := rfl
      rw [List.length_cons, List.range_succ_eq_map, List.filterMap_cons_some hx,
        List.filterMap_map]
      exact congrArg (x :: ·) ih

/-- The places of the tasks without a parent. -/
def rootPlaces (tasks : List Task) : List Nat :=
  (List.range tasks.length).filter fun i => tasks[i]?.any (·.parent.isNone)

theorem mem_rootPlaces {tasks : List Task} {i : Nat} :
    i ∈ rootPlaces tasks ↔ ∃ t, tasks[i]? = some t ∧ t.parent = none := by
  simp only [rootPlaces, List.mem_filter, List.mem_range, Option.any_eq_true,
    Option.isNone_iff_eq_none]
  exact ⟨fun h => h.2, fun ⟨t, ht, hp⟩ => ⟨(List.getElem?_eq_some_iff.mp ht).1, t, ht, hp⟩⟩

theorem Project.roots_eq (p : Project) :
    p.roots = (rootPlaces p.tasks).filterMap (p.tasks[·]?) := by
  have hfilter : ∀ o : Option Task, (if o.any (·.parent.isNone) then o else none)
      = o.filter (·.parent.isNone) := by
    rintro (_ | t)
    · rfl
    · rfl
  rw [rootPlaces, List.filterMap_filter]
  simp only [hfilter]
  rw [← List.filter_filterMap, filterMap_getElem?_range, roots]

/-- Each task of a project is walked to once, and in the order of the list. -/
theorem Project.walk_of_linked {p : Project} (hl : Linked p.tasks) : p.walk = p.tasks := by
  have hplaces : (rootPlaces p.tasks).flatMap (placesWithin p.tasks p.tasks.length)
      = List.range p.tasks.length := by
    refine List.Pairwise.eq_of_mem_iff ?_ List.pairwise_lt_range fun x => ?_
    · exact hl.pairwise_flatMap (List.pairwise_lt_range.filter _) (fun i hi => mem_rootPlaces.mp hi)
        (fun i x hx => hl.below_of_mem hx) (hl.pairwise_placesWithin p.tasks.length)
    · rw [List.mem_flatMap, List.mem_range]
      constructor
      · rintro ⟨i, hi, hx⟩
        obtain ⟨t, ht, -⟩ := mem_rootPlaces.mp hi
        have hlt := (List.getElem?_eq_some_iff.mp ht).1
        rcases Relation.ReflTransGen.cases_tail (hl.below_of_mem hx) with rfl | ⟨j, -, c, hc, -⟩
        · exact hlt
        · exact (List.getElem?_eq_some_iff.mp hc).1
      · intro hx
        obtain ⟨r, u, hu, hroot, hbelow⟩ := hl.exists_root (List.getElem?_eq_getElem hx)
        exact ⟨r, mem_rootPlaces.mpr ⟨u, hu, hroot⟩, hl.mem_placesWithin (by omega) hbelow⟩
  rw [walk, forest, preorderAll_map, roots_eq]
  change List.flatMap (fun t => (p.treeWithin p.tasks.length t).preorder) _ = _
  rw [flatMap_places (fun i t ht => p.preorder_treeWithin p.tasks.length ht)
      fun i hi => filterMap_placesWithin_none hi _,
    hplaces, filterMap_getElem?_range]

/-! ## Ancestors -/

/-- The chain from a task through its ancestors: each is the parent of the one before it and of a
lower level, and the last has no parent. -/
structure Project.Climbs (p : Project) (chain : List Task) : Prop where
  parents : chain.IsChain fun a b => p.parentOf? a = some b
  falling : chain.Pairwise fun a b => b.level < a.level
  root : ∀ r ∈ chain.getLast?, r.parent = none

theorem Project.Climbs.cons {p : Project} {t u : Task} {chain : List Task}
    (h : p.Climbs (u :: chain)) (hparent : p.parentOf? t = some u) (hlevel : u.level < t.level) :
    p.Climbs (t :: u :: chain) := by
  refine ⟨h.parents.cons_cons hparent, List.pairwise_cons.mpr ⟨fun v hv => ?_, h.falling⟩, ?_⟩
  · rcases List.mem_cons.mp hv with rfl | hv
    · exact hlevel
    · exact ((List.pairwise_cons.mp h.falling).1 v hv).trans hlevel
  · rw [List.getLast?_cons_cons]
    exact h.root

/-- A bound that is not below the place of the task cuts none of its ancestors off. -/
theorem Linked.climbs {p : Project} (hl : Linked p.tasks) {i bound : Nat} {t : Task}
    (ht : p.tasks[i]? = some t) (hbound : i ≤ bound) :
    p.Climbs (t :: ancestorsWithin p.tasks bound t.parent) := by
  induction i using Nat.strongRecOn generalizing bound t with
  | ind i ih =>
    cases hp : t.parent with
    | none =>
        have hroot : ancestorsWithin p.tasks bound none = [] := by cases bound <;> rfl
        rw [hroot]
        exact ⟨.singleton t, List.pairwise_singleton _ t, by rintro r ⟨⟩; exact hp⟩
    | some j =>
        obtain ⟨hji, u, hu, hlevel⟩ := ((hl.parent i t ht j).mp hp).1
        obtain ⟨b, rfl⟩ := Nat.exists_eq_succ_of_ne_zero (show bound ≠ 0 by omega)
        have hstep : ancestorsWithin p.tasks (b + 1) (some j)
            = u :: ancestorsWithin p.tasks b u.parent := by
          rw [ancestorsWithin, Option.bind_some, hu]
        have hparent : p.parentOf? t = some u := by
          rw [Project.parentOf?, hp, Option.bind_some, hu]
        rw [hstep]
        exact (ih j hji hu (by omega)).cons hparent hlevel

/-! ## Linking a project -/

def Project.relinked (p : Project) : Project := { p with tasks := link p.tasks }

/-- In the project, the task `u` is the task `t` at the place `i` of some tasks with the links that
their levels ask for. -/
structure Project.Nests (p : Project) (tasks : List Task) (i : Nat) (t u : Task) : Prop where
  found : p.tasks[i]? = some u
  same : u = { t with parent := u.parent, children := u.children }
  parent : ∀ j, u.parent = some j ↔ IsGreatest (Earlier tasks i (·.level < t.level)) j
  root : u.parent = none ↔ Earlier tasks i (·.level < t.level) = ∅
  children : ∀ j, j ∈ u.children ↔ ∃ c, p.tasks[j]? = some c ∧ c.parent = some i
  sorted : u.children.Pairwise (· < ·)
  climbs : p.Climbs (u :: p.ancestors u)

theorem Project.nests_relinked (p : Project) {i : Nat} {t : Task} (ht : p.tasks[i]? = some t) :
    ∃ u, p.relinked.Nests p.tasks i t u := by
  have hl : Linked p.relinked.tasks := linked_link p.tasks
  have hu : p.relinked.tasks[i]? = some (t.linkAt (p.tasks.map (·.level)) i) := by
    rw [relinked, link_getElem?, ht, Option.map_some]
  have hearlier : Earlier p.relinked.tasks i (·.level < t.level)
      = Earlier p.tasks i (·.level < t.level) := by
    have hlevels := levels_link p.tasks
    rw [← earlier_map (fun u : Task => u.level) p.relinked.tasks i (· < t.level), relinked, hlevels,
      earlier_map]
  have hlt := (List.getElem?_eq_some_iff.mp hu).1
  refine ⟨_, hu, rfl, ?_, ?_, hl.children i _ hu, hl.sorted i _ hu, hl.climbs hu hlt.le⟩
  · rw [← hearlier]
    exact hl.parent i _ hu
  · rw [← hearlier]
    exact hl.parent_eq_none_iff hu

end Roadmap.Plan
