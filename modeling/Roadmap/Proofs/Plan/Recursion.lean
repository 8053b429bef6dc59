import Roadmap.Plan.Calculate
import Roadmap.Proofs.Calendar.Order
import Roadmap.Proofs.Plan.Requires

/-!
# Placing tasks by recursion

The rule for placing tasks is a recursion: a task is marked, then the tasks it looks up are placed
one after the other, each in the same way unless it carries a mark already, and then the task gets
its days. `resolve` runs this with a stack of its own, whose frames hold lookups that are only
partly worked off. Here the recursion is written down as such (`Recursion.takeUp`), on the tasks
and by the rule of `lookups`, and proved to be what the stack does.

The invariant that carries the proof is that a frame is never looked at before those above it are
gone: working off `⟨i, pending⟩ :: rest` is taking up `pending`, placing `i` and going on with
`rest` (`settle_cons`). Nothing is said about the marks, so cycles need no case of their own.
-/

namespace Roadmap.Plan

namespace Recursion

/-- The first day of the task at `i`, given the marks so far; a task that is only opened counts as
absent. -/
def startDay (tasks : List Task) (origin : Date) (marks : List Mark) (i : Nat) (t : Task) : Date :=
  match t.explicitStart with
  | some d => d
  | none =>
    let finished := (t.dependsOn tasks).filterMap fun j => (placedAt marks j).map Span.finish
    let nested := match siblingBefore? tasks i t with
      | some s => (placedAt marks s).map Span.finish
      | none => (t.parent.bind (placedAt marks)).map Span.start
    (finished ++ nested.toList).foldl max origin

/-- The mark of the task at `i` once it is placed. -/
def placed (tasks : List Task) (origin : Date) (marks : List Mark) (i : Nat) : Mark :=
  match tasks[i]? with
  | some t =>
    let start := startDay tasks origin marks i t
    .placed ⟨start, start.shift t.duration⟩
  | none => .opened

theorem startDay_of_pinned {t : Task} {d : Date} (h : t.explicitStart = some d) (tasks : List Task)
    (origin : Date) (marks : List Mark) (i : Nat) : startDay tasks origin marks i t = d := by
  rw [startDay, h]

theorem le_startDay {tasks : List Task} {i j : Nat} {t : Task} (hfree : t.explicitStart = none)
    (hj : j ∈ t.dependsOn tasks) {marks : List Mark} {s : Span}
    (hs : marks[j]? = some (.placed s)) (origin : Date) :
    s.finish ≤ startDay tasks origin marks i t := by
  rw [startDay, hfree]
  refine (Date.isGreatest_foldl_max _ _).2 ?_
  refine List.mem_cons_of_mem _ (List.mem_append_left _ (List.mem_filterMap.mpr ⟨j, hj, ?_⟩))
  rw [placedAt, hs]
  rfl

theorem placed_ne_unseen (tasks : List Task) (origin : Date) (marks : List Mark) (i : Nat) :
    placed tasks origin marks i ≠ .unseen := by
  unfold placed
  split <;> simp

/-- Takes up tasks one after the other. One that carries a mark is passed over; any other is
opened, the tasks it looks up are taken up, and it is placed. -/
def takeUp (tasks : List Task) (origin : Date) (marks : List Mark) :
    List Nat → { after : List Mark // unseenCount after ≤ unseenCount marks }
  | [] => ⟨marks, Nat.le_refl _⟩
  | i :: is =>
    if h : marks[i]? = some .unseen then
      have opening := unseenCount_set_lt (by simp : Mark.opened ≠ .unseen) h
      let ⟨ready, atMost⟩ := takeUp tasks origin (marks.set i .opened) (lookups tasks i)
      have closing := unseenCount_set_le ready i (placed_ne_unseen tasks origin ready i)
      let ⟨after, atMost'⟩ := takeUp tasks origin (ready.set i (placed tasks origin ready i)) is
      ⟨after, by omega⟩
    else takeUp tasks origin marks is
termination_by is => (unseenCount marks, is.length)
decreasing_by
  · exact Prod.Lex.left _ _ opening
  · exact Prod.Lex.left _ _ (by omega)
  · exact Prod.Lex.right _ (Nat.lt_succ_self _)

/-- The marks of all tasks, which are taken up in their order. -/
def resolve (tasks : List Task) (origin : Date) : List Mark :=
  (takeUp tasks origin (List.replicate tasks.length .unseen) (List.range tasks.length)).1

/-! ## The recursion as a relation

One constructor for each way in which a list of tasks is taken up; proofs about the recursion are
inductions over these. -/

/-- Taking up tasks turns some marks into others. -/
inductive TakesUp (tasks : List Task) (origin : Date) : List Mark → List Nat → List Mark → Prop where
  | nil (marks : List Mark) : TakesUp tasks origin marks [] marks
  | seen {marks after : List Mark} {i : Nat} {is : List Nat} (h : marks[i]? ≠ some .unseen)
      (rest : TakesUp tasks origin marks is after) : TakesUp tasks origin marks (i :: is) after
  | unseen {marks ready after : List Mark} {i : Nat} {is : List Nat}
      (h : marks[i]? = some .unseen)
      (first : TakesUp tasks origin (marks.set i .opened) (lookups tasks i) ready)
      (rest : TakesUp tasks origin (ready.set i (placed tasks origin ready i)) is after) :
      TakesUp tasks origin marks (i :: is) after

theorem takesUp_takeUp (tasks : List Task) (origin : Date) (marks : List Mark) (is : List Nat) :
    TakesUp tasks origin marks is (takeUp tasks origin marks is).1 := by
  fun_induction takeUp with
  | case1 marks => exact .nil marks
  | case2 marks i is h _ ready _ hready _ after _ hafter first rest =>
      rw [hready] at first
      rw [hafter] at rest
      exact .unseen h first rest
  | case3 marks i is h rest => exact .seen h rest

/-! ## The stack follows the recursion -/

theorem place_site (tasks : List Task) {i : Nat} (origin : Date) (marks : List Mark) {t : Task}
    (hs : previousSibling? tasks i = siblingBefore? tasks i t) :
    ((t.site tasks i).place origin (placedAt marks)).start
      = startDay tasks origin marks i t := by
  rw [Site.place, startDay, Site.bounds, Site.nested, Task.site, hs, ← Task.dependsOn_eq]
  cases t.explicitStart with
  | some d => rfl
  | none =>
      cases hp : t.parent with
      | none => simp [siblingBefore?, hp]
      | some p => cases siblingBefore? tasks i t <;> rfl

theorem placeAt_sites {tasks : List Task} (hl : Linked tasks) (origin : Date) (marks : List Mark)
    (i : Nat) : placeAt (sites tasks) origin marks i = placed tasks origin marks i := by
  rw [placeAt, placed, sites_getElem?]
  cases ht : tasks[i]? with
  | none => rfl
  | some t =>
      have hstart := place_site tasks origin marks (hl.previousSibling?_eq ht)
      simp only [Option.map_some, ← hstart]
      rfl

/-- Working off a frame is taking up what it has left to look up, placing its task and going on
with the frames below, which are not looked at before. -/
theorem settle_cons {tasks : List Task} (hl : Linked tasks) {origin : Date}
    {marks after : List Mark} {pending : List Nat} (h : TakesUp tasks origin marks pending after)
    (i : Nat) (rest : List Frame) :
    settle (sites tasks) origin marks (⟨i, pending⟩ :: rest)
      = settle (sites tasks) origin (after.set i (placed tasks origin after i)) rest := by
  induction h generalizing i rest with
  | nil marks => rw [settle, placeAt_sites hl]
  | seen h _ ih => rw [settle, if_neg h, ih]
  | unseen h _ _ ihfirst ihrest =>
      rw [settle, if_pos h, requiredBy_sites hl, ihfirst, ihrest]

theorem visit_eq {tasks : List Task} (hl : Linked tasks) (origin : Date) {marks after : List Mark}
    {i : Nat} {is : List Nat} (h : TakesUp tasks origin marks (i :: is) after) :
    TakesUp tasks origin (visit (sites tasks) origin marks i) is after := by
  cases h with
  | seen h rest => rwa [visit, if_neg h]
  | unseen h first rest =>
      rwa [visit, if_pos h, requiredBy_sites hl, settle_cons hl first, settle]

theorem foldl_visit {tasks : List Task} (hl : Linked tasks) (origin : Date) {is : List Nat}
    {marks after : List Mark} (h : TakesUp tasks origin marks is after) :
    is.foldl (visit (sites tasks) origin) marks = after := by
  induction is generalizing marks with
  | nil =>
      cases h
      rfl
  | cons i is ih => exact ih (visit_eq hl origin h)

theorem resolve_sites {tasks : List Task} (hl : Linked tasks) (origin : Date) :
    Plan.resolve (sites tasks) origin = resolve tasks origin := by
  rw [Plan.resolve, length_sites]
  exact foldl_visit hl origin (takesUp_takeUp tasks origin _ _)

/-! ## What taking up does to the marks -/

/-- Marks only ever change from unseen to placed. -/
def Grows (marks after : List Mark) : Prop :=
  ∀ j : Nat, after[j]? = marks[j]? ∨ marks[j]? = some .unseen ∧ ∃ s, after[j]? = some (.placed s)

theorem Grows.trans {a b c : List Mark} (h : Grows a b) (h' : Grows b c) : Grows a c := by
  intro j
  rcases h j with hab | ⟨ha, s, hb⟩
  · rw [← hab]
    exact h' j
  · rcases h' j with hbc | ⟨hb', -⟩
    · exact .inr ⟨ha, s, hbc.trans hb⟩
    · rw [hb] at hb'
      cases hb'

theorem Grows.kept {marks after : List Mark} (h : Grows marks after) {j : Nat} {m : Mark}
    (hj : marks[j]? = some m) (hm : m ≠ .unseen) : after[j]? = some m := by
  rcases h j with h | ⟨h, -⟩
  · exact h.trans hj
  · exact absurd (Option.some.inj (hj.symm.trans h)) hm

theorem Grows.opened {marks after : List Mark} (h : Grows marks after) {j : Nat}
    (hj : after[j]? = some .opened) : marks[j]? = some .opened := by
  rcases h j with h | ⟨-, s, h⟩
  · exact h.symm.trans hj
  · rw [h] at hj
    cases hj

theorem Grows.seen {marks after : List Mark} (h : Grows marks after) {j : Nat}
    (hj : marks[j]? ≠ some .unseen) : after[j]? ≠ some .unseen := by
  rcases h j with h | ⟨h, -⟩
  · rwa [h]
  · exact absurd h hj

theorem placed_eq {tasks : List Task} {i : Nat} {t : Task} (ht : tasks[i]? = some t)
    (origin : Date) (marks : List Mark) :
    placed tasks origin marks i = .placed
      ⟨startDay tasks origin marks i t, (startDay tasks origin marks i t).shift t.duration⟩ := by
  rw [placed, ht]

theorem TakesUp.length {tasks : List Task} {origin : Date} {marks after : List Mark}
    {is : List Nat} (h : TakesUp tasks origin marks is after) : after.length = marks.length := by
  induction h with
  | nil => rfl
  | seen _ _ ih => exact ih
  | unseen _ _ _ ihfirst ihrest => rw [ihrest, List.length_set, ihfirst, List.length_set]

/-- The step of the recursion: opening a task, taking up what it looks up and placing it. -/
theorem grows_step {tasks : List Task} {origin : Date} {marks ready : List Mark} {i : Nat}
    (hlen : marks.length = tasks.length) (h : marks[i]? = some .unseen)
    (hg : Grows (marks.set i .opened) ready) :
    Grows marks (ready.set i (placed tasks origin ready i)) := by
  have hi : i < marks.length := (List.getElem?_eq_some_iff.mp h).1
  have hready : ready[i]? = some .opened :=
    hg.kept (List.getElem?_set_self hi) (by simp)
  intro j
  by_cases hij : i = j
  · subst hij
    have hp := placed_eq (List.getElem?_eq_getElem (hlen ▸ hi)) origin ready
    have hset := List.getElem?_set_self (a := placed tasks origin ready i)
      (List.getElem?_eq_some_iff.mp hready).1
    exact .inr ⟨h, _, hset.trans (congrArg some hp)⟩
  · rw [List.getElem?_set_ne hij]
    have := hg j
    rwa [List.getElem?_set_ne hij] at this

theorem TakesUp.grows {tasks : List Task} {origin : Date} {marks after : List Mark}
    {is : List Nat} (h : TakesUp tasks origin marks is after) (hlen : marks.length = tasks.length) :
    Grows marks after := by
  induction h with
  | nil => exact fun _ => .inl rfl
  | seen _ _ ih => exact ih hlen
  | unseen h first _ ihfirst ihrest =>
      have hg := ihfirst (by rw [List.length_set, hlen])
      refine (grows_step hlen h hg).trans (ihrest ?_)
      rw [List.length_set, first.length, List.length_set, hlen]

theorem TakesUp.looked {tasks : List Task} {origin : Date} {marks after : List Mark}
    {is : List Nat} (h : TakesUp tasks origin marks is after) (hlen : marks.length = tasks.length) :
    ∀ i ∈ is, after[i]? ≠ some .unseen := by
  induction h with
  | nil => exact fun i hi => absurd hi List.not_mem_nil
  | seen h rest ih =>
      intro j hj
      rcases List.mem_cons.mp hj with rfl | hj
      · exact (rest.grows hlen).seen h
      · exact ih hlen j hj
  | @unseen marks ready after i is h first rest _ ihrest =>
      have hready : ready.length = marks.length := by rw [first.length, List.length_set]
      have hlen' : (ready.set i (placed tasks origin ready i)).length = tasks.length := by
        rw [List.length_set, hready, hlen]
      intro j hj
      rcases List.mem_cons.mp hj with rfl | hj
      · refine (rest.grows hlen').seen ?_
        rw [List.getElem?_set_self (hready ▸ (List.getElem?_eq_some_iff.mp h).1)]
        exact fun hp => placed_ne_unseen _ _ _ _ (Option.some.inj hp)
      · exact ihrest hlen' j hj

/-! ## The moment at which a task is placed

When a task gets its days, the tasks it looks up are placed or, if they are part of a cycle, still
open; and what is still open waits for the task, so it requires the task through others. -/

/-- The marks at the moment when the task at `i` got the mark that it has in `final`. -/
structure Moment (tasks : List Task) (origin : Date) (final : List Mark) (i : Nat)
    (marks : List Mark) : Prop where
  length : marks.length = tasks.length
  looked : ∀ j ∈ lookups tasks i, marks[j]? ≠ some .unseen
  waiting : ∀ j : Nat, marks[j]? = some .opened → Reaches tasks j i
  kept : ∀ (j : Nat) (s : Span), marks[j]? = some (.placed s) → final[j]? = some (.placed s)
  mark : ∃ t, tasks[i]? = some t ∧ final[i]? = some (.placed
    ⟨startDay tasks origin marks i t, (startDay tasks origin marks i t).shift t.duration⟩)

theorem Moment.mono {tasks : List Task} {origin : Date} {final final' marks : List Mark} {i : Nat}
    (h : Moment tasks origin final i marks)
    (hkept : ∀ (j : Nat) (s : Span), final[j]? = some (.placed s) → final'[j]? = some (.placed s)) :
    Moment tasks origin final' i marks := by
  obtain ⟨t, ht, hmark⟩ := h.mark
  exact ⟨h.length, h.looked, h.waiting, fun j s hs => hkept j s (h.kept j s hs), t, ht, hkept _ _ hmark⟩

/-- Every task that is placed has had its moment. -/
def Explained (tasks : List Task) (origin : Date) (marks : List Mark) : Prop :=
  ∀ (i : Nat) (s : Span), marks[i]? = some (.placed s) → ∃ m, Moment tasks origin marks i m

/-- The step: if all that is open leads to the task at `i`, then placing it is its moment. -/
theorem Explained.step {tasks : List Task} {origin : Date} {marks ready : List Mark} {i : Nat}
    (hlen : marks.length = tasks.length) (h : marks[i]? = some .unseen)
    (hwait : ∀ j : Nat, marks[j]? = some .opened → Reaches tasks j i)
    (first : TakesUp tasks origin (marks.set i .opened) (lookups tasks i) ready)
    (hready : Explained tasks origin ready) :
    Explained tasks origin (ready.set i (placed tasks origin ready i)) := by
  have hi : i < marks.length := (List.getElem?_eq_some_iff.mp h).1
  have hlen' : (marks.set i .opened).length = tasks.length := by rw [List.length_set, hlen]
  have hopen : ready[i]? = some .opened :=
    (first.grows hlen').kept (List.getElem?_set_self hi) (by simp)
  have hkept : ∀ (j : Nat) (s : Span), ready[j]? = some (.placed s) →
      (ready.set i (placed tasks origin ready i))[j]? = some (.placed s) := by
    intro j s hs
    have hij : i ≠ j := fun hij => by
      rw [← hij, hopen] at hs
      cases hs
    rwa [List.getElem?_set_ne hij]
  intro j s hs
  by_cases hij : i = j
  · subst hij
    refine ⟨ready, first.length.trans hlen', first.looked hlen', fun k hk => ?_, hkept, tasks[i],
      List.getElem?_eq_getElem (hlen ▸ hi), ?_⟩
    · have hk' := (first.grows hlen').opened hk
      by_cases hik : i = k
      · exact hik ▸ .refl
      · rw [List.getElem?_set_ne hik] at hk'
        exact hwait k hk'
    · rw [List.getElem?_set_self (List.getElem?_eq_some_iff.mp hopen).1,
        placed_eq (List.getElem?_eq_getElem (hlen ▸ hi))]
  · rw [List.getElem?_set_ne hij] at hs
    obtain ⟨m, hm⟩ := hready j s hs
    exact ⟨m, hm.mono hkept⟩

theorem TakesUp.explained {tasks : List Task} {origin : Date} {marks after : List Mark}
    {is : List Nat} (h : TakesUp tasks origin marks is after) (hlen : marks.length = tasks.length)
    (hwait : ∀ j : Nat, marks[j]? = some .opened → ∀ i ∈ is, Reaches tasks j i)
    (hexp : Explained tasks origin marks) : Explained tasks origin after := by
  induction h with
  | nil => exact hexp
  | seen _ _ ih =>
      exact ih hlen (fun j hj i hi => hwait j hj i (List.mem_cons_of_mem _ hi)) hexp
  | @unseen marks ready after i is h first rest ihfirst ihrest =>
      have hi : i < marks.length := (List.getElem?_eq_some_iff.mp h).1
      have hset : (marks.set i .opened).length = tasks.length := by rw [List.length_set, hlen]
      have hlast : (ready.set i (placed tasks origin ready i)).length = tasks.length := by
        rw [List.length_set, first.length, hset]
      have hhead : ∀ j : Nat, marks[j]? = some .opened → Reaches tasks j i :=
        fun j hj => hwait j hj i List.mem_cons_self
      -- what is open below `i` leads to `i`, hence to whatever `i` looks up
      have hbelow : ∀ j : Nat, (marks.set i .opened)[j]? = some .opened →
          ∀ k ∈ lookups tasks i, Reaches tasks j k := by
        intro j hj k hk
        by_cases hij : i = j
        · exact hij ▸ .single hk
        · rw [List.getElem?_set_ne hij] at hj
          exact (hhead j hj).tail hk
      have hready : Explained tasks origin ready := by
        refine ihfirst hset hbelow fun j s hs => ?_
        have hij : i ≠ j := fun hij => by
          rw [← hij, List.getElem?_set_self hi] at hs
          cases hs
        rw [List.getElem?_set_ne hij] at hs
        obtain ⟨m, hm⟩ := hexp j s hs
        refine ⟨m, hm.mono fun k s' hk => ?_⟩
        have hik : i ≠ k := fun hik => by
          rw [← hik, h] at hk
          cases hk
        rwa [List.getElem?_set_ne hik]
      refine ihrest hlast (fun j hj k hk => ?_) (.step hlen h hhead first hready)
      have hopen : marks[j]? = some .opened := (grows_step hlen h (first.grows hset)).opened hj
      exact hwait j hopen k (List.mem_cons_of_mem _ hk)

/-! ## The marks in the end -/

theorem replicate_ne (n j : Nat) {m : Mark} (hm : m ≠ .unseen) :
    (List.replicate n Mark.unseen)[j]? ≠ some m := by
  intro h
  exact hm (List.eq_of_mem_replicate (List.mem_of_getElem? h))

theorem length_resolve (tasks : List Task) (origin : Date) :
    (resolve tasks origin).length = tasks.length := by
  rw [resolve, (takesUp_takeUp tasks origin _ _).length, List.length_replicate]

/-- From no marks at all, whatever is taken up gets placed and has its moment. -/
theorem TakesUp.exists_moment {tasks : List Task} {origin : Date} {is : List Nat}
    {after : List Mark} (h : TakesUp tasks origin (.replicate tasks.length .unseen) is after)
    {i : Nat} (hi : i < tasks.length) (his : i ∈ is) : ∃ m, Moment tasks origin after i m := by
  have hlen : (List.replicate tasks.length Mark.unseen).length = tasks.length :=
    List.length_replicate
  have hexp : Explained tasks origin after :=
    h.explained hlen (fun j hj => absurd hj (replicate_ne _ j (by simp)))
      (fun j s hs => absurd hs (replicate_ne _ j (by simp)))
  have hi' : i < after.length := by rwa [h.length, hlen]
  cases hm : after[i] with
  | unseen =>
      refine absurd ?_ (h.looked hlen i his)
      exact (List.getElem?_eq_getElem hi').trans (congrArg some hm)
  | opened =>
      refine absurd ((h.grows hlen).opened ?_) (replicate_ne _ i (by simp))
      exact (List.getElem?_eq_getElem hi').trans (congrArg some hm)
  | placed s =>
      exact hexp i s ((List.getElem?_eq_getElem hi').trans (congrArg some hm))

/-- In the end every task is placed, and has had its moment. -/
theorem exists_moment {tasks : List Task} {i : Nat} (hi : i < tasks.length) (origin : Date) :
    ∃ m, Moment tasks origin (resolve tasks origin) i m :=
  (takesUp_takeUp tasks origin _ _).exists_moment hi (List.mem_range.mpr hi)

end Recursion

/-! ## Placed tasks -/

theorem length_placeTasks (tasks : List Task) (origin : Date) :
    (placeTasks tasks origin).length ≤ tasks.length := by
  rw [placeTasks, List.length_zipWith]
  exact Nat.min_le_left _ _

/-- Linked tasks end up on the days that the recursion finds at their moment. -/
theorem placeTasks_getElem? {tasks : List Task} (hl : Linked tasks) (origin : Date) {i : Nat}
    {t : Task} (ht : tasks[i]? = some t) :
    ∃ m, Recursion.Moment tasks origin (Recursion.resolve tasks origin) i m
      ∧ (placeTasks tasks origin)[i]? = some { t with
        start := Recursion.startDay tasks origin m i t
        finish := (Recursion.startDay tasks origin m i t).shift t.duration } := by
  obtain ⟨m, hm⟩ := Recursion.exists_moment (List.getElem?_eq_some_iff.mp ht).1 origin
  obtain ⟨t', ht', hmark⟩ := hm.mark
  obtain rfl := Option.some.inj (ht.symm.trans ht')
  refine ⟨m, hm, ?_⟩
  rw [placeTasks, Recursion.resolve_sites hl, List.getElem?_zipWith, ht, hmark]
  rfl

/-- The marks in the end are the days of the placed tasks. -/
theorem map_placeTasks {tasks : List Task} (hl : Linked tasks) (origin : Date) :
    (placeTasks tasks origin).map (fun t => Mark.placed ⟨t.start, t.finish⟩)
      = Recursion.resolve tasks origin := by
  refine List.ext_getElem? fun i => ?_
  rw [List.getElem?_map]
  cases ht : tasks[i]? with
  | none =>
      have hi := List.getElem?_eq_none_iff.mp ht
      have hp := Nat.le_trans (length_placeTasks tasks origin) hi
      have hr := Recursion.length_resolve tasks origin ▸ hi
      rw [List.getElem?_eq_none hp, List.getElem?_eq_none hr, Option.map_none]
  | some t =>
      obtain ⟨m, hm, hplace⟩ := placeTasks_getElem? hl origin ht
      obtain ⟨t', ht', hmark⟩ := hm.mark
      obtain rfl := Option.some.inj (ht.symm.trans ht')
      rw [hplace, hmark, Option.map_some]

/-- The stack and the recursion agree, whatever the levels, durations, pins and dependencies of
the tasks are: both leave the same marks, every task is placed, and on the same days. -/
theorem resolve_link_eq_recursion (tasks : List Task) (origin : Date) :
    resolve (sites (link tasks)) origin = Recursion.resolve (link tasks) origin
      ∧ (placeTasks (link tasks) origin).map (fun t => Mark.placed ⟨t.start, t.finish⟩)
        = Recursion.resolve (link tasks) origin :=
  have hl := linked_link tasks
  ⟨Recursion.resolve_sites hl origin, map_placeTasks hl origin⟩

end Roadmap.Plan
