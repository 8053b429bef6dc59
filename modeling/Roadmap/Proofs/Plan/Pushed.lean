import Roadmap.Proofs.Plan.Equations
import Roadmap.Proofs.Plan.Settled

/-!
# A drag pushes as little as it can

Whoever depends on the dragged task, or on a task that has been moved, starts no earlier than that
one ends. If no task depends on itself through others, there is one least schedule that obeys this,
and working off the pushes leads to it; so does every other way to let tasks make way, whichever of
them goes first and however many go at a time (`pushDependents_least`).

Two bounds carry this. On every way from the start no task is later than one of those it waits for
ends (`Timely`), as ends only move later. And at the end no task is earlier (`Yields`): whenever a
task is moved, a push of its own is put on the list, so a task that still has to make way is waited
for by a push on the list (`Working`). That the path of a push holds nothing back is where cycles are
excluded. Between the two bounds there is room for one schedule, by induction along `DependsOn`.
-/

namespace Roadmap.Plan

/-! ## The rule -/

/-- The task at `i` depends on the one at `j`. -/
def DependsOn (tasks : List Task) (i j : Nat) : Prop :=
  ∃ t, tasks[i]? = some t ∧ j ∈ t.dependsOn tasks

/-- Others make way for the task at `j`: it is the dragged one, or later than it was. -/
def Moved (tasks : List Task) (x : Nat) (later : List Task) (j : Nat) : Prop :=
  j = x ∨ ∃ t t', tasks[j]? = some t ∧ later[j]? = some t' ∧ t.start < t'.start

/-- The days before which the task cannot start: its own, and the ends of those it depends on and
has to make way for. -/
inductive Due (tasks : List Task) (x : Nat) (later : List Task) (t : Task) : Date → Prop where
  | own : Due tasks x later t t.start
  | source {j : Nat} {s : Task} (hj : j ∈ t.dependsOn tasks) (hmoved : Moved tasks x later j)
      (hs : later[j]? = some s) : Due tasks x later t s.finish

/-- The dragged task stays, and each other one is as it was or takes up the days of its duration
from a later start on. -/
structure Postponed (tasks : List Task) (x : Nat) (later : List Task) : Prop where
  length : later.length = tasks.length
  self : later[x]? = tasks[x]?
  days : ∀ {i : Nat} {t t' : Task}, tasks[i]? = some t → later[i]? = some t' →
    t' = t ∨ t.start < t'.start ∧ t' = t.startAt t'.start

/-- Each task starts on the last of the days that are due. -/
structure Pushed (tasks : List Task) (x : Nat) (later : List Task) : Prop
    extends Postponed tasks x later where
  start : ∀ {i : Nat} {t t' : Task}, i ≠ x → tasks[i]? = some t → later[i]? = some t' →
    IsGreatest {d | Due tasks x later t d} t'.start

/-- Each task starts after all of the days that are due. -/
structure Yields (tasks : List Task) (x : Nat) (later : List Task) : Prop
    extends Postponed tasks x later where
  start : ∀ {i : Nat} {t t' : Task}, i ≠ x → tasks[i]? = some t → later[i]? = some t' →
    t'.start ∈ upperBounds {d | Due tasks x later t d}

/-- No task starts after all of the days that are due. -/
structure Timely (tasks : List Task) (x : Nat) (later : List Task) : Prop
    extends Postponed tasks x later where
  start : ∀ {i : Nat} {t t' : Task}, i ≠ x → tasks[i]? = some t → later[i]? = some t' →
    ∃ d, Due tasks x later t d ∧ t'.start ≤ d

/-- Some of the tasks that have to make way for one task do so. -/
def GivesWay (tasks : List Task) (x : Nat) (later after : List Task) : Prop :=
  after.length = later.length ∧ ∃ (j : Nat) (s : Task), later[j]? = some s
    ∧ Moved tasks x later j ∧ ∀ (i : Nat) (t t' : Task), later[i]? = some t → after[i]? = some t' →
      t' = t ∨ i ≠ x ∧ j ∈ t.dependsOn tasks ∧ t.start < s.finish ∧ t' = t.startAt s.finish

/-! ## Postponed tasks -/

theorem exists_of_length {xs ys : List Task} (h : ys.length = xs.length) {i : Nat} {t : Task}
    (ht : xs[i]? = some t) : ∃ t', ys[i]? = some t' :=
  ⟨_, List.getElem?_eq_getElem (h ▸ (List.getElem?_eq_some_iff.mp ht).1)⟩

section

variable {tasks later after : List Task} {x i j : Nat} {t t' : Task}

theorem Postponed.refl : Postponed tasks x tasks :=
  ⟨rfl, rfl, fun ht ht' => .inl (Option.some.inj (ht'.symm.trans ht))⟩

theorem Postponed.le (h : Postponed tasks x later) (ht : tasks[i]? = some t)
    (ht' : later[i]? = some t') : t.start ≤ t'.start := by
  rcases h.days ht ht' with rfl | ⟨hlt, -⟩
  · exact le_refl _
  · exact hlt.le

/-- But for its days a task is the same. -/
theorem Postponed.eq_startAt (h : Postponed tasks x later) (ht : tasks[i]? = some t)
    (ht' : later[i]? = some t') :
    t'.index = t.index ∧ t'.dependencies = t.dependencies ∧ t'.duration = t.duration
      ∧ ∀ d, t'.startAt d = t.startAt d := by
  rcases h.days ht ht' with rfl | ⟨-, heq⟩
  · exact ⟨rfl, rfl, rfl, fun _ => rfl⟩
  · rw [heq]
    exact ⟨rfl, rfl, rfl, fun _ => rfl⟩

theorem Postponed.dependsOn (h : Postponed tasks x later) (ht : tasks[i]? = some t)
    (ht' : later[i]? = some t') : t'.dependsOn tasks = t.dependsOn tasks := by
  rw [Task.dependsOn, Task.dependsOn, (h.eq_startAt ht ht').2.1]

/-- A task that others make way for, the dragged one apart, takes up the days of its duration. -/
theorem Postponed.finish (h : Postponed tasks x later) (hmoved : Moved tasks x later i)
    (hi : i ≠ x) (ht : later[i]? = some t) : t.finish = t.start.shift t.duration := by
  obtain ⟨t₀, t', ht₀, ht', hlt⟩ := hmoved.resolve_left hi
  obtain rfl := Option.some.inj (ht'.symm.trans ht)
  rcases h.days ht₀ ht' with rfl | ⟨-, heq⟩
  · exact absurd hlt (lt_irrefl _)
  · rw [heq]
    rfl

/-- Days tell postponed tasks apart. -/
theorem Postponed.ext (h : Postponed tasks x later) (h' : Postponed tasks x after)
    (hstart : ∀ {i : Nat} {t t' : Task}, later[i]? = some t → after[i]? = some t' →
      t.start = t'.start) : later = after := by
  refine List.ext_getElem? fun i => ?_
  cases ht₀ : tasks[i]? with
  | none =>
      have hi := List.getElem?_eq_none_iff.mp ht₀
      rw [List.getElem?_eq_none (h.length ▸ hi), List.getElem?_eq_none (h'.length ▸ hi)]
  | some t₀ =>
      obtain ⟨t, ht⟩ := exists_of_length h.length ht₀
      obtain ⟨t', ht'⟩ := exists_of_length h'.length ht₀
      have heq := hstart ht ht'
      rw [ht, ht']
      rcases h.days ht₀ ht with rfl | ⟨hlt, hmoved⟩
      · rcases h'.days ht₀ ht' with rfl | ⟨hlt', -⟩
        · rfl
        · exact absurd (heq ▸ hlt') (lt_irrefl _)
      · rcases h'.days ht₀ ht' with rfl | ⟨-, hmoved'⟩
        · exact absurd (heq ▸ hlt) (lt_irrefl _)
        · rw [hmoved, hmoved', heq]

/-! ## Ends only move later -/

/-- In a schedule that is later, so are the ends of tasks that others make way for. -/
theorem Postponed.finish_le (h : Postponed tasks x later) (h' : Postponed tasks x after)
    (hmoved : Moved tasks x later j) (ht : later[j]? = some t) (ht' : after[j]? = some t')
    (hle : t.start ≤ t'.start) : Moved tasks x after j ∧ t.finish ≤ t'.finish := by
  by_cases hj : j = x
  · subst hj
    obtain rfl := Option.some.inj (ht.symm.trans ((h.self.trans h'.self.symm).trans ht'))
    exact ⟨.inl rfl, le_refl _⟩
  · obtain ⟨t₀, s, ht₀, hs, hlt⟩ := hmoved.resolve_left hj
    obtain rfl := Option.some.inj (hs.symm.trans ht)
    have hmoved' : Moved tasks x after j := .inr ⟨t₀, t', ht₀, ht', hlt.trans_le hle⟩
    rw [h.finish hmoved hj ht, h'.finish hmoved' hj ht', (h.eq_startAt ht₀ ht).2.2.1,
      (h'.eq_startAt ht₀ ht').2.2.1]
    exact ⟨hmoved', Date.shift_mono hle (le_refl _)⟩

theorem GivesWay.le (h : GivesWay tasks x later after) (ht : later[i]? = some t)
    (ht' : after[i]? = some t') : t.start ≤ t'.start := by
  obtain ⟨-, j, s, -, -, heach⟩ := h
  rcases heach i t t' ht ht' with rfl | ⟨-, -, hlt, rfl⟩
  · exact le_refl _
  · exact hlt.le

theorem GivesWay.postponed (h : Postponed tasks x later) (hstep : GivesWay tasks x later after) :
    Postponed tasks x after := by
  obtain ⟨hlength, j, s, -, -, heach⟩ := hstep
  refine ⟨hlength.trans h.length, ?_, fun {i t₀ t'} ht₀ ht' => ?_⟩
  · cases ht : later[x]? with
    | none =>
        have hx := List.getElem?_eq_none_iff.mp ht
        rw [← h.self, ht, List.getElem?_eq_none (hlength ▸ hx)]
    | some t =>
        obtain ⟨t', ht'⟩ := exists_of_length hlength ht
        rcases heach x t t' ht ht' with rfl | ⟨hx, -⟩
        · rw [ht', ← ht, h.self]
        · exact absurd rfl hx
  · obtain ⟨t, ht⟩ := exists_of_length h.length ht₀
    rcases heach i t t' ht ht' with rfl | ⟨-, -, hlt, rfl⟩
    · exact h.days ht₀ ht
    · exact .inr ⟨(h.le ht₀ ht).trans_lt hlt, (h.eq_startAt ht₀ ht).2.2.2 s.finish⟩

theorem GivesWay.moved (h : GivesWay tasks x later after) (hmoved : Moved tasks x later j) :
    Moved tasks x after j := by
  refine hmoved.imp_right ?_
  rintro ⟨t₀, t, ht₀, ht, hlt⟩
  obtain ⟨t', ht'⟩ := exists_of_length h.1 ht
  exact ⟨t₀, t', ht₀, ht', hlt.trans_le (h.le ht ht')⟩

/-- The step: tasks that make way are not later than what they make way for ends. -/
theorem Timely.step (h : Timely tasks x later) (hstep : GivesWay tasks x later after) :
    Timely tasks x after := by
  have hpost := hstep.postponed h.toPostponed
  -- what is due only moves later
  have hdue : ∀ {j : Nat} {s t : Task}, j ∈ t.dependsOn tasks → Moved tasks x later j →
      later[j]? = some s → ∃ d, Due tasks x after t d ∧ s.finish ≤ d := by
    intro j s t hj hmoved hs
    obtain ⟨s', hs'⟩ := exists_of_length hstep.1 hs
    obtain ⟨hmoved', hle⟩ :=
      h.finish_le hpost hmoved hs hs' (hstep.le hs hs')
    exact ⟨s'.finish, .source hj hmoved' hs', hle⟩
  refine ⟨hpost, fun {i t₀ t'} hi ht₀ ht' => ?_⟩
  obtain ⟨t, ht⟩ := exists_of_length h.length ht₀
  obtain ⟨-, j, s, hs, hmoved, heach⟩ := hstep
  rcases heach i t t' ht ht' with rfl | ⟨-, hj, -, rfl⟩
  · obtain ⟨d, hd, hle⟩ := h.start hi ht₀ ht
    cases hd with
    | own => exact ⟨t₀.start, .own, hle⟩
    | source hj hmoved hs =>
        obtain ⟨d', hd', hle'⟩ := hdue hj hmoved hs
        exact ⟨d', hd', hle.trans hle'⟩
  · exact hdue (h.dependsOn ht₀ ht ▸ hj) hmoved hs

theorem Timely.refl : Timely tasks x tasks :=
  ⟨.refl, fun _ ht ht' => ⟨_, .own, (Option.some.inj (ht'.symm.trans ht)) ▸ le_refl _⟩⟩

/-- However tasks have made way, none is later than it has to be. -/
theorem timely_of_run (h : Relation.ReflTransGen (GivesWay tasks x) tasks later) :
    Timely tasks x later := by
  induction h with
  | refl => exact .refl
  | tail _ hstep ih => exact ih.step hstep

/-! ## One schedule between the two bounds -/

theorem Pushed.yields (h : Pushed tasks x later) : Yields tasks x later :=
  ⟨h.toPostponed, fun hi ht ht' => (h.start hi ht ht').2⟩

theorem Pushed.timely (h : Pushed tasks x later) : Timely tasks x later :=
  ⟨h.toPostponed, fun hi ht ht' => ⟨_, (h.start hi ht ht').1, le_refl _⟩⟩

theorem Timely.pushed (h : Timely tasks x later) (h' : Yields tasks x later) :
    Pushed tasks x later := by
  refine ⟨h.toPostponed, fun {i t t'} hi ht ht' => ⟨?_, h'.start hi ht ht'⟩⟩
  obtain ⟨d, hd, hle⟩ := h.start hi ht ht'
  rwa [hle.antisymm (h'.start hi ht ht' hd)]

theorem dependsOn_lt (h : DependsOn tasks i j) : j < tasks.length := by
  obtain ⟨t, -, hj⟩ := h
  exact (Task.mem_dependsOn.mp hj).1

/-- A schedule in which all make way is no earlier than one in which none is too late. The induction
is on what a task depends on. -/
theorem Timely.le_of_yields (hacyclic : ∀ i, ¬ Relation.TransGen (DependsOn tasks) i i)
    (h : Timely tasks x later) (h' : Yields tasks x after) {i : Nat} {t t' : Task}
    (ht : later[i]? = some t) (ht' : after[i]? = some t') : t.start ≤ t'.start := by
  have hacc : Acc (fun j k => DependsOn tasks k j) i :=
    acc_of_bounded dependsOn_lt fun j _ => hacyclic j
  induction hacc generalizing t t' with
  | intro i _ ih =>
      obtain ⟨t₀, ht₀⟩ := exists_of_length h.length.symm ht
      by_cases hi : i = x
      · subst hi
        rw [h.self, ← h'.self, ht'] at ht
        exact (Option.some.inj ht) ▸ le_refl _
      · obtain ⟨d, hd, hle⟩ := h.start hi ht₀ ht
        refine hle.trans ?_
        cases hd with
        | own => exact h'.le ht₀ ht'
        | source hj hmoved hs =>
            obtain ⟨s', hs'⟩ := exists_of_length (h'.length.trans h.length.symm) hs
            obtain ⟨hmoved', hfinish⟩ := h.finish_le h'.toPostponed hmoved hs hs'
              (ih _ ⟨t₀, ht₀, hj⟩ hs hs')
            exact hfinish.trans (h'.start hi ht₀ ht' (.source hj hmoved' hs'))

theorem Pushed.unique (hacyclic : ∀ i, ¬ Relation.TransGen (DependsOn tasks) i i)
    (h : Pushed tasks x later) (h' : Pushed tasks x after) : later = after :=
  h.ext h'.toPostponed fun ht ht' => le_antisymm
    (h.timely.le_of_yields hacyclic h'.yields ht ht')
    (h'.timely.le_of_yields hacyclic h.yields ht' ht)

end

/-! ## Working off the pushes -/

/-- A run that has come to `later` with these pushes left: whoever still has to make way, has to do
so for the source of one of them. -/
structure Working (tasks : List Task) (x : Nat) (later : List Task) (stack : List Push) : Prop where
  run : Relation.ReflTransGen (GivesWay tasks x) tasks later
  moved : ∀ p ∈ stack, Moved tasks x later p.source
  dragged : ∀ p ∈ stack, x ∈ p.path
  path : ∀ p ∈ stack, ∀ k ∈ p.path, Relation.ReflTransGen (DependsOn tasks) p.source k
  pending : ∀ {i j : Nat} {t s : Task}, i ≠ x → later[i]? = some t → j ∈ t.dependsOn tasks →
    Moved tasks x later j → later[j]? = some s → t.start < s.finish → ∃ p ∈ stack, p.source = j

section

variable {tasks later : List Task} {x : Nat} {p : Push} {rest : List Push} {source : Task}
  (hindex : ∀ (i : Nat) (t : Task), tasks[i]? = some t → t.index = i)

theorem working_start : Working tasks x tasks [⟨x, [x]⟩] := by
  refine ⟨.refl, fun p hp => ?_, fun p hp => ?_, fun p hp k hk => ?_,
    fun {i j t s} _ _ _ hmoved _ _ => ⟨_, List.mem_singleton_self _, ?_⟩⟩
  · rw [List.mem_singleton.mp hp]
    exact .inl rfl
  · rw [List.mem_singleton.mp hp]
    exact List.mem_singleton_self x
  · rw [List.mem_singleton.mp hp] at hk ⊢
    rw [List.mem_singleton.mp hk]
  · rcases hmoved with rfl | ⟨u, u', hu, hu', hlt⟩
    · rfl
    · obtain rfl := Option.some.inj (hu.symm.trans hu')
      exact absurd hlt (lt_irrefl _)

include hindex

theorem Working.index (h : Working tasks x later rest) {i : Nat} {t : Task}
    (ht : later[i]? = some t) : t.index = i := by
  have hpost := (timely_of_run h.run).toPostponed
  obtain ⟨t₀, ht₀⟩ := exists_of_length hpost.length.symm ht
  rw [(hpost.eq_startAt ht₀ ht).1, hindex i t₀ ht₀]

/-- Whom a push moves. -/
theorem Working.moves_iff (h : Working tasks x later (p :: rest))
    (hsource : later[p.source]? = some source) {i : Nat} {t : Task} (ht : later[i]? = some t) :
    p.moves source t
      ↔ p.source ∈ t.dependsOn tasks ∧ i ∉ p.path ∧ t.start < source.finish := by
  have hlt : p.source < tasks.length :=
    (timely_of_run h.run).length ▸ (List.getElem?_eq_some_iff.mp hsource).1
  rw [Push.moves, Task.position, h.index hindex hsource, h.index hindex ht]
  simp only [Bool.and_eq_true, List.contains_iff_mem, Bool.not_eq_true', decide_eq_true_eq,
    ← Bool.not_eq_true, Task.mem_dependsOn, hlt, true_and, and_assoc]

theorem Working.givesWay (h : Working tasks x later (p :: rest))
    (hsource : later[p.source]? = some source) : GivesWay tasks x later (p.apply source later) := by
  refine ⟨List.length_map _, p.source, source, hsource, h.moved p List.mem_cons_self,
    fun i t t' ht ht' => ?_⟩
  rw [Push.apply, List.getElem?_map, ht, Option.map_some] at ht'
  obtain rfl := Option.some.inj ht'
  split
  · next hm =>
      obtain ⟨hj, hpath, hlt⟩ := (h.moves_iff hindex hsource ht).mp hm
      have hi : i ≠ x := fun heq => hpath (heq ▸ h.dragged p List.mem_cons_self)
      exact .inr ⟨hi, hj, hlt, rfl⟩
  · exact .inl rfl

theorem Working.mem_next (h : Working tasks x later (p :: rest)) {q : Push} :
    q ∈ p.next source later
      ↔ ∃ i t, later[i]? = some t ∧ p.moves source t ∧ q = ⟨i, i :: p.path⟩ := by
  rw [Push.next, List.mem_reverse, List.mem_map]
  constructor
  · rintro ⟨t, ht, rfl⟩
    obtain ⟨hmem, hm⟩ := List.mem_filter.mp ht
    obtain ⟨i, hi⟩ := List.getElem?_of_mem hmem
    exact ⟨i, t, hi, hm, by rw [h.index hindex hi]⟩
  · rintro ⟨i, t, ht, hm, rfl⟩
    exact ⟨t, List.mem_filter.mpr ⟨List.mem_of_getElem? ht, hm⟩, by rw [h.index hindex ht]⟩

/-- The step: what one push leaves is what is still to be worked off. -/
theorem Working.step (hacyclic : ∀ i, ¬ Relation.TransGen (DependsOn tasks) i i)
    (h : Working tasks x later (p :: rest)) (hsource : later[p.source]? = some source) :
    Working tasks x (p.apply source later) (p.next source later ++ rest) := by
  have hpost := (timely_of_run h.run).toPostponed
  have hgives := h.givesWay hindex hsource
  have hmoves := fun {i : Nat} {t : Task} => h.moves_iff hindex hsource (i := i) (t := t)
  have hafter : ∀ {i : Nat} {t : Task}, later[i]? = some t → (p.apply source later)[i]?
      = some (if p.moves source t then t.startAt source.finish else t) := by
    intro i t ht
    rw [Push.apply, List.getElem?_map, ht, Option.map_some]
  refine ⟨h.run.tail hgives, fun q hq => ?_, fun q hq => ?_, fun q hq k hk => ?_,
    fun {i j t s} hi ht hj hmoved hs hlt => ?_⟩
  · rcases List.mem_append.mp hq with hq | hq
    · obtain ⟨i, t, ht, hm, rfl⟩ := (h.mem_next hindex).mp hq
      obtain ⟨t₀, ht₀⟩ := exists_of_length hpost.length.symm ht
      have ht' := hafter ht
      rw [if_pos hm] at ht'
      exact .inr ⟨t₀, _, ht₀, ht', (hpost.le ht₀ ht).trans_lt ((hmoves ht).mp hm).2.2⟩
    · exact hgives.moved (h.moved q (List.mem_cons_of_mem p hq))
  · rcases List.mem_append.mp hq with hq | hq
    · obtain ⟨i, t, -, -, rfl⟩ := (h.mem_next hindex).mp hq
      exact List.mem_cons_of_mem i (h.dragged p List.mem_cons_self)
    · exact h.dragged q (List.mem_cons_of_mem p hq)
  · rcases List.mem_append.mp hq with hq | hq
    · obtain ⟨i, t, ht, hm, rfl⟩ := (h.mem_next hindex).mp hq
      rcases List.mem_cons.mp hk with rfl | hk
      · exact .refl
      · obtain ⟨t₀, ht₀⟩ := exists_of_length hpost.length.symm ht
        have hj := hpost.dependsOn ht₀ ht ▸ ((hmoves ht).mp hm).1
        exact (h.path p List.mem_cons_self k hk).head ⟨t₀, ht₀, hj⟩
    · exact h.path q (List.mem_cons_of_mem p hq) k hk
  · -- how the two tasks stood before
    obtain ⟨t₁, ht₁⟩ := exists_of_length (List.length_map _).symm ht
    obtain ⟨s₁, hs₁⟩ := exists_of_length (List.length_map _).symm hs
    obtain ⟨t₀, ht₀⟩ := exists_of_length hpost.length.symm ht₁
    have hdeps : j ∈ t₁.dependsOn tasks := by
      rwa [hpost.dependsOn ht₀ ht₁, ← (hgives.postponed hpost).dependsOn ht₀ ht]
    have hlt₁ : t₁.start < s.finish := (hgives.le ht₁ ht).trans_lt hlt
    rw [hafter hs₁] at hs
    cases hms : p.moves source s₁ with
    | true =>
        exact ⟨_, List.mem_append_left rest ((h.mem_next hindex).mpr ⟨j, s₁, hs₁, hms, rfl⟩), rfl⟩
    | false =>
        rw [hms, if_neg Bool.false_ne_true] at hs
        obtain rfl := Option.some.inj hs
        by_cases hj' : j = p.source
        · -- the push that has been worked off leaves nobody in its own way
          subst hj'
          obtain rfl := Option.some.inj (hs₁.symm.trans hsource)
          rw [hafter ht₁] at ht
          cases hmt : p.moves s₁ t₁ with
          | true =>
              rw [hmt, if_pos rfl] at ht
              rw [← Option.some.inj ht] at hlt
              exact absurd hlt (lt_irrefl _)
          | false =>
              have hpath : i ∈ p.path := by
                by_contra hpath
                rw [(hmoves ht₁).mpr ⟨hdeps, hpath, hlt₁⟩] at hmt
                cases hmt
              have hback := h.path p List.mem_cons_self i hpath
              exact absurd (Relation.TransGen.head' ⟨t₀, ht₀, hpost.dependsOn ht₀ ht₁ ▸ hdeps⟩ hback)
                (hacyclic i)
        · have hmoved₁ : Moved tasks x later j := by
            refine hmoved.imp_right ?_
            rintro ⟨s₀, s', hs₀, hs', hlt'⟩
            rw [hafter hs₁, hms, if_neg Bool.false_ne_true] at hs'
            exact ⟨s₀, s', hs₀, hs₁.trans hs', hlt'⟩
          obtain ⟨q, hq, rfl⟩ := h.pending hi ht₁ hdeps hmoved₁ hs₁ hlt₁
          rcases List.mem_cons.mp hq with rfl | hq
          · exact absurd rfl hj'
          · exact ⟨q, List.mem_append_right _ hq, rfl⟩

theorem Working.push (hacyclic : ∀ i, ¬ Relation.TransGen (DependsOn tasks) i i)
    {stack : List Push} (h : Working tasks x later stack) :
    Working tasks x (push later stack) [] := by
  fun_induction Plan.push later stack with
  | case1 later => exact h
  | case2 later p rest hnone ih =>
      refine ih ⟨h.run, fun q hq => h.moved q (List.mem_cons_of_mem p hq),
        fun q hq => h.dragged q (List.mem_cons_of_mem p hq),
        fun q hq => h.path q (List.mem_cons_of_mem p hq),
        fun {i j t s} hi ht hj hmoved hs hlt => ?_⟩
      obtain ⟨q, hq, rfl⟩ := h.pending hi ht hj hmoved hs hlt
      rcases List.mem_cons.mp hq with rfl | hq
      · rw [hnone] at hs
        cases hs
      · exact ⟨q, hq, rfl⟩
  | case3 later p rest source hsource ih => exact ih (h.step hindex hacyclic hsource)

omit hindex in
/-- With no pushes left all tasks make way. -/
theorem Working.yields (h : Working tasks x later []) : Yields tasks x later := by
  have hpost := (timely_of_run h.run).toPostponed
  refine ⟨hpost, fun {i t t'} hi ht ht' d hd => ?_⟩
  cases hd with
  | own => exact hpost.le ht ht'
  | source hj hmoved hs =>
      by_contra hlt
      obtain ⟨q, hq, -⟩ := h.pending hi ht' (hpost.dependsOn ht ht' ▸ hj) hmoved hs (not_le.mp hlt)
      cases hq

end

/-- If no task depends on itself through others, a drag pushes each task that depends on the dragged
one or on a pushed one to the last end of these, if that is after its start, and leaves the others
alone. There is no other schedule like that and no earlier one in which all make way. And it does
not matter who makes way first: every run that has come to an end has come to this schedule. -/
theorem pushDependents_least {tasks : List Task} (x : Nat)
    (hindex : ∀ (i : Nat) (t : Task), tasks[i]? = some t → t.index = i)
    (hacyclic : ∀ i, ¬ Relation.TransGen (DependsOn tasks) i i) :
    Pushed tasks x (pushDependents tasks x)
      ∧ (∀ later, Pushed tasks x later → later = pushDependents tasks x)
      ∧ (∀ later, Yields tasks x later → ∀ (i : Nat) (t t' : Task),
        (pushDependents tasks x)[i]? = some t → later[i]? = some t' → t.start ≤ t'.start)
      ∧ Relation.ReflTransGen (GivesWay tasks x) tasks (pushDependents tasks x)
      ∧ ∀ later, Relation.ReflTransGen (GivesWay tasks x) tasks later → Yields tasks x later →
        later = pushDependents tasks x := by
  have hend := (working_start (x := x)).push hindex hacyclic
  have hpushed : Pushed tasks x (pushDependents tasks x) := (timely_of_run hend.run).pushed hend.yields
  refine ⟨hpushed, fun later h => h.unique hacyclic hpushed, fun later h i t t' ht ht' => ?_,
    hend.run, fun later hrun h => ?_⟩
  · exact hpushed.timely.le_of_yields hacyclic h ht ht'
  · exact ((timely_of_run hrun).pushed h).unique hacyclic hpushed

/-- Digging takes longer than it did. The decking waits for the concrete and for the stone, which in
its turn waits for the concrete, so it is pushed three times; the lamps wait for nobody. -/
def terrace : List Task :=
  let lines : List Outline.Task := [
    { level := 1, title := "Digging", duration := 6 },
    { level := 1, title := "Concrete", duration := 2, dependencies := [1] },
    { level := 1, title := "Stone", duration := 1, dependencies := [1, 2] },
    { level := 2, title := "Decking", duration := 3, dependencies := [2, 3, 9] },
    { level := 1, title := "Lamps", duration := 1, dependencies := [-4] }]
  lines.zipIdx.map fun (t, i) => Task.ofOutline t "project-0" i ⟨738100, by decide, by decide⟩

theorem pushDependents_least_terrace :
    (∀ (i : Nat) (t : Task), terrace[i]? = some t → t.index = i)
      ∧ (∀ i, ¬ Relation.TransGen (DependsOn terrace) i i)
      ∧ (pushDependents terrace 0).map (fun t => (t.start.ordinal, t.finish.ordinal))
        = [(738100, 738106), (738106, 738108), (738108, 738109), (738109, 738112),
          (738100, 738101)]
      ∧ ∃! later, Pushed terrace 0 later := by
  have hlt : ∀ {i : Nat} {t : Task}, terrace[i]? = some t → i < 5 :=
    fun ht => (List.getElem?_eq_some_iff.mp ht).1
  have hindex : ∀ (i : Nat) (t : Task), terrace[i]? = some t → t.index = i := by
    have hall : ∀ i < 5, ∀ t ∈ terrace[i]?, t.index = i := by decide
    exact fun i t ht => hall i (hlt ht) t ht
  have hacyclic : ∀ i, ¬ Relation.TransGen (DependsOn terrace) i i := by
    have hall : ∀ i < 5, ∀ t ∈ terrace[i]?, ∀ j ∈ t.dependsOn terrace, j < i := by decide
    refine acyclic_of_falling id ?_
    rintro i j ⟨t, ht, hj⟩
    exact hall i (hlt ht) t ht j hj
  obtain ⟨hpushed, hunique, -⟩ := pushDependents_least 0 hindex hacyclic
  exact ⟨hindex, hacyclic, by cbv, _, hpushed, hunique⟩

end Roadmap.Plan
