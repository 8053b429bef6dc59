import Roadmap.Proofs.Plan.Equations
import Roadmap.Proofs.Plan.Fitted

/-!
# Pinning one task

What becomes of a schedule when one task is pinned and durations of others change? A task that is
placed by neither the pinned task nor a changed duration should stay where it is. The order of the
walk stands in the way of that: the pinned task no longer sends the walk on to what it required, so
the walk comes there at another time.

If the task requires none that lies on a cycle, this does no harm. What it required is placed by the
equations, in whatever order (`Repinned.alike_of_reaches`). Everything else is placed in lockstep
(`Repinned.lockstep`): both walks are at the same task with the same marks outside of what the task
required, and inside of it nothing is ever left open.
-/

namespace Roadmap.Plan

/-- The lists hold the same tasks with other durations, and the one at `i` is pinned in the
second. -/
structure Repinned (xs ys : List Task) (i : Nat) : Prop where
  left : Linked xs
  right : Linked ys
  length : ys.length = xs.length
  level : ∀ {j : Nat} {t t' : Task}, xs[j]? = some t → ys[j]? = some t' → t'.level = t.level
  dependencies : ∀ {j : Nat} {t t' : Task}, xs[j]? = some t → ys[j]? = some t' →
    t'.dependencies = t.dependencies
  explicitStart : ∀ {j : Nat} {t t' : Task}, j ≠ i → xs[j]? = some t → ys[j]? = some t' →
    t'.explicitStart = t.explicitStart
  pinned : ∀ {t' : Task}, ys[i]? = some t' → t'.pinned

section

variable {xs ys : List Task} {i : Nat} (h : Repinned xs ys i)

include h

theorem Repinned.parallel : Parallel xs ys :=
  ⟨h.left, h.right, h.length, h.level, h.dependencies⟩

theorem Repinned.lookups_of_ne {j : Nat} (hj : j ≠ i) : lookups ys j = lookups xs j :=
  h.parallel.lookups fun ht ht' => by
    rw [Task.pinned, Task.pinned, h.explicitStart hj ht ht']

theorem Repinned.lookups_self : lookups ys i = [] := by
  rw [lookups]
  cases ht : ys[i]? with
  | none => rfl
  | some t' => simp only [h.pinned ht, if_true]

theorem Repinned.requires {j k : Nat} (hr : Requires ys j k) : Requires xs j k := by
  by_cases hj : j = i
  · rw [Requires, hj, h.lookups_self] at hr
    exact absurd hr List.not_mem_nil
  · rwa [Requires, ← h.lookups_of_ne hj]

end

/-! ## What tasks are placed by -/

/-- Starts and finishes that all tasks but the one at `i` can be placed by: those of `starts` and of
`finishes`, where no duration of the latter has changed. -/
structure Suffices (xs ys : List Task) (i : Nat) (starts finishes : Nat → Prop) : Prop where
  duration : ∀ {j : Nat} {t t' : Task}, j ≠ i → finishes j → xs[j]? = some t → ys[j]? = some t' →
    t'.duration = t.duration
  finish : ∀ {k : Nat} {t : Task}, k ≠ i → xs[k]? = some t → t.explicitStart = none →
    ∀ j, j ∈ t.dependsOn xs ∨ siblingBefore? xs k t = some j → finishes j
  start : ∀ {k : Nat} {t : Task}, k ≠ i → xs[k]? = some t → t.explicitStart = none →
    siblingBefore? xs k t = none → ∀ p, t.parent = some p → p = i → starts p

namespace Recursion

/-- The marks of a task agree as far as others are placed by it. The start of any other task than
the one at `i` agrees in any case. -/
structure Alike (i : Nat) (starts finishes : Nat → Prop) (j : Nat) (a b : List Mark) : Prop where
  start : j ≠ i ∨ starts j →
    (placedAt b j).map Span.start = (placedAt a j).map Span.start
  finish : finishes j → (placedAt b j).map Span.finish = (placedAt a j).map Span.finish

theorem placedAt_set_self {marks : List Mark} {j : Nat} (hj : j < marks.length) (m : Mark) :
    placedAt (marks.set j m) j = m.span? := by
  rw [placedAt, List.getElem?_set_self hj, Option.bind_some]

theorem placedAt_set_ne {marks : List Mark} {j k : Nat} (hjk : k ≠ j) (m : Mark) :
    placedAt (marks.set k m) j = placedAt marks j := by
  rw [placedAt, placedAt, List.getElem?_set_ne hjk]

variable {xs ys : List Task} {i : Nat} {starts finishes : Nat → Prop} {origin : Date}
  {a b : List Mark}

/-- The step: a task other than the one at `i` is placed alike if what it looks up is. -/
theorem alike_placed (h : Repinned xs ys i) (hs : Suffices xs ys i starts finishes)
    (origin : Date) {k : Nat} (hk : k ≠ i) (hlooked : ∀ j ∈ lookups xs k, Alike i starts finishes j a b) :
    (placed ys origin b k).span?.map Span.start = (placed xs origin a k).span?.map Span.start
      ∧ (finishes k → (placed ys origin b k).span?.map Span.finish
        = (placed xs origin a k).span?.map Span.finish) := by
  cases ht : xs[k]? with
  | none =>
      rw [placed, placed, ht, h.parallel.none ht]
      exact ⟨rfl, fun _ => rfl⟩
  | some t =>
      obtain ⟨t', ht'⟩ := h.parallel.exists ht
      have hpin := h.explicitStart hk ht ht'
      have hday : startDay ys origin b k t' = startDay xs origin a k t := by
        cases hd : t.explicitStart with
        | some d => rw [startDay_of_pinned hd, startDay_of_pinned (hpin.trans hd)]
        | none =>
            refine startDay_eq hpin (h.parallel.dependsOn ht ht') (h.parallel.siblingBefore? ht ht')
              (h.parallel.links ht ht').1 (fun j hj => ?_) (fun hfirst p hp => ?_) origin
            · exact (hlooked j ((mem_lookups ht hd).mpr (hj.imp_right .inr))).finish
                (hs.finish hk ht hd j hj)
            · refine (hlooked p ((mem_lookups ht hd).mpr (.inr (.inl hp)))).start ?_
              exact (ne_or_eq p i).imp_right (hs.start hk ht hd hfirst p hp)
      rw [placed_eq ht, placed_eq ht', hday]
      refine ⟨rfl, fun hf => ?_⟩
      rw [hs.duration hk hf ht ht']

/-! ## What the pinned task required -/

/-- Below the task at `i` the equations leave no choice. -/
theorem alike_of_reaches (h : Repinned xs ys i) (hs : Suffices xs ys i starts finishes)
    (hacyclic : ∀ j, Reaches xs i j → ¬ Relation.TransGen (Requires xs) j j)
    (hi : Alike i starts finishes i (resolve xs origin) (resolve ys origin)) {j : Nat}
    (hj : Reaches xs i j) :
    Alike i starts finishes j (resolve xs origin) (resolve ys origin) := by
  have hacc : Acc (fun k j => Requires xs j k) j :=
    acc_of_acyclic h.left fun k hk => hacyclic k (hj.trans hk)
  induction hacc with
  | intro j _ ih =>
      by_cases hji : j = i
      · rw [hji]
        exact hi
      · by_cases hlt : j < xs.length
        · have hlooked := fun k (hk : k ∈ lookups xs j) => ih k hk (hj.tail hk)
          have hplaced := alike_placed h hs origin hji hlooked
          -- neither walk has closed a cycle through `j`
          obtain ⟨m, hm⟩ := exists_moment hlt origin
          obtain ⟨m', hm'⟩ := exists_moment (h.length ▸ hlt) origin
          have hx := hm.balanced h.left (hacyclic j hj)
          have hy := hm'.balanced h.right fun hcycle =>
            hacyclic j hj (hcycle.lift id fun _ _ => h.requires)
          have hat : ∀ {tasks : List Task}, Balanced tasks origin (resolve tasks origin) j →
              placedAt (resolve tasks origin) j = (placed tasks origin (resolve tasks origin) j).span? :=
            fun hb => by rw [placedAt, hb, Option.bind_some]
          refine ⟨fun _ => ?_, fun hf => ?_⟩
          · rw [hat hx, hat hy, hplaced.1]
          · rw [hat hx, hat hy, hplaced.2 hf]
        · have hx : (resolve xs origin)[j]? = none :=
            List.getElem?_eq_none (by rw [length_resolve]; omega)
          have hy : (resolve ys origin)[j]? = none :=
            List.getElem?_eq_none (by rw [length_resolve, h.length]; omega)
          refine ⟨fun _ => ?_, fun _ => ?_⟩
          · rw [placedAt, placedAt, hx, hy]
          · rw [placedAt, placedAt, hx, hy]

/-! ## All other tasks -/

theorem TakesUp.split {tasks : List Task} {marks after : List Mark} {k : Nat} {is : List Nat}
    (h : TakesUp tasks origin marks (k :: is) after) :
    ∃ mid, TakesUp tasks origin marks [k] mid ∧ TakesUp tasks origin mid is after := by
  cases h with
  | seen h rest => exact ⟨marks, .seen h (.nil _), rest⟩
  | unseen h first rest => exact ⟨_, .unseen h first (.nil _), rest⟩

/-- Taking up tasks of a closed region leaves the rest alone. -/
theorem TakesUp.outside {tasks : List Task} {region : Nat → Prop}
    (hclosed : ∀ j, region j → ∀ k ∈ lookups tasks j, region k) {marks after : List Mark}
    {is : List Nat} (h : TakesUp tasks origin marks is after) (his : ∀ j ∈ is, region j) {j : Nat}
    (hj : ¬ region j) : after[j]? = marks[j]? := by
  induction h with
  | nil => rfl
  | seen _ _ ih => exact ih fun k hk => his k (List.mem_cons_of_mem _ hk)
  | @unseen marks ready after k is h _ _ ihfirst ihrest =>
      have hk := his k List.mem_cons_self
      have hne : k ≠ j := fun heq => hj (heq ▸ hk)
      rw [ihrest fun l hl => his l (List.mem_cons_of_mem _ hl), List.getElem?_set_ne hne,
        ihfirst (hclosed k hk), List.getElem?_set_ne hne]

/-- Two walks in lockstep: outside of a region they have seen the same tasks and placed them alike,
and inside of it no task is open. -/
structure Lockstep (xs ys : List Task) (i : Nat) (starts finishes region : Nat → Prop)
    (a b : List Mark) : Prop where
  left : a.length = xs.length
  right : b.length = ys.length
  unseen : ∀ j, ¬ region j → (a[j]? = some .unseen ↔ b[j]? = some .unseen)
  alike : ∀ j, ¬ region j → Alike i starts finishes j a b
  closed : ∀ j, region j → a[j]? ≠ some .opened ∧ b[j]? ≠ some .opened

/-- Going on inside of the region keeps two walks in lockstep. -/
theorem Lockstep.inside {region : Nat → Prop} (h : Lockstep xs ys i starts finishes region a b)
    {a' b' : List Mark} (hgrows : Grows a a') (hgrows' : Grows b b')
    (hlength : a'.length = a.length) (hlength' : b'.length = b.length)
    (hsame : ∀ j, ¬ region j → a'[j]? = a[j]?) (hsame' : ∀ j, ¬ region j → b'[j]? = b[j]?) :
    Lockstep xs ys i starts finishes region a' b' where
  left := hlength.trans h.left
  right := hlength'.trans h.right
  unseen j hj := by rw [hsame j hj, hsame' j hj, h.unseen j hj]
  alike j hj := by
    have hat : placedAt a' j = placedAt a j := by rw [placedAt, placedAt, hsame j hj]
    have hat' : placedAt b' j = placedAt b j := by rw [placedAt, placedAt, hsame' j hj]
    refine ⟨fun hs => ?_, fun hf => ?_⟩
    · rw [hat, hat', (h.alike j hj).start hs]
    · rw [hat, hat', (h.alike j hj).finish hf]
  closed j hj :=
    ⟨fun ho => (h.closed j hj).1 (hgrows.opened ho), fun ho => (h.closed j hj).2 (hgrows'.opened ho)⟩

/-- A task outside of the region gets its mark in both walks. -/
theorem Lockstep.set {region : Nat → Prop} (h : Lockstep xs ys i starts finishes region a b)
    {k : Nat} (hk : ¬ region k) {m m' : Mark} (hm : m ≠ .unseen) (hm' : m' ≠ .unseen)
    (hstart : k ≠ i ∨ starts k → m'.span?.map Span.start = m.span?.map Span.start)
    (hfinish : finishes k → m'.span?.map Span.finish = m.span?.map Span.finish)
    (hlt : k < xs.length) (hlength : ys.length = xs.length) :
    Lockstep xs ys i starts finishes region (a.set k m) (b.set k m') where
  left := List.length_set.trans h.left
  right := List.length_set.trans h.right
  unseen j hj := by
    by_cases hjk : k = j
    · subst hjk
      rw [List.getElem?_set_self (h.left ▸ hlt), List.getElem?_set_self (h.right ▸ hlength ▸ hlt)]
      simp [hm, hm']
    · rw [List.getElem?_set_ne hjk, List.getElem?_set_ne hjk, h.unseen j hj]
  alike j hj := by
    by_cases hjk : k = j
    · subst hjk
      have hat := placedAt_set_self (h.left ▸ hlt) m
      have hat' := placedAt_set_self (h.right ▸ hlength ▸ hlt) m'
      refine ⟨fun hs => ?_, fun hf => ?_⟩
      · rw [hat, hat', hstart hs]
      · rw [hat, hat', hfinish hf]
    · refine ⟨fun hs => ?_, fun hf => ?_⟩
      · rw [placedAt_set_ne hjk, placedAt_set_ne hjk, (h.alike j hj).start hs]
      · rw [placedAt_set_ne hjk, placedAt_set_ne hjk, (h.alike j hj).finish hf]
  closed j hj := by
    have hjk : k ≠ j := fun heq => hk (heq ▸ hj)
    rw [List.getElem?_set_ne hjk, List.getElem?_set_ne hjk]
    exact h.closed j hj

/-- What is placed has the days of the end. -/
def KeptIn (marks final : List Mark) : Prop :=
  ∀ (j : Nat) (s : Span), marks[j]? = some (.placed s) → final[j]? = some (.placed s)

/-- What is placed by the time a task gets its days stays placed. -/
theorem kept_of_unseen {tasks : List Task} {marks ready after : List Mark} {k : Nat}
    {is : List Nat} (hlen : marks.length = tasks.length) (hk : marks[k]? = some .unseen)
    (first : TakesUp tasks origin (marks.set k .opened) (lookups tasks k) ready)
    (rest : TakesUp tasks origin (ready.set k (placed tasks origin ready k)) is after) :
    KeptIn ready after := by
  intro j s hj
  have hset : (marks.set k .opened).length = tasks.length := List.length_set.trans hlen
  have hopen : ready[k]? = some .opened := (first.grows hset).kept
    (List.getElem?_set_self (List.getElem?_eq_some_iff.mp hk).1) (by simp)
  have hkj : k ≠ j := fun heq => by
    rw [← heq, hopen] at hj
    cases hj
  refine (rest.grows ?_).kept ((List.getElem?_set_ne hkj).trans hj) (by simp)
  rw [List.length_set, first.length, hset]

/-- A task that has been seen and is not open has the days of the end. -/
theorem placedAt_of_closed {marks final : List Mark} {j : Nat} (hlt : j < marks.length)
    (hseen : marks[j]? ≠ some .unseen) (hclosed : marks[j]? ≠ some .opened)
    (hkept : KeptIn marks final) : placedAt final j = placedAt marks j := by
  have hget := List.getElem?_eq_getElem hlt
  cases hm : marks[j] with
  | unseen => exact absurd (hget.trans (congrArg some hm)) hseen
  | opened => exact absurd (hget.trans (congrArg some hm)) hclosed
  | placed s =>
      have hs := hget.trans (congrArg some hm)
      rw [placedAt, placedAt, hs, hkept j s hs]

/-- Both walks take up the same tasks, and come out in lockstep. The induction is on the first of
them; on a task of the region either may do as it likes, on any other they do the same. -/
theorem TakesUp.lockstep (h : Repinned xs ys i) (hs : Suffices xs ys i starts finishes)
    {region : Nat → Prop} (hi : region i)
    (hclosed : ∀ j, region j → ∀ k ∈ lookups xs j, region k) {f g : List Mark}
    (hregion : ∀ j, region j → Alike i starts finishes j f g) {after : List Mark} {is : List Nat}
    (hx : TakesUp xs origin a is after) (hf : KeptIn after f) {after' : List Mark}
    (hy : TakesUp ys origin b is after') (hg : KeptIn after' g)
    (hlock : Lockstep xs ys i starts finishes region a b) :
    Lockstep xs ys i starts finishes region after after' := by
  have hclosed' : ∀ j, region j → ∀ k ∈ lookups ys j, region k := by
    intro j hj k hk
    exact hclosed j hj k (h.requires hk)
  have hsplit : ∀ {a mid b mid' : List Mark} {k : Nat}, region k →
      TakesUp xs origin a [k] mid → TakesUp ys origin b [k] mid' →
      Lockstep xs ys i starts finishes region a b →
      Lockstep xs ys i starts finishes region mid mid' := by
    intro a mid b mid' k hk hx hy hlock
    have hone : ∀ j ∈ [k], region j := fun j hj => List.mem_singleton.mp hj ▸ hk
    exact hlock.inside (hx.grows hlock.left) (hy.grows hlock.right) hx.length hy.length
      (fun j hj => hx.outside hclosed hone hj) (fun j hj => hy.outside hclosed' hone hj)
  induction hx generalizing b after' with
  | nil a =>
      cases hy
      exact hlock
  | @seen a after k is hk rest ih =>
      by_cases hin : region k
      · obtain ⟨mid', hmid, hrest'⟩ := hy.split
        exact ih hf hrest' hg (hsplit hin (.seen hk (.nil a)) hmid hlock)
      · cases hy with
        | seen _ rest' => exact ih hf rest' hg hlock
        | unseen hk' => exact absurd ((hlock.unseen k hin).mpr hk') hk
  | @unseen a ready after k is hk first rest ihfirst ihrest =>
      by_cases hin : region k
      · obtain ⟨mid', hmid, hrest'⟩ := hy.split
        exact ihrest hf hrest' hg (hsplit hin (.unseen hk first (.nil _)) hmid hlock)
      · have hki : k ≠ i := fun heq => hin (heq ▸ hi)
        have hlt : k < xs.length := hlock.left ▸ (List.getElem?_eq_some_iff.mp hk).1
        cases hy with
        | seen hk' => exact absurd ((hlock.unseen k hin).mp hk) hk'
        | @unseen _ ready' _ _ _ hk' first' rest' =>
            have hkept := kept_of_unseen hlock.left hk first rest
            have hkept' := kept_of_unseen hlock.right hk' first' rest'
            have hopened : Lockstep xs ys i starts finishes region (a.set k .opened)
                (b.set k .opened) :=
              hlock.set hin (by simp) (by simp) (fun _ => rfl) (fun _ => rfl) hlt h.length
            have hf' : KeptIn ready f := fun j s hj => hf j s (hkept j s hj)
            have hg' : KeptIn ready' g := fun j s hj => hg j s (hkept' j s hj)
            have hlooked' := first'.looked hopened.right
            rw [h.lookups_of_ne hki] at first' hlooked'
            have hready := ihfirst hf' first' hg' hopened
            have hlooked : ∀ j ∈ lookups xs k, Alike i starts finishes j ready ready' := by
              intro j hj
              by_cases hjin : region j
              · have hjlt := h.left.lookups_lt hj
                have hat := placedAt_of_closed (hready.left ▸ hjlt)
                  (first.looked hopened.left j hj) (hready.closed j hjin).1 hf'
                have hat' := placedAt_of_closed (hready.right ▸ h.length ▸ hjlt)
                  (hlooked' j hj) (hready.closed j hjin).2 hg'
                have halike := hregion j hjin
                exact ⟨hat ▸ hat' ▸ halike.start, hat ▸ hat' ▸ halike.finish⟩
              · exact hready.alike j hjin
            have hplaced := alike_placed h hs origin hki hlooked
            exact ihrest hf rest' hg (hready.set hin (placed_ne_unseen _ _ _ _)
              (placed_ne_unseen _ _ _ _) (fun _ => hplaced.1) hplaced.2 hlt h.length)

/-- In the end the marks of all tasks agree. -/
theorem alike_resolve (h : Repinned xs ys i) (hs : Suffices xs ys i starts finishes)
    (hacyclic : ∀ j, Reaches xs i j → ¬ Relation.TransGen (Requires xs) j j)
    (hi : Alike i starts finishes i (resolve xs origin) (resolve ys origin)) (j : Nat) :
    Alike i starts finishes j (resolve xs origin) (resolve ys origin) := by
  have hregion := fun j hj => alike_of_reaches h hs hacyclic hi (j := j) hj
  by_cases hj : Reaches xs i j
  · exact hregion j hj
  · have hx := takesUp_takeUp xs origin (.replicate xs.length .unseen) (.range xs.length)
    have hy := takesUp_takeUp ys origin (.replicate ys.length .unseen) (.range ys.length)
    have hsame : resolve ys origin
        = (takeUp ys origin (.replicate ys.length .unseen) (.range ys.length)).1 := rfl
    have hstart : Lockstep xs ys i starts finishes (Reaches xs i)
        (.replicate xs.length .unseen) (.replicate ys.length .unseen) := by
      rw [h.length]
      exact ⟨List.length_replicate, h.length ▸ List.length_replicate, fun _ _ => Iff.rfl,
        fun _ _ => ⟨fun _ => rfl, fun _ => rfl⟩,
        fun j _ => ⟨replicate_ne _ j (by simp), replicate_ne _ j (by simp)⟩⟩
    rw [← hsame] at hy
    rw [h.length] at hy hstart
    exact (hx.lockstep h hs .refl (fun j hj k hk => hj.tail hk) hregion (fun _ _ => id) hy
      (fun _ _ => id) hstart).alike j hj

end Recursion

/-! ## The days of all tasks -/

/-- Pinning a task and changing durations leaves all starts but its own, and the finishes that
tasks are placed by. -/
theorem Repinned.days {xs ys : List Task} {i : Nat} {starts finishes : Nat → Prop}
    (h : Repinned xs ys i) (hs : Suffices xs ys i starts finishes)
    (hacyclic : ∀ j, Reaches xs i j → ¬ Relation.TransGen (Requires xs) j j) (origin : Date)
    (hi : ∀ {t t' : Task}, (placeTasks xs origin)[i]? = some t →
      (placeTasks ys origin)[i]? = some t' →
      (starts i → t'.start = t.start) ∧ (finishes i → t'.finish = t.finish))
    {j : Nat} {t t' : Task} (ht : (placeTasks xs origin)[j]? = some t)
    (ht' : (placeTasks ys origin)[j]? = some t') :
    (j ≠ i ∨ starts j → t'.start = t.start) ∧ (finishes j → t'.finish = t.finish) := by
  have hx := Recursion.placedAt_resolve h.left origin
  have hy := Recursion.placedAt_resolve h.right origin
  have hlen : (placeTasks ys origin).length = (placeTasks xs origin).length := by
    rw [(agree_placeTasks h.left origin).length, (agree_placeTasks h.right origin).length, h.length]
  have hpin : Recursion.Alike i starts finishes i (Recursion.resolve xs origin)
      (Recursion.resolve ys origin) := by
    by_cases hlt : i < (placeTasks xs origin).length
    · have hget := List.getElem?_eq_getElem hlt
      have hget' := List.getElem?_eq_getElem (hlen ▸ hlt)
      obtain ⟨hstart, hfinish⟩ := hi hget hget'
      refine ⟨fun hs => ?_, fun hf => ?_⟩
      · rw [hx, hy, hget, hget']
        exact congrArg some (hstart (hs.resolve_left (· rfl)))
      · rw [hx, hy, hget, hget']
        exact congrArg some (hfinish hf)
    · have hnone := List.getElem?_eq_none (not_lt.mp hlt)
      have hnone' := List.getElem?_eq_none (hlen ▸ not_lt.mp hlt)
      refine ⟨fun _ => ?_, fun _ => ?_⟩
      · rw [hx, hy, hnone, hnone']
      · rw [hx, hy, hnone, hnone']
  have halike := Recursion.alike_resolve h hs hacyclic hpin j
  refine ⟨fun hstart => ?_, fun hfinish => ?_⟩
  · have heq := halike.start hstart
    rw [hx, hy, ht, ht'] at heq
    exact Option.some.inj heq
  · have heq := halike.finish hfinish
    rw [hx, hy, ht, ht'] at heq
    exact Option.some.inj heq

/-! ## Who waits for a task -/

/-- Another task than the one at `i` is placed by the end of the one at `j`. -/
def EndAwaited (tasks : List Task) (i j : Nat) : Prop :=
  ∃ (k : Nat) (t : Task), tasks[k]? = some t ∧ k ≠ i ∧ t.explicitStart = none
    ∧ (j ∈ t.dependsOn tasks ∨ siblingBefore? tasks k t = some j)

/-- Another task than the one at `i` is placed by the start of the one at `j`, its parent. -/
def StartAwaited (tasks : List Task) (i j : Nat) : Prop :=
  ∃ (k : Nat) (t : Task), tasks[k]? = some t ∧ k ≠ i ∧ t.explicitStart = none
    ∧ siblingBefore? tasks k t = none ∧ t.parent = some j

/-- Another task is placed by the one at `i`. -/
def Awaited (tasks : List Task) (i : Nat) : Prop := EndAwaited tasks i i ∨ StartAwaited tasks i i

theorem exists_task_iff {tasks : List Task} {q : Nat → Task → Prop} :
    (∃ k ∈ List.range tasks.length, ∃ t ∈ tasks[k]?, q k t) ↔ ∃ k t, tasks[k]? = some t ∧ q k t := by
  constructor
  · rintro ⟨k, -, t, ht, hq⟩
    exact ⟨k, t, ht, hq⟩
  · rintro ⟨k, t, ht, hq⟩
    exact ⟨k, List.mem_range.mpr (List.getElem?_eq_some_iff.mp ht).1, t, ht, hq⟩

instance (tasks : List Task) (i j : Nat) : Decidable (EndAwaited tasks i j) :=
  decidable_of_iff _ exists_task_iff

instance (tasks : List Task) (i j : Nat) : Decidable (StartAwaited tasks i j) :=
  decidable_of_iff _ exists_task_iff

instance (tasks : List Task) (i : Nat) : Decidable (Awaited tasks i) :=
  inferInstanceAs (Decidable (_ ∨ _))

theorem Agree.endAwaited {xs ys : List Task} (h : Agree xs ys) {i j : Nat}
    (hx : EndAwaited xs i j) : EndAwaited ys i j := by
  obtain ⟨k, t, ht, hk, hfree, hwaits⟩ := hx
  obtain ⟨t', ht', hu⟩ := h.exists ht
  refine ⟨k, t', ht', hk, (Task.explicitStart_of_undated hu).trans hfree, ?_⟩
  rwa [← h.dependsOn hu.symm, ← h.siblingBefore? hu.symm]

theorem Agree.startAwaited {xs ys : List Task} (h : Agree xs ys) {i j : Nat}
    (hx : StartAwaited xs i j) : StartAwaited ys i j := by
  obtain ⟨k, t, ht, hk, hfree, hfirst, hparent⟩ := hx
  obtain ⟨t', ht', hu⟩ := h.exists ht
  exact ⟨k, t', ht', hk, (Task.explicitStart_of_undated hu).trans hfree,
    (h.siblingBefore? hu.symm k).symm.trans hfirst, (Task.parent_of_undated hu).trans hparent⟩

theorem Agree.awaited {xs ys : List Task} (h : Agree xs ys) {i : Nat} (hx : Awaited xs i) :
    Awaited ys i := hx.imp h.endAwaited h.startAwaited

/-- If the pinned task keeps its days or nobody waits for them, and the same goes for the durations
that have changed, then all other tasks stay where they are. -/
theorem Repinned.stay {xs ys : List Task} {i : Nat} (h : Repinned xs ys i)
    (hacyclic : ∀ j, Reaches xs i j → ¬ Relation.TransGen (Requires xs) j j) (origin : Date)
    (hduration : ∀ {j : Nat} {t t' : Task}, j ≠ i → xs[j]? = some t → ys[j]? = some t' →
      EndAwaited xs i j → t'.duration = t.duration)
    (hi : Awaited xs i → ∀ {t t' : Task}, (placeTasks xs origin)[i]? = some t →
      (placeTasks ys origin)[i]? = some t' → t'.span = t.span)
    {j : Nat} {t t' : Task} (hj : j ≠ i) (ht : (placeTasks xs origin)[j]? = some t)
    (ht' : (placeTasks ys origin)[j]? = some t') :
    t'.start = t.start ∧ (t'.duration = t.duration → t'.finish = t.finish) := by
  have hs : Suffices xs ys i (fun _ => StartAwaited xs i i) (EndAwaited xs i) :=
    { duration := fun hj hawaited ht ht' => hduration hj ht ht' hawaited
      finish := fun hk ht hfree j hj => ⟨_, _, ht, hk, hfree, hj⟩
      start := fun hk ht hfree hfirst p hp hpi => ⟨_, _, ht, hk, hfree, hfirst, hpi ▸ hp⟩ }
  have hdays := h.days hs hacyclic origin (fun ht ht' =>
    ⟨fun hstart => congrArg Span.start (hi (.inr hstart) ht ht'),
      fun hend => congrArg Span.finish (hi (.inl hend) ht ht')⟩) ht ht'
  have hstart := hdays.1 (.inl hj)
  have hspan : ∀ {tasks : List Task} {s : Task}, Linked tasks →
      (placeTasks tasks origin)[j]? = some s → s.finish = s.start.shift s.duration := by
    intro tasks s hl hs
    obtain ⟨s₀, hs₀⟩ := exists_of_placeTasks_getElem? hs
    obtain ⟨m, -, hm⟩ := placeTasks_getElem? hl origin hs₀
    obtain rfl := Option.some.inj (hm.symm.trans hs)
    rfl
  exact ⟨hstart, fun hd => by rw [hspan h.left ht, hspan h.right ht', hstart, hd]⟩

end Roadmap.Plan
