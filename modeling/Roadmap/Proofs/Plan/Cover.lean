import Roadmap.Plan.Reconcile
import Roadmap.Proofs.Calendar.Order
import Roadmap.Proofs.Plan.Links

/-!
# Fitted parents

`reconcile` goes through the list once, from the end, and fits each parent to its children as they
are then. In linked tasks children follow their parent, so what a parent is fitted to is final, and
the result satisfies one equation for all places at once (`reconcile_getElem?`): a parent covers its
children *in the result*, any other task is left alone.
-/

namespace Roadmap.Plan

/-! ## One parent -/

theorem agree_set {tasks : List Task} {i : Nat} {t t' : Task} (ht : tasks[i]? = some t)
    (hu : t'.undated = t.undated) : Agree (tasks.set i t') tasks := by
  refine List.ext_getElem? fun j => ?_
  rw [List.getElem?_map, List.getElem?_map]
  by_cases hij : i = j
  · subst hij
    rw [List.getElem?_set_self (List.getElem?_eq_some_iff.mp ht).1, ht, Option.map_some,
      Option.map_some, hu]
  · rw [List.getElem?_set_ne hij]

/-- The children of a task, as they stand in a list. -/
def Task.childrenIn (t : Task) (tasks : List Task) : List Task := t.children.filterMap (tasks[·]?)

theorem fitAt_eq {tasks : List Task} {i : Nat} {t : Task} (ht : tasks[i]? = some t) :
    fitAt i tasks = if t.hasChildren then tasks.set i (t.cover (t.childrenIn tasks)) else tasks := by
  rw [fitAt, ht]
  rfl

theorem agree_fitAt (i : Nat) (tasks : List Task) : Agree (fitAt i tasks) tasks := by
  cases ht : tasks[i]? with
  | none =>
      rw [fitAt, ht]
      exact Agree.refl tasks
  | some t =>
      rw [fitAt_eq ht]
      split
      · exact agree_set ht rfl
      · exact Agree.refl tasks

theorem fitAt_getElem?_ne {tasks : List Task} {k i : Nat} (h : k ≠ i) :
    (fitAt k tasks)[i]? = tasks[i]? := by
  unfold fitAt
  split
  · split
    · exact List.getElem?_set_ne h
    · rfl
  · rfl

/-! ## All parents -/

theorem agree_reconcile (tasks : List Task) : Agree (reconcile tasks) tasks := by
  rw [reconcile]
  induction List.range tasks.length with
  | nil => exact Agree.refl tasks
  | cons i is ih => exact (agree_fitAt i _).trans ih

/-- The state of the walk when it has come down to `k`: the places from `k` on are final. -/
theorem foldr_fitAt_getElem? {tasks : List Task} (hl : Linked tasks) {n k : Nat}
    (hn : k + n = tasks.length) {i : Nat} {t : Task} (ht : tasks[i]? = some t) :
    ((List.range' k n).foldr fitAt tasks)[i]? = some
      (if k ≤ i ∧ t.hasChildren then
        t.cover (t.childrenIn ((List.range' k n).foldr fitAt tasks))
      else t) := by
  induction n generalizing k i t with
  | zero =>
      have hi := (List.getElem?_eq_some_iff.mp ht).1
      rw [if_neg (by omega)]
      exact ht
  | succ n ih =>
      have ih := fun {i : Nat} {t : Task} => ih (k := k + 1) (i := i) (t := t) (by omega)
      rw [List.range'_succ, List.foldr_cons]
      generalize (List.range' (k + 1) n).foldr fitAt tasks = later at ih ⊢
      obtain ⟨tk, htk⟩ : ∃ tk, tasks[k]? = some tk :=
        ⟨tasks[k], List.getElem?_eq_getElem (by omega)⟩
      have hk : later[k]? = some tk := by rw [ih htk, if_neg (by omega)]
      -- fitting `k` cannot be seen from the places after it
      have hchildren : ∀ {j : Nat} {s : Task}, tasks[j]? = some s → k ≤ j →
          s.childrenIn (fitAt k later) = s.childrenIn later := by
        intro j s hs hkj
        refine List.filterMap_congr fun c hc => fitAt_getElem?_ne ?_
        have := (hl.exists_child hs hc).1
        omega
      by_cases hki : k = i
      · subst hki
        obtain rfl := Option.some.inj (ht.symm.trans htk)
        rw [hchildren htk (Nat.le_refl k), fitAt_eq hk]
        by_cases hc : t.hasChildren
        · rw [if_pos hc, if_pos ⟨Nat.le_refl k, hc⟩,
            List.getElem?_set_self (List.getElem?_eq_some_iff.mp hk).1]
        · rw [if_neg hc, if_neg (fun h => hc h.2), hk]
      · rw [fitAt_getElem?_ne hki, ih ht]
        by_cases hle : k ≤ i
        · rw [hchildren ht hle]
          have hlt : k + 1 ≤ i := by omega
          simp only [hle, hlt]
        · rw [if_neg (by omega), if_neg (by omega)]

theorem reconcile_getElem? {tasks : List Task} (hl : Linked tasks) {i : Nat} {t : Task}
    (ht : tasks[i]? = some t) :
    (reconcile tasks)[i]? = some
      (if t.hasChildren then t.cover (t.childrenIn (reconcile tasks)) else t) := by
  have h := foldr_fitAt_getElem? hl (k := 0) (Nat.zero_add _) ht
  rw [← List.range_eq_range'] at h
  simpa [reconcile] using h

end Roadmap.Plan
