import Mathlib
import Roadmap.Plan.Resolve
import Roadmap.Proofs.Plan.Links

/-!
# What a task requires

The rule by which tasks are placed speaks of other tasks: those a task depends on, its parent and
the sibling before it. Here the rule is stated on the tasks themselves (`lookups`), with the
dependencies as positions and the sibling as the nearest earlier task of the same level under the
same parent. For linked tasks this is what a site holds (`requiredBy_sites`), so the relation
`Requires` is also the one that the placing of tasks follows.
-/

namespace Roadmap.Plan

/-! ## The rule -/

/-- The tasks that a task depends on, in the order it names them. A position that names no task is
passed over. -/
def Task.dependsOn (tasks : List Task) (t : Task) : List Nat :=
  (t.dependencies.filter fun p : Int => 1 ≤ p ∧ p ≤ tasks.length).map fun p => (p - 1).toNat

/-- The nearest earlier task of the same level under the same parent; a task without a parent has
none. -/
def siblingBefore? (tasks : List Task) (i : Nat) (t : Task) : Option Nat :=
  if t.parent.isNone then none
  else (List.range i).reverse.find? fun j =>
    tasks[j]?.any fun c => c.parent = t.parent ∧ c.level = t.level

/-- The tasks that the one at `i` is placed by, in the order they are looked up. -/
def lookups (tasks : List Task) (i : Nat) : List Nat :=
  match tasks[i]? with
  | none => []
  | some t =>
    if t.pinned then []
    else t.dependsOn tasks ++ t.parent.toList ++ (siblingBefore? tasks i t).toList

/-- The task at `i` is placed by the one at `j`. -/
def Requires (tasks : List Task) (i j : Nat) : Prop := j ∈ lookups tasks i

/-- The task at `i` requires the one at `j` through any number of others. -/
def Reaches (tasks : List Task) : Nat → Nat → Prop := Relation.ReflTransGen (Requires tasks)

/-! ## Sites hold the rule -/

theorem Task.dependsOn_eq (tasks : List Task) (t : Task) :
    t.dependsOn tasks = t.dependencies.filterMap (Project.indexAt? tasks.length) := by
  rw [Task.dependsOn]
  induction t.dependencies with
  | nil => rfl
  | cons p ps ih =>
      rw [List.filter_cons, List.filterMap_cons, Project.indexAt?, ← ih]
      by_cases h : 1 ≤ p ∧ p ≤ tasks.length
      · rw [if_pos (decide_eq_true h), if_pos h]
        rfl
      · rw [if_neg (by simpa using h), if_neg h]

theorem Task.mem_dependsOn {tasks : List Task} {t : Task} {j : Nat} :
    j ∈ t.dependsOn tasks ↔ j < tasks.length ∧ (j : Int) + 1 ∈ t.dependencies := by
  simp only [Task.dependsOn, List.mem_map, List.mem_filter, decide_eq_true_eq]
  constructor
  · rintro ⟨p, ⟨hp, hrange⟩, rfl⟩
    have hj : ((p - 1).toNat : Int) + 1 = p := by omega
    exact ⟨by omega, hj.symm ▸ hp⟩
  · rintro ⟨hlt, hp⟩
    exact ⟨(j : Int) + 1, ⟨hp, by omega⟩, by omega⟩

theorem find?_reverse_range (q : Nat → Bool) (i j : Nat) :
    (List.range i).reverse.find? q = some j ↔ IsGreatest {k | k < i ∧ q k} j := by
  induction i with
  | zero => simp [IsGreatest]
  | succ i ih =>
      rw [List.range_succ, List.reverse_append, List.reverse_singleton, List.singleton_append]
      cases hq : q i with
      | true =>
          have hi : IsGreatest {k | k < i + 1 ∧ q k} i :=
            ⟨⟨Nat.lt_succ_self i, hq⟩, fun _ h => Nat.le_of_lt_succ h.1⟩
          rw [List.find?_cons_of_pos hq, Option.some_inj]
          exact ⟨fun h => h ▸ hi, fun h => hi.unique h⟩
      | false =>
          rw [List.find?_cons_of_neg (by simp [hq]), ih]
          have hset : {k | k < i ∧ q k} = {k | k < i + 1 ∧ q k} := by
            ext k
            refine ⟨fun h => ⟨Nat.lt_succ_of_lt h.1, h.2⟩, fun h => ⟨?_, h.2⟩⟩
            refine Nat.lt_of_le_of_ne (Nat.le_of_lt_succ h.1) fun hk => ?_
            have hqk : q k = true := h.2
            rw [hk, hq] at hqk
            exact Bool.false_ne_true hqk
          rw [hset]

theorem siblingBefore?_eq_some {tasks : List Task} {i : Nat} {t : Task} (j : Nat) :
    siblingBefore? tasks i t = some j ↔ t.parent.isSome
      ∧ IsGreatest (Earlier tasks i fun c => c.parent = t.parent ∧ c.level = t.level) j := by
  rw [siblingBefore?]
  cases hp : t.parent with
  | none => simp
  | some p =>
      simp only [Option.isNone_some, Bool.false_eq_true, if_false, Option.isSome_some, true_and]
      rw [find?_reverse_range]
      simp only [Option.any_eq_true, decide_eq_true_eq]
      rfl

theorem sites_getElem? (tasks : List Task) (i : Nat) :
    (sites tasks)[i]? = tasks[i]?.map (Task.site tasks i) := by
  simp [sites, List.getElem?_zipIdx, Function.comp_def]

theorem length_sites (tasks : List Task) : (sites tasks).length = tasks.length := by
  simp [sites]

theorem Linked.previousSibling?_eq {tasks : List Task} (hl : Linked tasks) {i : Nat} {t : Task}
    (ht : tasks[i]? = some t) : previousSibling? tasks i = siblingBefore? tasks i t := by
  ext j
  rw [hl.previousSibling?_eq_some ht, siblingBefore?_eq_some]

theorem requiredBy_sites {tasks : List Task} (hl : Linked tasks) (i : Nat) :
    requiredBy (sites tasks) i = lookups tasks i := by
  rw [requiredBy, lookups, sites_getElem?]
  cases ht : tasks[i]? with
  | none => rfl
  | some t =>
      simp only [Option.map_some, Site.requires, Task.site, hl.previousSibling?_eq ht,
        ← Task.dependsOn_eq]
      cases hd : t.explicitStart with
      | some d => rw [if_pos (by rw [Task.pinned, hd]; rfl)]
      | none =>
          rw [if_neg (by rw [Task.pinned, hd]; exact Bool.false_ne_true)]
          cases hp : t.parent with
          | none => simp [siblingBefore?, hp]
          | some p => rfl

/-! ## Days do not matter -/

theorem Agree.dependsOn {xs ys : List Task} (h : Agree xs ys) {t t' : Task}
    (hu : t.undated = t'.undated) : t.dependsOn xs = t'.dependsOn ys := by
  rw [Task.dependsOn, Task.dependsOn, h.length, Task.dependencies_of_undated hu]

theorem Agree.siblingBefore? {xs ys : List Task} (h : Agree xs ys) {t t' : Task}
    (hu : t.undated = t'.undated) (i : Nat) : siblingBefore? xs i t = siblingBefore? ys i t' := by
  ext j
  rw [siblingBefore?_eq_some, siblingBefore?_eq_some, Task.parent_of_undated hu,
    Task.level_of_undated hu, h.earlier i]
  rintro c c' hc ⟨hp, hl⟩
  exact ⟨Task.parent_of_undated hc ▸ hp, Task.level_of_undated hc ▸ hl⟩

theorem Agree.lookups {xs ys : List Task} (h : Agree xs ys) (i : Nat) :
    lookups xs i = lookups ys i := by
  rw [Plan.lookups, Plan.lookups]
  cases hx : xs[i]? with
  | none =>
      have hi := List.getElem?_eq_none_iff.mp hx
      rw [h.length] at hi
      rw [List.getElem?_eq_none hi]
  | some t =>
      obtain ⟨t', hy, hu⟩ := h.exists hx
      have hpin : t'.pinned = t.pinned := by
        rw [Task.pinned, Task.pinned, Task.explicitStart_of_undated hu]
      rw [hy]
      simp only [hpin, h.dependsOn hu.symm, h.siblingBefore? hu.symm, Task.parent_of_undated hu]

theorem Agree.requires {xs ys : List Task} (h : Agree xs ys) : Requires xs = Requires ys := by
  funext i j
  rw [Requires, Requires, h.lookups]

theorem Agree.reaches {xs ys : List Task} (h : Agree xs ys) {i j : Nat} :
    Reaches xs i j ↔ Reaches ys i j := by
  rw [Reaches, Reaches, h.requires]

/-! ## Lists of one shape -/

/-- The lists hold linked tasks of the same levels and dependencies. -/
structure Parallel (xs ys : List Task) : Prop where
  left : Linked xs
  right : Linked ys
  length : ys.length = xs.length
  level : ∀ {j : Nat} {t t' : Task}, xs[j]? = some t → ys[j]? = some t' → t'.level = t.level
  dependencies : ∀ {j : Nat} {t t' : Task}, xs[j]? = some t → ys[j]? = some t' →
    t'.dependencies = t.dependencies

section

variable {xs ys : List Task} (h : Parallel xs ys)

include h

theorem Parallel.exists {j : Nat} {t : Task} (ht : xs[j]? = some t) : ∃ t', ys[j]? = some t' :=
  ⟨_, List.getElem?_eq_getElem (h.length ▸ (List.getElem?_eq_some_iff.mp ht).1)⟩

theorem Parallel.none {j : Nat} (ht : xs[j]? = none) : ys[j]? = none :=
  List.getElem?_eq_none (h.length ▸ List.getElem?_eq_none_iff.mp ht)

theorem Parallel.levels : ys.map (·.level) = xs.map (·.level) := by
  refine List.ext_getElem? fun j => ?_
  rw [List.getElem?_map, List.getElem?_map]
  cases ht : xs[j]? with
  | none => rw [h.none ht]
  | some t =>
      obtain ⟨t', ht'⟩ := h.exists ht
      rw [ht', Option.map_some, Option.map_some, h.level ht ht']

theorem Parallel.links {j : Nat} {t t' : Task} (ht : xs[j]? = some t) (ht' : ys[j]? = some t') :
    t'.parent = t.parent ∧ t'.children = t.children :=
  h.right.ext h.left h.levels ht' ht

theorem Parallel.dependsOn {j : Nat} {t t' : Task} (ht : xs[j]? = some t)
    (ht' : ys[j]? = some t') : t'.dependsOn ys = t.dependsOn xs := by
  rw [Task.dependsOn, Task.dependsOn, h.length, h.dependencies ht ht']

theorem Parallel.siblingBefore? {j : Nat} {t t' : Task} (ht : xs[j]? = some t)
    (ht' : ys[j]? = some t') : siblingBefore? ys j t' = siblingBefore? xs j t := by
  have hsame : ∀ k : Nat,
      (ys[k]?.any fun c : Task => c.parent = t.parent ∧ c.level = t'.level)
        = xs[k]?.any fun c : Task => c.parent = t.parent ∧ c.level = t.level := by
    intro k
    cases hk : xs[k]? with
    | none => rw [h.none hk, Option.any_none, Option.any_none]
    | some c =>
        obtain ⟨c', hc'⟩ := h.exists hk
        rw [hc', Option.any_some, Option.any_some, (h.links hk hc').1, h.level ht ht',
          h.level hk hc']
  rw [Plan.siblingBefore?, Plan.siblingBefore?]
  simp only [(h.links ht ht').1, hsame]

/-- Tasks that are both pinned or both free look up the same tasks. -/
theorem Parallel.lookups {j : Nat} (hpin : ∀ {t t' : Task}, xs[j]? = some t → ys[j]? = some t' →
    t'.pinned = t.pinned) : lookups ys j = lookups xs j := by
  rw [Plan.lookups, Plan.lookups]
  cases ht : xs[j]? with
  | none => rw [h.none ht]
  | some t =>
      obtain ⟨t', ht'⟩ := h.exists ht
      rw [ht']
      simp only [hpin ht ht', h.dependsOn ht ht', h.siblingBefore? ht ht', (h.links ht ht').1]

end

end Roadmap.Plan
