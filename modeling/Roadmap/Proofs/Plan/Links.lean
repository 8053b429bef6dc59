import Mathlib
import Roadmap.Plan.Forest

/-!
# What linking finds

`link` walks over the levels once with a stack, and `previousSibling?` walks back over the earlier
tasks. Both find the *nearest* earlier task of a kind, said here without a walk: the greatest place
before the task that holds a task of that kind (`Earlier`). The parent of a task is the nearest
earlier one of a lower level, its children are the tasks it is the parent of, and the sibling before
it is the nearest earlier task of its own level under its parent.

Links depend on nothing but the levels, so whatever keeps tasks the same up to their days and
durations (`Task.undated`) keeps them linked.
-/

namespace Roadmap.Plan

/-- The places before `i` that hold something satisfying `q`. -/
def Earlier {α : Type} (xs : List α) (i : Nat) (q : α → Prop) : Set Nat :=
  {j | j < i ∧ ∃ x, xs[j]? = some x ∧ q x}

theorem isGreatest_earlier_succ_of {α : Type} {xs : List α} {i : Nat} {q : α → Prop} {x : α}
    (hx : xs[i]? = some x) (hq : q x) : IsGreatest (Earlier xs (i + 1) q) i :=
  ⟨⟨Nat.lt_succ_self i, x, hx, hq⟩, fun _ h => Nat.le_of_lt_succ h.1⟩

theorem earlier_succ_of_not {α : Type} {xs : List α} {i : Nat} {q : α → Prop}
    (hq : ∀ x, xs[i]? = some x → ¬q x) : Earlier xs (i + 1) q = Earlier xs i q := by
  ext j
  constructor
  · rintro ⟨hj, x, hx, hqx⟩
    rcases Nat.lt_succ_iff_lt_or_eq.mp hj with h | rfl
    · exact ⟨h, x, hx, hqx⟩
    · exact absurd hqx (hq x hx)
  · rintro ⟨hj, h⟩
    exact ⟨Nat.lt_succ_of_lt hj, h⟩

/-- The entries before a place, the nearest first, each with its place. -/
def backwards {α : Type} (xs : List α) (i : Nat) : List (α × Nat) := (xs.zipIdx.take i).reverse

theorem backwards_succ_of_some {α : Type} {xs : List α} {i : Nat} {x : α} (hx : xs[i]? = some x) :
    backwards xs (i + 1) = (x, i) :: backwards xs i := by
  simp [backwards, List.take_add_one, hx]

theorem backwards_succ_of_none {α : Type} {xs : List α} {i : Nat} (hx : xs[i]? = none) :
    backwards xs (i + 1) = backwards xs i := by
  simp [backwards, List.take_add_one, hx]

/-- Looking backwards finds the greatest place. -/
theorem find?_backwards {α : Type} (xs : List α) (q : α → Prop) [DecidablePred q] (i j : Nat) :
    ((backwards xs i).find? (fun e => q e.1)).map (·.2) = some j
      ↔ IsGreatest (Earlier xs i q) j := by
  induction i with
  | zero => simp [backwards, Earlier, IsGreatest]
  | succ i ih =>
      cases hx : xs[i]? with
      | none =>
          rw [backwards_succ_of_none hx, ih, earlier_succ_of_not (by simp [hx])]
      | some x =>
          rw [backwards_succ_of_some hx]
          by_cases hq : q x
          · rw [List.find?_cons_of_pos (by simpa using hq)]
            have hi := isGreatest_earlier_succ_of hx hq
            constructor
            · intro h
              rwa [← Option.some.inj h]
            · intro h
              rw [h.unique hi]
              rfl
          · rw [List.find?_cons_of_neg (by simpa using hq), ih,
              earlier_succ_of_not (by simpa [hx] using hq)]

/-! ## Parents -/

/-- The stack of openings answers, for every level, which of the seen tasks is the nearest of a
lower level. -/
def Answers (openings : List Opening) (seen : List (Int × Nat)) : Prop :=
  ∀ level, (openings.dropWhile (level ≤ ·.level)).head?.map (·.index)
    = (seen.find? (fun e => e.1 < level)).map (·.2)

theorem dropWhile_dropWhile {α : Type} {p q : α → Bool} (h : ∀ a, q a → p a) (l : List α) :
    (l.dropWhile q).dropWhile p = l.dropWhile p := by
  induction l with
  | nil => rfl
  | cons a l ih =>
      cases hq : q a with
      | true => rw [List.dropWhile_cons_of_pos hq, ih, List.dropWhile_cons_of_pos (h a hq)]
      | false => rw [List.dropWhile_cons_of_neg (by simp [hq])]

/-- Closing the openings of a level and deeper, and opening one of that level, keeps the answers
right: what was closed could only have answered for levels that the new opening answers for. -/
theorem Answers.push {openings : List Opening} {seen : List (Int × Nat)}
    (h : Answers openings seen) (index : Nat) (level : Int) :
    Answers (⟨index, level⟩ :: openings.dropWhile (level ≤ ·.level)) ((level, index) :: seen) := by
  intro l
  by_cases hl : level < l
  · rw [List.dropWhile_cons_of_neg (by simpa using hl),
      List.find?_cons_of_pos (by simpa using hl)]
    rfl
  · rw [List.dropWhile_cons_of_pos (by simpa using hl),
      List.find?_cons_of_neg (by simpa using hl), ← h l]
    rw [dropWhile_dropWhile (fun a ha => ?_)]
    simp only [decide_eq_true_eq] at ha ⊢
    omega

theorem parentsFrom_getElem? {openings : List Opening} {seen : List (Int × Nat)}
    (h : Answers openings seen) (index : Nat) (levels : List Int) (i : Nat) :
    (parentsFrom openings index levels)[i]? = levels[i]?.map fun level =>
      ((((levels.zipIdx index).take i).reverse ++ seen).find? (fun e => e.1 < level)).map (·.2) := by
  induction levels generalizing openings seen index i with
  | nil => simp [parentsFrom]
  | cons level levels ih =>
      cases i with
      | zero => simpa [parentsFrom] using h level
      | succ i =>
          simp only [parentsFrom, List.getElem?_cons_succ]
          rw [ih (h.push index level) (index + 1) i]
          simp

theorem parents_getElem? (levels : List Int) (i : Nat) :
    (parents levels)[i]? = levels[i]?.map fun level =>
      ((backwards levels i).find? (fun e => e.1 < level)).map (·.2) := by
  have h : Answers [] [] := fun _ => rfl
  simpa [parents, backwards] using parentsFrom_getElem? h 0 levels i

theorem length_parentsFrom (openings : List Opening) (index : Nat) (levels : List Int) :
    (parentsFrom openings index levels).length = levels.length := by
  induction levels generalizing openings index with
  | nil => rfl
  | cons level levels ih => simp [parentsFrom, ih]

/-! ## Children -/

theorem mem_childIndices {parents : List (Option Nat)} {i j : Nat} :
    j ∈ childIndices parents i ↔ parents[j]? = some (some i) := by
  simp only [childIndices, List.mem_filterMap, List.mem_zipIdx_iff_getElem?, Prod.exists]
  constructor
  · rintro ⟨p, k, hp, h⟩
    split at h
    · next hpi =>
        obtain rfl := Option.some.inj h
        rw [hp, hpi]
    · cases h
  · intro h
    exact ⟨some i, j, h, if_pos rfl⟩

theorem pairwise_childIndices (parents : List (Option Nat)) (i : Nat) :
    (childIndices parents i).Pairwise (· < ·) := by
  rw [childIndices, List.pairwise_filterMap, List.pairwise_iff_getElem]
  intro a b ha hb hab j hj k hk
  simp only [List.getElem_zipIdx, Option.ite_none_right_eq_some, Option.some.injEq] at hj hk
  omega

/-! ## Linked tasks -/

theorem earlier_map {α β : Type} (f : α → β) (xs : List α) (i : Nat) (q : β → Prop) :
    Earlier (xs.map f) i q = Earlier xs i (fun x => q (f x)) := by
  ext j
  simp [Earlier]

/-- The links of the tasks are those that their levels ask for. -/
structure Linked (tasks : List Task) : Prop where
  parent : ∀ (i : Nat) (t : Task), tasks[i]? = some t →
    ∀ p, t.parent = some p ↔ IsGreatest (Earlier tasks i (·.level < t.level)) p
  children : ∀ (i : Nat) (t : Task), tasks[i]? = some t →
    ∀ j, j ∈ t.children ↔ ∃ c, tasks[j]? = some c ∧ c.parent = some i
  sorted : ∀ (i : Nat) (t : Task), tasks[i]? = some t → t.children.Pairwise (· < ·)

/-- The task at a place with the links that the levels of all tasks ask for. -/
def Task.linkAt (levels : List Int) (i : Nat) (t : Task) : Task :=
  { t with parent := (parents levels)[i]?.join, children := childIndices (parents levels) i }

theorem link_getElem? (tasks : List Task) (i : Nat) :
    (link tasks)[i]? = tasks[i]?.map (Task.linkAt (tasks.map (·.level)) i) := by
  cases ht : tasks[i]? with
  | none =>
      have hi := List.getElem?_eq_none_iff.mp ht
      rw [Option.map_none, List.getElem?_eq_none_iff]
      simpa [link] using Or.inl hi
  | some t =>
      obtain ⟨p, hp⟩ : ∃ p, (parents (tasks.map (·.level)))[i]? = some p := by
        rw [parents_getElem?, List.getElem?_map, ht]
        exact ⟨_, rfl⟩
      have hz : (tasks.zip (parents (tasks.map (·.level))))[i]? = some (t, p) :=
        List.getElem?_zip_eq_some.mpr ⟨ht, hp⟩
      simp [link, hz, Task.linkAt, hp]

theorem length_link (tasks : List Task) : (link tasks).length = tasks.length := by
  simp [link, parents, length_parentsFrom]

theorem levels_link (tasks : List Task) :
    (link tasks).map (·.level) = tasks.map (·.level) := by
  refine List.ext_getElem? fun i => ?_
  rw [List.getElem?_map, List.getElem?_map, link_getElem?, Option.map_map]
  rfl

theorem linked_link (tasks : List Task) : Linked (link tasks) := by
  have hlevel : ∀ {i : Nat} {t : Task}, (link tasks)[i]? = some t →
      (tasks.map (·.level))[i]? = some t.level := by
    intro i t ht
    rw [← levels_link, List.getElem?_map, ht]
    rfl
  have hparent : ∀ {i : Nat} {t : Task}, (link tasks)[i]? = some t →
      t.parent = (parents (tasks.map (·.level)))[i]?.join
        ∧ t.children = childIndices (parents (tasks.map (·.level))) i := by
    intro i t ht
    rw [link_getElem?, Option.map_eq_some_iff] at ht
    obtain ⟨t₀, -, rfl⟩ := ht
    exact ⟨rfl, rfl⟩
  refine ⟨fun i t ht p => ?_, fun i t ht j => ?_, fun i t ht => ?_⟩
  · have h := find?_backwards (tasks.map (·.level)) (· < t.level) i p
    rw [(hparent ht).1, parents_getElem?, hlevel ht, Option.map_some, Option.join_some, h,
      ← levels_link, earlier_map]
  · rw [(hparent ht).2, mem_childIndices]
    constructor
    · intro h
      obtain ⟨c, hc⟩ : ∃ c, (link tasks)[j]? = some c := by
        rw [parents_getElem?, ← levels_link, List.getElem?_map] at h
        cases hc : (link tasks)[j]? with
        | none => simp [hc] at h
        | some c => exact ⟨c, rfl⟩
      exact ⟨c, hc, by rw [(hparent hc).1, h, Option.join_some]⟩
    · rintro ⟨c, hc, hp⟩
      rw [(hparent hc).1] at hp
      exact Option.join_eq_some_iff.mp hp
  · rw [(hparent ht).2]
    exact pairwise_childIndices _ _

/-- A child of linked tasks stands after its parent. -/
theorem Linked.exists_child {tasks : List Task} (hl : Linked tasks) {i : Nat} {t : Task}
    (ht : tasks[i]? = some t) {j : Nat} (hj : j ∈ t.children) :
    i < j ∧ ∃ c, tasks[j]? = some c ∧ c.parent = some i := by
  obtain ⟨c, hc, hp⟩ := (hl.children i t ht j).mp hj
  exact ⟨((hl.parent j c hc i).mp hp).1.1, c, hc, hp⟩

theorem Linked.hasChildren_iff {tasks : List Task} (hl : Linked tasks) {i : Nat} {t : Task}
    (ht : tasks[i]? = some t) :
    t.hasChildren ↔ ∃ (j : Nat) (c : Task), tasks[j]? = some c ∧ c.parent = some i := by
  rw [Task.hasChildren, Bool.not_eq_true', List.isEmpty_eq_false_iff_exists_mem]
  exact exists_congr (hl.children i t ht)

/-- Levels leave no choice of links. -/
theorem Linked.ext {xs ys : List Task} (hx : Linked xs) (hy : Linked ys)
    (hlevel : xs.map (·.level) = ys.map (·.level)) {i : Nat} {t t' : Task}
    (ht : xs[i]? = some t) (ht' : ys[i]? = some t') :
    t.parent = t'.parent ∧ t.children = t'.children := by
  have hlen : xs.length = ys.length := by simpa using congrArg List.length hlevel
  have hparent : ∀ {j : Nat} {c c' : Task}, xs[j]? = some c → ys[j]? = some c' →
      c.parent = c'.parent := by
    intro j c c' hc hc'
    have hlvl : c.level = c'.level := by
      have h := congrArg (·[j]?) hlevel
      simpa [hc, hc'] using h
    ext p
    have hset : Earlier xs j (·.level < c.level) = Earlier ys j (·.level < c'.level) := by
      rw [← earlier_map (·.level) xs j (· < c.level), hlevel, earlier_map, hlvl]
    rw [hx.parent j c hc, hy.parent j c' hc', hset]
  refine ⟨hparent ht ht', ?_⟩
  refine List.Pairwise.eq_of_mem_iff (hx.sorted i t ht) (hy.sorted i t' ht') fun j => ?_
  rw [hx.children i t ht, hy.children i t' ht']
  constructor
  · rintro ⟨c, hc, hp⟩
    have hj : j < ys.length := hlen ▸ (List.getElem?_eq_some_iff.mp hc).1
    have hc' := List.getElem?_eq_getElem hj
    exact ⟨ys[j], hc', (hparent hc hc') ▸ hp⟩
  · rintro ⟨c', hc', hp⟩
    have hj : j < xs.length := hlen ▸ (List.getElem?_eq_some_iff.mp hc').1
    have hc := List.getElem?_eq_getElem hj
    exact ⟨xs[j], hc, (hparent hc hc').trans hp⟩

/-! ## Siblings -/

/-- A task of a lower level ends the search for a sibling, and rightly so: the parent stands at or
after it, and siblings stand after their parent. -/
theorem searchSibling_backwards {tasks : List Task} (hl : Linked tasks) {i p : Nat} {t : Task}
    (ht : tasks[i]? = some t) (hp : t.parent = some p) (k : Nat) (hk : k ≤ i) :
    searchSibling t (backwards tasks k)
      = ((backwards tasks k).find? (fun e => e.1.parent = t.parent ∧ e.1.level = t.level)).map
          (·.2) := by
  induction k with
  | zero => rfl
  | succ k ih =>
      obtain ⟨c, hc⟩ : ∃ c, tasks[k]? = some c := by
        have := (List.getElem?_eq_some_iff.mp ht).1
        exact ⟨tasks[k], List.getElem?_eq_getElem (by omega)⟩
      rw [backwards_succ_of_some hc, searchSibling]
      split
      · next h => simp [h]
      · next h =>
          rw [List.find?_cons_of_neg (by simpa using h)]
          split
          · next hlow =>
              cases hf : (backwards tasks k).find?
                  (fun e => e.1.parent = t.parent ∧ e.1.level = t.level) with
              | none => rfl
              | some e =>
                  have hj := (find?_backwards tasks
                    (fun s => s.parent = t.parent ∧ s.level = t.level) k e.2).mp (by rw [hf]; rfl)
                  obtain ⟨⟨hjk, s, hs, hsp, -⟩, -⟩ := hj
                  have hpj := ((hl.parent e.2 s hs p).mp (hsp.trans hp)).1.1
                  have hkp := ((hl.parent i t ht p).mp hp).2 ⟨hk, c, hc, hlow⟩
                  omega
          · exact ih (by omega)

/-- The sibling before a task of linked tasks is the nearest earlier task of its level under its
parent. -/
theorem Linked.previousSibling?_eq_some {tasks : List Task} (hl : Linked tasks) {i : Nat}
    {t : Task} (ht : tasks[i]? = some t) (j : Nat) :
    previousSibling? tasks i = some j ↔ t.parent.isSome
      ∧ IsGreatest (Earlier tasks i fun c => c.parent = t.parent ∧ c.level = t.level) j := by
  rw [previousSibling?, ht, Option.bind_some]
  cases hp : t.parent with
  | none => simp
  | some p =>
      have h := searchSibling_backwards hl ht hp i (Nat.le_refl i)
      rw [backwards] at h
      simp only [Option.isNone_some, Bool.false_eq_true, if_false, Option.isSome_some, true_and]
      rw [h, ← hp]
      exact find?_backwards tasks (fun c => c.parent = t.parent ∧ c.level = t.level) i j

/-! ## What links do not depend on -/

/-- The task without its days and its duration. -/
def Task.undated (t : Task) : Task :=
  { t with start := Date.first, finish := Date.first, duration := 0 }

section

variable {t t' : Task} (h : t.undated = t'.undated)

include h

theorem Task.level_of_undated : t.level = t'.level :=
  have h := congrArg (·.level) h
  h

theorem Task.parent_of_undated : t.parent = t'.parent :=
  have h := congrArg Task.parent h
  h

theorem Task.children_of_undated : t.children = t'.children :=
  have h := congrArg Task.children h
  h

theorem Task.dependencies_of_undated : t.dependencies = t'.dependencies :=
  have h := congrArg (·.dependencies) h
  h

theorem Task.explicitStart_of_undated : t.explicitStart = t'.explicitStart :=
  have h := congrArg (·.explicitStart) h
  h

theorem Task.index_of_undated : t.index = t'.index :=
  have h := congrArg Task.index h
  h

end

/-- The lists hold the same tasks, up to their days and durations. -/
def Agree (xs ys : List Task) : Prop := xs.map Task.undated = ys.map Task.undated

theorem Agree.refl (xs : List Task) : Agree xs xs := rfl

theorem Agree.symm {xs ys : List Task} (h : Agree xs ys) : Agree ys xs := Eq.symm h

theorem Agree.trans {xs ys zs : List Task} (h : Agree xs ys) (h' : Agree ys zs) : Agree xs zs :=
  Eq.trans h h'

theorem Agree.length {xs ys : List Task} (h : Agree xs ys) : xs.length = ys.length := by
  simpa using congrArg List.length h

theorem Agree.exists {xs ys : List Task} (h : Agree xs ys) {i : Nat} {t : Task}
    (ht : xs[i]? = some t) : ∃ t', ys[i]? = some t' ∧ t'.undated = t.undated := by
  have hi := congrArg (·[i]?) h
  simp only [List.getElem?_map, ht, Option.map_some] at hi
  exact Option.map_eq_some_iff.mp hi.symm

theorem Agree.earlier {xs ys : List Task} (h : Agree xs ys) (i : Nat) {q : Task → Prop}
    (hq : ∀ t t', t.undated = t'.undated → q t → q t') : Earlier xs i q = Earlier ys i q := by
  ext j
  constructor
  · rintro ⟨hj, t, ht, hqt⟩
    obtain ⟨t', ht', hu⟩ := h.exists ht
    exact ⟨hj, t', ht', hq t t' hu.symm hqt⟩
  · rintro ⟨hj, t, ht, hqt⟩
    obtain ⟨t', ht', hu⟩ := h.symm.exists ht
    exact ⟨hj, t', ht', hq t t' hu.symm hqt⟩

theorem Linked.of_agree {xs ys : List Task} (hl : Linked xs) (h : Agree ys xs) : Linked ys := by
  refine ⟨fun i t ht p => ?_, fun i t ht j => ?_, fun i t ht => ?_⟩
  all_goals obtain ⟨t', ht', hu⟩ := h.exists ht
  · rw [← Task.parent_of_undated hu, hl.parent i t' ht' p, Task.level_of_undated hu, h.earlier i]
    intro c c' hc hlt
    rwa [← Task.level_of_undated hc]
  · rw [← Task.children_of_undated hu, hl.children i t' ht' j]
    constructor
    · rintro ⟨c, hc, hp⟩
      obtain ⟨c', hc', hu'⟩ := h.symm.exists hc
      exact ⟨c', hc', (Task.parent_of_undated hu').trans hp⟩
    · rintro ⟨c, hc, hp⟩
      obtain ⟨c', hc', hu'⟩ := h.exists hc
      exact ⟨c', hc', (Task.parent_of_undated hu').trans hp⟩
  · rw [← Task.children_of_undated hu]
    exact hl.sorted i t' ht'

end Roadmap.Plan
