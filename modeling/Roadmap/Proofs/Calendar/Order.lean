import Mathlib
import Roadmap.Calendar.Date

/-!
# The order of days

Days are linearly ordered by their numbers, `shift` is monotone in both arguments, and `earliest`
and `latest` pick the least and the greatest of some days, so they are monotone as well. After
these, no proof about a schedule looks at the number of a day again.
-/

namespace Roadmap

namespace Date

theorem le_iff {a b : Date} : a ≤ b ↔ a.ordinal ≤ b.ordinal := Iff.rfl

instance (priority := low) : LinearOrder Date where
  le_refl a := Nat.le_refl a.ordinal
  le_trans _ _ _ h h' := Nat.le_trans (le_iff.mp h) (le_iff.mp h')
  lt_iff_le_not_ge _ _ := Nat.lt_iff_le_and_not_ge
  le_antisymm _ _ h h' := ext_ordinal (Nat.le_antisymm (le_iff.mp h) (le_iff.mp h'))
  le_total a b := Nat.le_total a.ordinal b.ordinal
  toDecidableLE := inferInstance
  toDecidableLT := inferInstance
  min_def _ _ := rfl
  max_def _ _ := rfl

/-! ## Shifting -/

/-- Only numbers of days of the calendar name a day. -/
theorem ofOrdinal?_eq_none_iff {n : Int} : ofOrdinal? n = none ↔ n < 1 ∨ 3652059 < n := by
  unfold ofOrdinal?
  split
  · simp only [reduceCtorEq, false_iff]
    omega
  · simp only [true_iff]
    omega

theorem ordinal_of_ofOrdinal? {n : Int} {d : Date} (h : ofOrdinal? n = some d) :
    (d.ordinal : Int) = n := by
  unfold ofOrdinal? at h
  split at h
  · next hn =>
    obtain rfl := Option.some.inj h
    exact Int.toNat_of_nonneg (by omega)
  · cases h

/-- Moving a day fails for two reasons, and both leave it on the side to which it was moved: the
numbers of days that cannot be added lead out of the calendar from every day. -/
theorem shift_ordinal (d : Date) (n : Int) :
    ((d.shift n).ordinal : Int) = max 1 (min (d.ordinal + n) 3652059) := by
  have hone := d.one_le
  have hlast := d.le_last
  cases h : d.plus? n with
  | some e =>
      have he : (e.ordinal : Int) = d.ordinal + n := by
        unfold plus? at h
        split at h
        · exact ordinal_of_ofOrdinal? h
        · cases h
      have := e.one_le
      have := e.le_last
      rw [shift, h, Option.getD_some]
      omega
  | none =>
      have hout : (d.ordinal : Int) + n < 1 ∨ 3652059 < (d.ordinal : Int) + n := by
        unfold plus? at h
        split at h
        · exact ofOrdinal?_eq_none_iff.mp h
        · next hmax =>
          unfold maxDays at hmax
          omega
      have hfirst : first.ordinal = 1 := rfl
      have hend : last.ordinal = 3652059 := rfl
      rw [shift, h, Option.getD_none]
      split
      · omega
      · omega

theorem le_shift (d : Date) {n : Int} (hn : 0 ≤ n) : d ≤ d.shift n := by
  have h := shift_ordinal d n
  have h1 := d.one_le
  have h2 := d.le_last
  rw [le_iff]
  omega

theorem shift_mono {d d' : Date} (hd : d ≤ d') {n n' : Int} (hn : n ≤ n') :
    d.shift n ≤ d'.shift n' := by
  have h := shift_ordinal d n
  have h' := shift_ordinal d' n'
  rw [le_iff] at hd ⊢
  omega

/-! ## The least and the greatest of some days -/

theorem isLeast_foldl_min (d : Date) (ds : List Date) :
    IsLeast {e | e ∈ d :: ds} (ds.foldl min d) :=
  have h := List.min?_eq_some_iff.mp (List.min?_cons')
  ⟨h.1, fun e he => h.2 e he⟩

theorem isGreatest_foldl_max (d : Date) (ds : List Date) :
    IsGreatest {e | e ∈ d :: ds} (ds.foldl max d) :=
  have h := List.max?_eq_some_iff.mp (List.max?_cons')
  ⟨h.1, fun e he => h.2 e he⟩

theorem isLeast_earliest (fallback : Date) {ds : List Date} (h : ds ≠ []) :
    IsLeast {d | d ∈ ds} (earliest fallback ds) := by
  cases ds with
  | nil => exact absurd rfl h
  | cons d ds => exact isLeast_foldl_min d ds

theorem isGreatest_latest (fallback : Date) {ds : List Date} (h : ds ≠ []) :
    IsGreatest {d | d ∈ ds} (latest fallback ds) := by
  cases ds with
  | nil => exact absurd rfl h
  | cons d ds => exact isGreatest_foldl_max d ds

/-! ## Later days -/

theorem foldl_min_mono {d d' : Date} (h : d ≤ d') {ds ds' : List Date}
    (hds : List.Forall₂ (· ≤ ·) ds ds') : ds.foldl min d ≤ ds'.foldl min d' := by
  induction hds generalizing d d' with
  | nil => exact h
  | cons he _ ih => exact ih (min_le_min h he)

theorem foldl_max_mono {d d' : Date} (h : d ≤ d') {ds ds' : List Date}
    (hds : List.Forall₂ (· ≤ ·) ds ds') : ds.foldl max d ≤ ds'.foldl max d' := by
  induction hds generalizing d d' with
  | nil => exact h
  | cons he _ ih => exact ih (max_le_max h he)

theorem earliest_mono {fallback fallback' : Date} (h : fallback ≤ fallback') {ds ds' : List Date}
    (hds : List.Forall₂ (· ≤ ·) ds ds') : earliest fallback ds ≤ earliest fallback' ds' := by
  cases hds with
  | nil => exact h
  | cons he hes => exact foldl_min_mono he hes

theorem latest_mono {fallback fallback' : Date} (h : fallback ≤ fallback') {ds ds' : List Date}
    (hds : List.Forall₂ (· ≤ ·) ds ds') : latest fallback ds ≤ latest fallback' ds' := by
  cases hds with
  | nil => exact h
  | cons he hes => exact foldl_max_mono he hes

end Date

end Roadmap
