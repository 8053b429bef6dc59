import Roadmap.Proofs.Calendar.Iso
import Roadmap.Proofs.Calendar.Order

/-!
# Days are counted

The number of a day is its place in the calendar, counted from 0001-01-01. The calendar goes from a
day to the next one by the lengths of the months (`Civil.next`), and each such step adds one to the
number (`Civil.ordinal_next`). As a number belongs to one civil day only (`civil_of_ordinal`), the
civil form of the day with the next number is the next civil day, over the ends of months and years.

So adding to numbers is counting days, and the order of numbers is the order of years, months and
days.
-/

namespace Roadmap

/-! ## Civil days -/

namespace Civil

/-- The day after: in the same month, or the first one of the next month or year. -/
def next (c : Civil) : Civil :=
  if c.day < (monthLengths (isLeapYear c.year)).getD (c.month - 1) 0 then
    { c with day := c.day + 1 }
  else if c.month < 12 then ⟨c.year, c.month + 1, 1⟩
  else ⟨c.year + 1, 1, 1⟩

/-- The day comes before another one: in the year, or else in the month, or else in the day. -/
def Before (c c' : Civil) : Prop :=
  c.year < c'.year
    ∨ c.year = c'.year ∧ (c.month < c'.month ∨ c.month = c'.month ∧ c.day < c'.day)

theorem before_next (c : Civil) : c.Before c.next := by
  unfold next Before
  split
  · exact .inr ⟨rfl, .inr ⟨rfl, Nat.lt_succ_self _⟩⟩
  · split
    · exact .inr ⟨rfl, .inl (Nat.lt_succ_self _)⟩
    · exact .inl (Nat.lt_succ_self _)

theorem Before.trans {c c' c'' : Civil} (h : c.Before c') (h' : c'.Before c'') :
    c.Before c'' := by
  unfold Before at *
  omega

theorem not_before_self (c : Civil) : ¬ c.Before c := by
  unfold Before
  omega

theorem valid_iff {c : Civil} : c.valid ↔ 1 ≤ c.year ∧ c.year ≤ 9999 ∧ 1 ≤ c.month ∧ 1 ≤ c.day
    ∧ ∃ length, (monthLengths (isLeapYear c.year))[c.month - 1]? = some length
      ∧ c.day ≤ length := by
  unfold valid
  cases (monthLengths (isLeapYear c.year))[c.month - 1]? with
  | none => simp
  | some length => simp [and_assoc]

theorem ordinal_eq (c : Civil) : c.ordinal
    = daysBeforeYear c.year + ((monthLengths (isLeapYear c.year)).take (c.month - 1)).sum + c.day :=
  rfl

end Civil

/-! ## The day of a number -/

theorem daysBeforeYear_mono : Monotone daysBeforeYear := by
  refine monotone_nat_of_le_succ fun year => ?_
  rcases Nat.eq_zero_or_pos year with rfl | h
  · exact Nat.le_refl 0
  · rw [daysBeforeYear_next h]
    exact Nat.le_add_right _ _

theorem yearOf_eq {n y : Nat} (hlt : daysBeforeYear y < n) (hle : n ≤ daysBeforeYear (y + 1)) :
    yearOf n = y := by
  obtain ⟨-, hlt', hle'⟩ := yearOf_bounds (Nat.one_le_of_lt hlt)
  by_contra hne
  rcases Nat.lt_or_gt_of_ne hne with h | h
  · have : daysBeforeYear (yearOf n + 1) ≤ daysBeforeYear y := daysBeforeYear_mono h
    omega
  · have : daysBeforeYear (y + 1) ≤ daysBeforeYear (yearOf n) := daysBeforeYear_mono h
    omega

theorem sum_take_add_le {lengths : List Nat} {k length : Nat} (hk : lengths[k]? = some length) :
    (lengths.take k).sum + length ≤ lengths.sum := by
  obtain ⟨hlt, rfl⟩ := List.getElem?_eq_some_iff.mp hk
  have hsum := List.sum_take_add_sum_drop lengths (k + 1)
  rw [List.sum_take_succ lengths k hlt] at hsum
  omega

/-- Cutting gives back the month and the day that the days of the year were counted from. -/
theorem cutMonths_sum {lengths : List Nat} {k length day : Nat} (hk : lengths[k]? = some length)
    (hone : 1 ≤ day) (hle : day ≤ length) (month : Nat) :
    cutMonths lengths month ((lengths.take k).sum + day) = (month + k, day) := by
  induction lengths generalizing k month with
  | nil => simp at hk
  | cons l lengths ih =>
      cases k with
      | zero =>
          obtain rfl : l = length := by simpa using hk
          simp [cutMonths, hle]
      | succ k =>
          have hcut : l + (lengths.take k).sum + day - l = (lengths.take k).sum + day := by omega
          rw [List.take_succ_cons, List.sum_cons, cutMonths, if_neg (by omega), hcut,
            ih (by simpa using hk) (month + 1), Nat.add_right_comm, Nat.add_assoc]

namespace Date

/-- A number belongs to one civil day only. -/
theorem civil_of_ordinal {c : Civil} (hc : c.valid) {d : Date} (h : d.ordinal = c.ordinal) :
    d.civil = c := by
  obtain ⟨hyear, -, hmonth, hday, length, hk, hle⟩ := Civil.valid_iff.mp hc
  have hsum := sum_take_add_le hk
  have hnext := daysBeforeYear_next hyear
  rw [Civil.ordinal_eq, Nat.add_assoc] at h
  have hyearOf : yearOf d.ordinal = c.year := yearOf_eq (by omega) (by omega)
  have hcut : d.ordinal - daysBeforeYear c.year
      = ((monthLengths (isLeapYear c.year)).take (c.month - 1)).sum + c.day := by omega
  rw [civil, hyearOf, hcut, cutMonths_sum hk hday hle, Nat.add_sub_cancel' hmonth]

end Date

/-! ## The next day -/

namespace Civil

theorem next_in_month {c : Civil} {length : Nat}
    (hk : (monthLengths (isLeapYear c.year))[c.month - 1]? = some length) :
    c.next = if c.day < length then { c with day := c.day + 1 }
      else if c.month < 12 then ⟨c.year, c.month + 1, 1⟩ else ⟨c.year + 1, 1, 1⟩ := by
  rw [next, List.getD_eq_getElem?_getD, hk, Option.getD_some]

/-- The step: the next day has the next number, at the end of a month and of a year as well. -/
theorem ordinal_next {c : Civil} (hc : c.valid) : c.next.ordinal = c.ordinal + 1 := by
  obtain ⟨year, month, day⟩ := c
  obtain ⟨hyear, -, hmonth, -, length, hk, hle⟩ := valid_iff.mp hc
  obtain ⟨k, rfl⟩ := Nat.exists_eq_add_of_le' hmonth
  rw [next_in_month hk]
  have hk : (monthLengths (isLeapYear year))[k]? = some length := hk
  dsimp only at hyear hle ⊢
  obtain ⟨hlt, hlength⟩ := List.getElem?_eq_some_iff.mp hk
  have hsucc := List.sum_take_succ (monthLengths (isLeapYear year)) k hlt
  rw [hlength] at hsucc
  split
  · exact (Nat.add_assoc _ day 1).symm
  · have hday : day = length := by omega
    split
    · show daysBeforeYear year + ((monthLengths (isLeapYear year)).take (k + 1)).sum + 1
        = daysBeforeYear year + ((monthLengths (isLeapYear year)).take k).sum + day + 1
      rw [hsucc, hday]
      omega
    · have hall : (monthLengths (isLeapYear year)).take (k + 1) = monthLengths (isLeapYear year) :=
        List.take_of_length_le (show 12 ≤ k + 1 by omega)
      rw [hall] at hsucc
      show daysBeforeYear (year + 1) + 0 + 1
        = daysBeforeYear year + ((monthLengths (isLeapYear year)).take k).sum + day + 1
      rw [daysBeforeYear_next hyear, hsucc, hday]
      omega

/-- The calendar goes on until its last number. -/
theorem valid_next {c : Civil} (hc : c.valid) (hlt : c.ordinal < 3652059) : c.next.valid := by
  have hsome : ∀ {leap : Bool} {k : Nat}, k < 12 →
      ∃ length, (monthLengths leap)[k]? = some length ∧ 1 ≤ length := by decide
  have hnext := ordinal_next hc
  obtain ⟨year, month, day⟩ := c
  obtain ⟨hyear, hlast, hmonth, -, length, hk, -⟩ := valid_iff.mp hc
  rw [next_in_month hk] at hnext ⊢
  dsimp only at hyear hlast hmonth hk hnext ⊢
  split
  · next hin => exact valid_iff.mpr ⟨hyear, hlast, hmonth, Nat.le_add_left _ _, length, hk, hin⟩
  · next hout =>
    rw [if_neg hout] at hnext
    split
    · next hmore =>
      exact valid_iff.mpr ⟨hyear, hlast, Nat.le_add_left _ _, Nat.le_refl _, hsome hmore⟩
    · next hmore =>
      rw [if_neg hmore] at hnext
      -- the year cannot be the last one, as that would end with the last number
      have hdays : daysBeforeYear (year + 1) + 0 + 1 = (Civil.mk year month day).ordinal + 1 := hnext
      have hten : daysBeforeYear 10000 = 3652059 := rfl
      have hyear' : year + 1 ≤ 9999 := by
        by_contra h
        have : daysBeforeYear 10000 ≤ daysBeforeYear (year + 1) := daysBeforeYear_mono (by omega)
        omega
      exact valid_iff.mpr
        ⟨Nat.le_add_left _ _, hyear', Nat.le_refl _, Nat.le_refl _, hsome (Nat.succ_pos 11)⟩

end Civil

namespace Date

theorem civil_succ {d e : Date} (h : e.ordinal = d.ordinal + 1) : e.civil = d.civil.next := by
  have hlt : d.civil.ordinal < 3652059 := by
    rw [ordinal_civil, Nat.lt_iff_add_one_le, ← h]
    exact e.le_last
  refine civil_of_ordinal (Civil.valid_next d.valid_civil hlt) ?_
  rw [Civil.ordinal_next d.valid_civil, ordinal_civil, h]

theorem civil_first : first.civil = ⟨1, 1, 1⟩ := by decide

theorem civil_last : last.civil = ⟨9999, 12, 31⟩ := by decide

/-- By induction on the number: the days before have been counted. -/
theorem civil_eq_iterate (d : Date) : d.civil = Civil.next^[d.ordinal - 1] ⟨1, 1, 1⟩ := by
  obtain ⟨n, hone, hlast⟩ := d
  induction n, hone using Nat.le_induction with
  | base => exact civil_first
  | succ n hone ih =>
      have hstep : Civil.next^[n + 1 - 1] ⟨1, 1, 1⟩
          = (Civil.next^[n - 1] ⟨1, 1, 1⟩).next := by
        rw [← Function.iterate_succ_apply' Civil.next, Nat.succ_eq_add_one, Nat.sub_add_cancel hone,
          Nat.add_sub_cancel]
      exact (civil_succ rfl).trans ((congrArg Civil.next (ih (by omega))).trans hstep.symm)

theorem before_of_lt {d e : Date} (h : d < e) : d.civil.Before e.civil := by
  obtain ⟨n, hone, hlast⟩ := e
  replace h : d.ordinal + 1 ≤ n := h
  induction n, h using Nat.le_induction with
  | base => exact civil_succ (e := ⟨d.ordinal + 1, hone, hlast⟩) rfl ▸ d.civil.before_next
  | succ n hle ih =>
      have hprev : d.civil.Before (civil ⟨n, by omega, by omega⟩) := ih _ _
      rw [civil_succ (d := ⟨n, by omega, by omega⟩) (e := ⟨n + 1, hone, hlast⟩) rfl]
      exact hprev.trans (Civil.before_next _)

/-- Days are in the order of their years, months and days. -/
theorem lt_iff_before {d e : Date} : d < e ↔ d.civil.Before e.civil := by
  refine ⟨before_of_lt, fun h => ?_⟩
  rcases lt_trichotomy d e with hlt | rfl | hlt
  · exact hlt
  · exact absurd h (Civil.not_before_self _)
  · exact absurd (h.trans (before_of_lt hlt)) (Civil.not_before_self _)

theorem shift_daysTo (d e : Date) : d.shift (d.daysTo e) = e := by
  have hsum : (d.ordinal : Int) + d.daysTo e = e.ordinal := by
    unfold daysTo
    omega
  have h := shift_ordinal d (d.daysTo e)
  have hone := e.one_le
  have hlast := e.le_last
  rw [hsum] at h
  exact ext_ordinal (by omega)

/-- The number of a day counts the days of the calendar from 0001-01-01 to 9999-12-31, and days are
in the order of their years, months and days. Moving a day adds to its number and stops at the ends
of the calendar, by however many days it is moved. So a later day comes out no earlier, and neither
does a day that is moved by more days, and the days between two days lead from one to the other. -/
theorem shift_saturates (d e : Date) (n : Int) :
    d.civil = Civil.next^[d.ordinal - 1] ⟨1, 1, 1⟩
      ∧ last.civil = ⟨9999, 12, 31⟩
      ∧ (d < e ↔ d.civil.Before e.civil)
      ∧ ((d.shift n).ordinal : Int) = max (first.ordinal : Int) (min (d.ordinal + n) last.ordinal)
      ∧ Monotone (fun d : Date => d.shift n)
      ∧ Monotone d.shift
      ∧ d.shift (d.daysTo e) = e := by
  refine ⟨d.civil_eq_iterate, civil_last, lt_iff_before, d.shift_ordinal n, fun a b h => ?_,
    fun m m' h => ?_, d.shift_daysTo e⟩
  · exact shift_mono h (le_refl n)
  · exact shift_mono (le_refl d) h

example : (ofCivil? ⟨2024, 2, 28⟩).map (fun d => ((d.shift 1).civil, (d.shift 2).civil))
    = some (⟨2024, 2, 29⟩, ⟨2024, 3, 1⟩) := by decide

end Date

end Roadmap
