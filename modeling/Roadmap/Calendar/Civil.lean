import Roadmap.Calendar.Date

/-!
# Years, months and days

The civil form of a day, and the way between it and the day's number. Every fourth year is a leap
year, but of the full centuries only every fourth. Going from the number to the year, 146097 days
in 400 years give a first guess that is off by at most one.
-/

namespace Roadmap

def isLeapYear (year : Nat) : Bool := year % 4 == 0 && (year % 100 != 0 || year % 400 == 0)

/-- The lengths of the twelve months. -/
def monthLengths (leap : Bool) : List Nat :=
  [31, if leap then 29 else 28, 31, 30, 31, 30, 31, 31, 30, 31, 30, 31]

/-- The number of days before the first of January of `year`, for a year from 1 on. -/
def daysBeforeYear (year : Nat) : Nat :=
  (year - 1) * 365 + (year - 1) / 4 - (year - 1) / 100 + (year - 1) / 400

/-- The year that holds the day of a number: of the guess from the mean length of a year and its
neighbours, the one in which the day lies. -/
def yearOf (ordinal : Nat) : Nat :=
  let guess := ordinal * 400 / 146097 + 1
  if ordinal ≤ daysBeforeYear guess then guess - 1
  else if ordinal ≤ daysBeforeYear (guess + 1) then guess
  else guess + 1

theorem daysBeforeYear_succ (k : Nat) :
    daysBeforeYear (k + 1) = k * 365 + k / 4 - k / 100 + k / 400 := by
  simp [daysBeforeYear]

/-- The guess of `yearOf` is never off by more than one: the year that it settles for begins
before the day and does not end before it. -/
theorem yearOf_bounds {n : Nat} (h : 1 ≤ n) :
    1 ≤ yearOf n ∧ daysBeforeYear (yearOf n) < n ∧ n ≤ daysBeforeYear (yearOf n + 1) := by
  unfold yearOf
  obtain ⟨k, hk⟩ : ∃ k, n * 400 / 146097 = k := ⟨_, rfl⟩
  simp only [hk]
  have lo : 146097 * k ≤ n * 400 := by omega
  have hi : n * 400 < 146097 * (k + 1) := by omega
  clear hk
  simp only [daysBeforeYear_succ]
  by_cases c : n ≤ k * 365 + k / 4 - k / 100 + k / 400
  · rw [if_pos c]
    obtain ⟨j, rfl⟩ : ∃ j, k = j + 1 := ⟨k - 1, by omega⟩
    simp only [Nat.add_sub_cancel, daysBeforeYear_succ]
    refine ⟨by omega, by omega, by omega⟩
  · rw [if_neg c]
    by_cases d : n ≤ (k + 1) * 365 + (k + 1) / 4 - (k + 1) / 100 + (k + 1) / 400
    · rw [if_pos d]
      simp only [daysBeforeYear_succ]
      refine ⟨by omega, by omega, by omega⟩
    · rw [if_neg d]
      simp only [daysBeforeYear_succ]
      refine ⟨by omega, by omega, by omega⟩

/-- A year, month and day of month, the latter two counted from 1. -/
structure Civil where
  year : Nat
  month : Nat
  day : Nat
deriving DecidableEq, Repr

/-- Such a day exists in the calendar. -/
def Civil.valid (c : Civil) : Bool :=
  1 ≤ c.year && c.year ≤ 9999 && 1 ≤ c.month && 1 ≤ c.day
    && match (monthLengths (isLeapYear c.year))[c.month - 1]? with
      | some length => c.day ≤ length
      | none => false

/-- The number of a civil day. -/
def Civil.ordinal (c : Civil) : Nat :=
  daysBeforeYear c.year + ((monthLengths (isLeapYear c.year)).take (c.month - 1)).foldr (· + ·) 0 + c.day

/-- Cuts the day `day` of a stretch of months into a month and a day of it; `month` is the number
of the first of them. -/
def cutMonths : List Nat → Nat → Nat → Nat × Nat
  | [], month, day => (month, day)
  | length :: rest, month, day =>
    if day ≤ length then (month, day) else cutMonths rest (month + 1) (day - length)

namespace Date

/-- The day of a civil form, if it exists. -/
def ofCivil? (c : Civil) : Option Date :=
  if c.valid then
    if h : 1 ≤ c.ordinal ∧ c.ordinal ≤ 3652059 then some ⟨c.ordinal, h.1, h.2⟩ else none
  else none

/-- The year, month and day of month of a day. -/
def civil (d : Date) : Civil :=
  let y := yearOf d.ordinal
  let (month, day) := cutMonths (monthLengths (isLeapYear y)) 1 (d.ordinal - daysBeforeYear y)
  ⟨y, month, day⟩

end Date

end Roadmap
