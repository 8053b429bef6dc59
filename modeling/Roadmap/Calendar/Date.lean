/-!
# Days

A day of the proleptic Gregorian calendar from 0001-01-01 to 9999-12-31, held as its number in
that calendar, the first day being 1. Everything a schedule does with days (shifting, counting,
taking the earlier or later of two) is arithmetic on these numbers.

`shift` moves a day by any number of days and stops at the ends of the calendar, so no schedule
ever runs out of dates.
-/

namespace Roadmap

/-- A day, by its number; 0001-01-01 is day 1 and 9999-12-31 is day 3652059. -/
structure Date where
  ordinal : Nat
  one_le : 1 ≤ ordinal
  le_last : ordinal ≤ 3652059
deriving DecidableEq

namespace Date

/-- The first day of the calendar. -/
def first : Date := ⟨1, by decide, by decide⟩

/-- The last day of the calendar. -/
def last : Date := ⟨3652059, by decide, by decide⟩

theorem ext_ordinal {a b : Date} (h : a.ordinal = b.ordinal) : a = b := by
  cases a; cases b; cases h; rfl

instance : LE Date := ⟨fun a b => a.ordinal ≤ b.ordinal⟩

instance : LT Date := ⟨fun a b => a.ordinal < b.ordinal⟩

instance (a b : Date) : Decidable (a ≤ b) := inferInstanceAs (Decidable (a.ordinal ≤ b.ordinal))

instance (a b : Date) : Decidable (a < b) := inferInstanceAs (Decidable (a.ordinal < b.ordinal))

instance : Min Date := ⟨fun a b => if a ≤ b then a else b⟩

instance : Max Date := ⟨fun a b => if a ≤ b then b else a⟩

/-- The day with the number nearest to `n`. -/
def nearest (n : Int) : Date :=
  if h : n < 1 then first
  else if h' : n ≤ 3652059 then ⟨n.toNat, by omega, by omega⟩
  else last

/-- The day with the number `n`, if the calendar has one. -/
def ofOrdinal? (n : Int) : Option Date :=
  if h : 1 ≤ n ∧ n ≤ 3652059 then some ⟨n.toNat, by omega, by omega⟩ else none

/-- The most days that can be added at once. -/
def maxDays : Nat := 999999999

/-- The day `n` days later, or earlier if `n` is negative. There is none if that many days cannot be
added or if it lies outside of the calendar. -/
def plus? (d : Date) (n : Int) : Option Date :=
  if n.natAbs ≤ maxDays then ofOrdinal? (d.ordinal + n) else none

/-- The day `n` days later, or earlier if `n` is negative. Where there is none it is the end of the
calendar on that side. -/
def shift (d : Date) (n : Int) : Date := (d.plus? n).getD (if 0 < n then last else first)

/-- The number of days from `a` to `b`, negative if `b` comes first. -/
def daysTo (a b : Date) : Int := (b.ordinal : Int) - a.ordinal

/-- The earliest of some days, or `fallback` if there are none. -/
def earliest (fallback : Date) : List Date → Date
  | [] => fallback
  | d :: ds => ds.foldl min d

/-- The latest of some days, or `fallback` if there are none. -/
def latest (fallback : Date) : List Date → Date
  | [] => fallback
  | d :: ds => ds.foldl max d

end Date

end Roadmap
