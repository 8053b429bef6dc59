import Mathlib
import Roadmap.Calendar.Iso
import Roadmap.Proofs.Text.Decimal

/-!
# Written days are read back

Two inverses make it up. A day's civil form names that day (`ordinal_civil`) and is one that exists
(`valid_civil`), which rests on what `cutMonths` does with a day of the year. And the places that
its numbers are written with are wide enough to hold them.
-/

namespace Roadmap

/-! ## The civil form of a day -/

/-- Cutting finds the month in which the day lies and takes off the days before it. -/
theorem cutMonths_spec {lengths : List Nat} {day : Nat} (hpos : 1 ≤ day)
    (hle : day ≤ lengths.sum) (month : Nat) :
    ∃ (k length : Nat), (cutMonths lengths month day).1 = month + k ∧ lengths[k]? = some length
      ∧ 1 ≤ (cutMonths lengths month day).2 ∧ (cutMonths lengths month day).2 ≤ length
      ∧ (lengths.take k).sum + (cutMonths lengths month day).2 = day := by
  induction lengths generalizing month day with
  | nil =>
      rw [List.sum_nil] at hle
      omega
  | cons length lengths ih =>
      rw [cutMonths]
      by_cases h : day ≤ length
      · rw [if_pos h]
        exact ⟨0, length, rfl, rfl, hpos, h, Nat.zero_add day⟩
      · rw [if_neg h]
        rw [List.sum_cons] at hle
        have hrest : 1 ≤ day - length := by omega
        obtain ⟨k, l, hmonth, hl, hone, hday, hsum⟩ := ih hrest (by omega) (month + 1)
        refine ⟨k + 1, l, by omega, hl, hone, hday, ?_⟩
        rw [List.take_succ_cons, List.sum_cons]
        omega

theorem sum_monthLengths (leap : Bool) :
    (monthLengths leap).sum = if leap then 366 else 365 := by
  cases leap <;> rfl

theorem monthLengths_le {leap : Bool} {k length : Nat}
    (h : (monthLengths leap)[k]? = some length) : k < 12 ∧ length ≤ 31 := by
  have hk : k < (monthLengths leap).length := (List.getElem?_eq_some_iff.mp h).1
  have hmem := List.mem_of_getElem? h
  cases leap
  · exact ⟨hk, (by decide : ∀ l ∈ monthLengths false, l ≤ 31) length hmem⟩
  · exact ⟨hk, (by decide : ∀ l ∈ monthLengths true, l ≤ 31) length hmem⟩

theorem isLeapYear_iff (year : Nat) :
    isLeapYear year ↔ 4 ∣ year ∧ (¬ 100 ∣ year ∨ 400 ∣ year) := by
  simp only [isLeapYear, Bool.and_eq_true, Bool.or_eq_true, beq_iff_eq, bne_iff_ne, ne_eq,
    Nat.dvd_iff_mod_eq_zero]

theorem daysBeforeYear_next {year : Nat} (h : 1 ≤ year) :
    daysBeforeYear (year + 1) = daysBeforeYear year + (monthLengths (isLeapYear year)).sum := by
  obtain ⟨k, rfl⟩ := Nat.exists_eq_add_of_le' h
  have h100 : 100 ∣ k + 1 → 4 ∣ k + 1 := Nat.dvd_trans (by decide)
  have h400 : 400 ∣ k + 1 → 100 ∣ k + 1 := Nat.dvd_trans (by decide)
  have hle : k / 100 ≤ k / 4 := Nat.div_le_div_left (by decide) (by decide)
  rw [sum_monthLengths, daysBeforeYear_succ, daysBeforeYear_succ]
  simp only [Nat.succ_div, isLeapYear_iff]
  -- from here on only which of the three numbers divide the year counts
  generalize k / 4 = a at *
  generalize k / 100 = b at *
  by_cases d4 : 4 ∣ k + 1
  · by_cases d100 : 100 ∣ k + 1
    · by_cases d400 : 400 ∣ k + 1
      · simp only [d4, d100, d400, if_true, and_true, or_true]
        omega
      · simp only [d4, d100, d400, if_true, if_false, not_true, or_false, and_false]
        omega
    · have d400 : ¬ 400 ∣ k + 1 := fun h => d100 (h400 h)
      simp only [d4, d100, d400, if_true, if_false, not_false_iff, true_or, and_true]
      omega
  · have d100 : ¬ 100 ∣ k + 1 := fun h => d4 (h100 h)
    have d400 : ¬ 400 ∣ k + 1 := fun h => d100 (h400 h)
    simp only [d4, d100, d400, if_false, false_and]
    omega

namespace Date

/-- The day of the year lies in one of its months. -/
theorem civil_spec (d : Date) : ∃ (k length : Nat), d.civil.month = k + 1
    ∧ (monthLengths (isLeapYear d.civil.year))[k]? = some length
    ∧ 1 ≤ d.civil.day ∧ d.civil.day ≤ length
    ∧ daysBeforeYear d.civil.year
        + ((monthLengths (isLeapYear d.civil.year)).take k).sum + d.civil.day = d.ordinal := by
  obtain ⟨hone, hbefore, hafter⟩ := yearOf_bounds d.one_le
  rw [daysBeforeYear_next hone] at hafter
  have hpos : 1 ≤ d.ordinal - daysBeforeYear (yearOf d.ordinal) := by omega
  have hin : d.ordinal - daysBeforeYear (yearOf d.ordinal)
      ≤ (monthLengths (isLeapYear (yearOf d.ordinal))).sum := by omega
  obtain ⟨k, length, hmonth, hlength, hday, hle, hsum⟩ := cutMonths_spec hpos hin 1
  refine ⟨k, length, ?_, hlength, hday, hle, ?_⟩
  · exact hmonth.trans (Nat.add_comm 1 k)
  · show daysBeforeYear (yearOf d.ordinal) + _ + _ = d.ordinal
    rw [Nat.add_assoc]
    exact (congrArg _ hsum).trans (by omega)

theorem year_civil (d : Date) : 1 ≤ d.civil.year ∧ d.civil.year ≤ 9999 := by
  obtain ⟨hone, hbefore, -⟩ := yearOf_bounds d.one_le
  refine ⟨hone, ?_⟩
  show yearOf d.ordinal ≤ 9999
  have hlast := d.le_last
  obtain ⟨k, hk⟩ := Nat.exists_eq_add_of_le' hone
  rw [hk, daysBeforeYear_succ] at hbefore
  omega

theorem valid_civil (d : Date) : d.civil.valid := by
  obtain ⟨k, length, hmonth, hlength, hday, hle, -⟩ := d.civil_spec
  obtain ⟨hone, hyear⟩ := d.year_civil
  simp only [Civil.valid, hmonth, Nat.add_sub_cancel, hlength, Bool.and_eq_true, decide_eq_true_eq]
  omega

theorem ordinal_civil (d : Date) : d.civil.ordinal = d.ordinal := by
  obtain ⟨k, length, hmonth, -, -, -, hsum⟩ := d.civil_spec
  rw [Civil.ordinal, hmonth, Nat.add_sub_cancel]
  exact hsum

theorem ofCivil?_civil (d : Date) : ofCivil? d.civil = some d := by
  rw [ofCivil?, if_pos d.valid_civil]
  simp only [ordinal_civil]
  rw [dif_pos ⟨d.one_le, d.le_last⟩]

/-! ## The written form -/

theorem mem_isoChars {d : Date} {c : Char} (h : c ∈ d.isoChars) :
    c = '-' ∨ c ∈ Text.tenDigits := by
  simp only [isoChars, List.mem_append, List.mem_cons] at h
  rcases h with (h | h | h) | h | h
  · exact .inr (Text.mem_fixedDigits h)
  · exact .inl h
  · exact .inr (Text.mem_fixedDigits h)
  · exact .inl h
  · exact .inr (Text.mem_fixedDigits h)

theorem ofIso?_isoChars (d : Date) : ofIso? d.isoChars = some d := by
  have hblank : ∀ c ∈ d.isoChars, Text.isBlank c = false :=
    fun c hc => (Text.plain_of_mem (mem_isoChars hc)).1
  have hstrip : Text.strip d.isoChars = d.isoChars := by
    rw [Text.strip, Text.dropWhile_of_head fun c hc => hblank c (List.mem_of_mem_head? hc)]
    exact Text.dropTrailing_of_last fun c hc => hblank c (List.mem_of_mem_getLast? hc)
  obtain ⟨k, length, hmonth, hlength, -, hday, -⟩ := d.civil_spec
  obtain ⟨hk, h31⟩ := monthLengths_le hlength
  have hyear : d.civil.year < 10 ^ 4 := by
    have := d.year_civil
    omega
  obtain ⟨y₁, y₂, y₃, y₄, hy⟩ := List.length_eq_four.mp (Text.length_fixedDigits 4 d.civil.year)
  obtain ⟨m₁, m₂, hm⟩ := List.length_eq_two.mp (Text.length_fixedDigits 2 d.civil.month)
  obtain ⟨d₁, d₂, hd⟩ := List.length_eq_two.mp (Text.length_fixedDigits 2 d.civil.day)
  have hall : ([y₁, y₂, y₃, y₄] ++ [m₁, m₂] ++ [d₁, d₂]).all Text.isDigit := by
    rw [← hy, ← hm, ← hd, List.all_eq_true]
    intro c hc
    rw [List.mem_append, List.mem_append] at hc
    rcases hc with (hc | hc) | hc
    all_goals exact Text.isDigit_of_mem (Text.mem_fixedDigits hc)
  have hchars : d.isoChars = [y₁, y₂, y₃, y₄, '-', m₁, m₂, '-', d₁, d₂] := by
    rw [isoChars, hy, hm, hd]
    rfl
  rw [ofIso?, hstrip, hchars]
  simp only [hall, if_true]
  rw [← hy, ← hm, ← hd, Text.digitsValue_fixedDigits hyear,
    Text.digitsValue_fixedDigits (by omega), Text.digitsValue_fixedDigits (by omega)]
  exact d.ofCivil?_civil

end Date

end Roadmap
