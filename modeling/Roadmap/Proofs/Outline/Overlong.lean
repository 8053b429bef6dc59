import Roadmap.Plan.Calculate
import Roadmap.Proofs.Outline.Frame

/-!
# Texts that cannot be read

The one number of a task line that is read without a way out is its duration. A task line with more
digits there than can be read (`overlong?`) stops the whole text, and the first such line names the
fault; every other line says something or nothing, and so a text without such a line has an outline,
and with it a plan (`exists_plan_iff`).
-/

namespace Roadmap.Outline

/-- The number of digits of the duration on a task line, if they are too many to be read. -/
def overlong? (line : Text.Line) : Option Nat :=
  (taskParts? (Text.dropTrailing (· == '\r') line)).bind fun p =>
    if Fault.maxDigits < p.digits.length then some p.digits.length else none

section

variable {α β : Type} {f g : Fault} {a : α} {b : β}

theorem error_iff_error :
    (Except.error g : Except Fault α) = .error f ↔ (Except.error g : Except Fault β) = .error f := by
  rw [Except.error.injEq, Except.error.injEq]

theorem ok_iff_ok :
    (Except.ok a : Except Fault α) = .error f ↔ (Except.ok b : Except Fault β) = .error f := by
  simp only [reduceCtorEq]

theorem ok_iff_none : (Except.ok a : Except Fault α) = .error f
    ↔ ∃ n : Nat, none = some n ∧ f = .integerTooLong n := by
  simp only [reduceCtorEq, false_and, exists_false]

end

section

variable {line : Text.Line} {f : Fault}

theorem overlong?_of_parts {p : TaskParts}
    (h : taskParts? (Text.dropTrailing (· == '\r') line) = some p) :
    overlong? line = if Fault.maxDigits < p.digits.length then some p.digits.length else none := by
  rw [overlong?, h, Option.bind_some]

theorem maxDigits_lt {n : Nat} (h : overlong? line = some n) : Fault.maxDigits < n := by
  obtain ⟨p, -, h⟩ := Option.bind_eq_some_iff.mp h
  split at h
  · next hlong =>
      cases h
      exact hlong
  · cases h

theorem overlong?_of_no_parts (h : taskParts? (Text.dropTrailing (· == '\r') line) = none) :
    overlong? line = none := by
  rw [overlong?, h, Option.bind_none]

theorem readTask?_error_iff (number : Int) :
    readTask? line number = .error f ↔ ∃ n, overlong? line = some n ∧ f = .integerTooLong n := by
  cases hparts : taskParts? (Text.dropTrailing (· == '\r') line) with
  | none =>
      rw [readTask?_of_no_parts number hparts, overlong?_of_no_parts hparts]
      exact ok_iff_none
  | some p =>
      rw [readTask?_of_parts number hparts, overlong?_of_parts hparts]
      split
      · constructor
        · rintro ⟨⟩
          exact ⟨_, rfl, rfl⟩
        · rintro ⟨n, ⟨⟩, rfl⟩
          rfl
      · exact ok_iff_none

theorem taskParts?_of_header {number : Int} {p : Project}
    (h : readHeader? line number = some p) :
    taskParts? (Text.dropTrailing (· == '\r') line) = none := by
  obtain ⟨text, htext, -⟩ := Option.map_eq_some_iff.mp h
  exact taskParts?_of_isHeader (Option.isSome_iff_exists.mpr ⟨text, htext⟩)

theorem readLine_error_iff (number : Int) :
    readLine line number = .error f ↔ ∃ n, overlong? line = some n ∧ f = .integerTooLong n := by
  rw [readLine]
  cases hheader : readHeader? line number with
  | some p =>
      rw [overlong?_of_no_parts (taskParts?_of_header hheader)]
      exact ok_iff_none
  | none =>
      rw [← readTask?_error_iff number]
      cases readTask? line number with
      | error g => exact error_iff_error
      | ok t? => exact ok_iff_ok

end

/-- The first line that cannot be read stops the reading, and no other does. -/
theorem readLines_error_iff (number : Int) {lines : List Text.Line} {f : Fault} :
    readLines number lines = .error f
      ↔ ∃ n, lines.findSome? overlong? = some n ∧ f = .integerTooLong n := by
  induction lines generalizing number with
  | nil => exact ok_iff_none
  | cons line lines ih =>
      rw [List.findSome?_cons, readLines]
      cases hline : readLine line number with
      | error g =>
          obtain ⟨n, hlong, rfl⟩ := (readLine_error_iff number).mp hline
          rw [hlong]
          constructor
          · rintro ⟨⟩
            exact ⟨n, rfl, rfl⟩
          · rintro ⟨n, ⟨⟩, rfl⟩
            rfl
      | ok s =>
          have hshort : overlong? line = none := by
            cases hlong : overlong? line with
            | none => rfl
            | some n =>
                rw [(readLine_error_iff number).mpr ⟨n, hlong, rfl⟩] at hline
                cases hline
          rw [hshort, ← ih (number + 1)]
          cases readLines (number + 1) lines with
          | error g => exact error_iff_error
          | ok rest => exact ok_iff_ok

theorem exists_readLines_iff_short (lines : List Text.Line) (number : Int) :
    (∃ ss, readLines number lines = .ok ss) ↔ ∀ line ∈ lines, overlong? line = none := by
  rw [← List.findSome?_eq_none_iff]
  cases hread : readLines number lines with
  | ok ss =>
      refine iff_of_true ⟨ss, rfl⟩ ?_
      cases hlong : lines.findSome? overlong? with
      | none => rfl
      | some n =>
          rw [(readLines_error_iff number).mpr ⟨n, hlong, rfl⟩] at hread
          cases hread
  | error f =>
      obtain ⟨n, hn, -⟩ := (readLines_error_iff number).mp hread
      rw [hn]
      simp

theorem read_error_iff {text : String} (today : Date) {f : Fault} :
    read text today = .error f ↔ ∃ n,
      (Text.linesOf text.toList).findSome? overlong? = some n ∧ f = .integerTooLong n := by
  rw [← readLines_error_iff 1, read]
  cases readLines 1 (Text.linesOf text.toList) with
  | error g => exact error_iff_error
  | ok ss => exact ok_iff_ok

/-- Reading a text fails for one reason, a duration with too many digits. -/
theorem read_error {text : String} {today : Date} {f : Fault} (h : read text today = .error f) :
    ∃ digits : Nat, Fault.maxDigits < digits ∧ f = .integerTooLong digits := by
  obtain ⟨n, hfirst, hf⟩ := (read_error_iff today).mp h
  obtain ⟨line, -, hlong⟩ := List.exists_of_findSome?_eq_some hfirst
  exact ⟨n, maxDigits_lt hlong, hf⟩

/-- A text has a plan unless one of its lines is a task line with a duration that is too long to be
read, whatever else it holds; the first such line is the fault. -/
theorem exists_plan_iff (text : String) (today : Date) :
    ((∃ plan, (read text today).map Plan.ofOutline = .ok plan)
      ↔ ∀ line ∈ Text.linesOf text.toList, overlong? line = none)
    ∧ ∀ f, (read text today).map Plan.ofOutline = .error f ↔ ∃ n,
      (Text.linesOf text.toList).findSome? overlong? = some n ∧ f = .integerTooLong n := by
  have herror : ∀ f, (read text today).map Plan.ofOutline = .error f
      ↔ ∃ n, (Text.linesOf text.toList).findSome? overlong? = some n ∧ f = .integerTooLong n := by
    intro f
    rw [← read_error_iff today]
    cases read text today with
    | error g => exact error_iff_error
    | ok o => exact ok_iff_ok
  refine ⟨?_, herror⟩
  rw [← List.findSome?_eq_none_iff]
  cases hlong : (Text.linesOf text.toList).findSome? overlong? with
  | some n =>
      rw [(herror _).mpr ⟨n, hlong, rfl⟩]
      constructor
      · rintro ⟨plan, ⟨⟩⟩
      · rintro ⟨⟩
  | none =>
      refine iff_of_true ?_ rfl
      cases hplan : (read text today).map Plan.ofOutline with
      | ok plan => exact ⟨plan, rfl⟩
      | error f =>
          obtain ⟨n, hn, -⟩ := (herror f).mp hplan
          rw [hlong] at hn
          cases hn

/-! ### A duration of too many digits -/

theorem overlong?_written {level : Nat} {title digits tail modifiers : List Char}
    (hlevel : 1 ≤ level) (htitle : title ≠ []) (hstrip : Text.strip title = title)
    (hline : '\n' ∉ title) (hplain : Unambiguous title.tail) (hne : digits ≠ [])
    (hdigits : ∀ c ∈ digits, Text.isDigit c) (htail : modifierText? tail = some modifiers)
    (hend : EndsPlain tail) : overlong? (written level title digits tail)
      = if Fault.maxDigits < digits.length then some digits.length else none := by
  have hparts := taskParts?_written hlevel htitle hstrip hline hplain hne hdigits htail
  rw [← dropTrailing_written hend] at hparts
  exact overlong?_of_parts hparts

/-- A header and a task that takes too long. -/
theorem findSome?_overlong?_endless {digits : List Char} (hdigits : ∀ c ∈ digits, Text.isDigit c)
    (hlong : Fault.maxDigits < digits.length) :
    (Text.linesOf ("## P".toList ++ '\n' :: written 1 ['T'] digits [])).findSome? overlong?
      = some digits.length := by
  have hline : '\n' ∉ written 1 ['T'] digits [] := by
    have hnot : '\n' ∉ digits := fun hmem => absurd (hdigits _ hmem) (by decide)
    simpa [written] using hnot
  have hne : digits ≠ [] := by
    rintro rfl
    exact absurd hlong (by decide)
  have hwritten : overlong? (written 1 ['T'] digits []) = some digits.length := by
    rw [overlong?_written (Nat.le_refl 1) (by decide) (by decide) (by decide)
      (unambiguous_of_cuts (by decide)).tail hne hdigits rfl (by rintro c ⟨⟩), if_pos hlong]
  rw [Text.linesOf_append_newline (by decide), Text.linesOf_of_no_newline hline,
    List.findSome?_cons, List.findSome?_cons, hwritten]
  rfl

def endless : String :=
  String.ofList ("## P".toList ++ '\n' :: written 1 ['T'] (List.replicate 4301 '1') [])

/-- Not every text has a plan. -/
theorem not_exists_plan_endless : ¬ ∃ plan,
    (read endless ⟨737426, by decide, by decide⟩).map Plan.ofOutline = .ok plan := by
  have hdigits : ∀ c ∈ List.replicate 4301 '1', Text.isDigit c := by
    intro c hc
    rw [List.eq_of_mem_replicate hc]
    rfl
  have hlong : Fault.maxDigits < (List.replicate 4301 '1').length := by
    rw [List.length_replicate]
    decide
  have hfirst := findSome?_overlong?_endless hdigits hlong
  rw [← String.toList_ofList (l := "## P".toList ++ _)] at hfirst
  rw [endless, (read_error_iff _).mpr ⟨_, hfirst, rfl⟩]
  rintro ⟨plan, ⟨⟩⟩

end Roadmap.Outline
