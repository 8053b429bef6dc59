import Roadmap.Calendar.Iso
import Roadmap.Outline.Header

/-!
# The start day of an outline

A line that opens with `@start:` names the day from which tasks are scheduled: the first word after
the colon, also if line breaks stand between. The first such word that is a day counts; without
one, the outline starts today.
-/

namespace Roadmap.Outline

def startMark : List Char := "@start:".toList

/-- The word after a start mark at the beginning of a text, and what follows it. -/
def startWord? (s : List Char) : Option (List Char × List Char) :=
  (afterMark? startMark s).bind fun rest => Text.firstWord? (rest.dropWhile Text.isBlank)

theorem length_afterMark?_le {m s rest : List Char} (h : afterMark? m s = some rest) :
    rest.length ≤ s.length := by
  induction m generalizing s with
  | nil => cases h; exact Nat.le_refl _
  | cons a m ih =>
    cases s with
    | nil => cases h
    | cons c s =>
      simp only [afterMark?] at h
      split at h
      · exact Nat.le_succ_of_le (ih h)
      · cases h

theorem length_startWord?_lt {s word rest : List Char} (h : startWord? s = some (word, rest)) :
    rest.length < s.length := by
  obtain ⟨body, hb, h⟩ := Option.bind_eq_some_iff.1 h
  have h₁ := length_afterMark?_le hb
  have h₂ := Text.length_dropWhile_le Text.isBlank body
  have h₃ := Text.length_firstWord?_lt h
  omega

/-- The words that start marks name, from left to right; `fresh` tells that the text begins at the
start of a line. A mark inside the blanks or the word of an earlier one does not count. -/
def startWords (fresh : Bool) (s : List Char) : List (List Char) :=
  match s with
  | [] => []
  | c :: rest =>
    match _h : if fresh then startWord? (c :: rest) else none with
    | some (word, after) => word :: startWords false after
    | none => startWords (c == '\n') rest
termination_by s.length
decreasing_by
  · split at _h
    · exact length_startWord?_lt _h
    · cases _h
  · simp

/-- The day on which a text has its tasks start. -/
def startDay (text : List Char) (today : Date) : Date :=
  ((startWords true text).findSome? Date.ofIso?).getD today

end Roadmap.Outline
