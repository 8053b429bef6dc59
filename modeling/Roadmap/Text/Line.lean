import Roadmap.Text.Blank

/-!
# Lines

A text is a row of lines with a line feed between neighbours, so it has one line more than line
feeds, and an empty text has one empty line. `lines` and `unlines` undo each other.

A file may end its lines with a carriage return and line feed, or with a carriage return alone;
`universal` makes line feeds of both.
-/

namespace Roadmap.Text

abbrev Line := List Char

/-- The lines of a text. -/
def linesOf : List Char → List Line
  | [] => [[]]
  | c :: rest =>
    if c = '\n' then [] :: linesOf rest
    else match linesOf rest with
      | [] => [[c]]
      | line :: lines => (c :: line) :: lines

/-- The text made of some lines. -/
def unlines : List Line → List Char
  | [] => []
  | [line] => line
  | line :: lines => line ++ '\n' :: unlines lines

theorem linesOf_ne_nil (s : List Char) : linesOf s ≠ [] := by
  cases s with
  | nil => simp [linesOf]
  | cons c rest =>
    simp only [linesOf]
    split
    · simp
    · split <;> simp

theorem unlines_linesOf (s : List Char) : unlines (linesOf s) = s := by
  induction s with
  | nil => rfl
  | cons c rest ih =>
    obtain ⟨line, lines, h⟩ := List.exists_cons_of_ne_nil (linesOf_ne_nil rest)
    by_cases hc : c = '\n'
    · rw [linesOf, if_pos hc, h, unlines, ← h, ih, hc]
      · rfl
      · simp
    · rw [linesOf, if_neg hc, h]
      cases lines with
      | nil => rw [← ih, h]; rfl
      | cons l ls => rw [← ih, h]; rfl

theorem linesOf_append_newline {line : Line} (h : '\n' ∉ line) (s : List Char) :
    linesOf (line ++ '\n' :: s) = line :: linesOf s := by
  induction line with
  | nil => simp [linesOf]
  | cons c line ih =>
    have hc : c ≠ '\n' := fun e => h (by simp [e])
    have hline : '\n' ∉ line := fun e => h (by simp [e])
    rw [List.cons_append, linesOf, if_neg hc, ih hline]

theorem linesOf_of_no_newline {line : Line} (h : '\n' ∉ line) : linesOf line = [line] := by
  induction line with
  | nil => rfl
  | cons c line ih =>
    have hc : c ≠ '\n' := fun e => h (by simp [e])
    have hline : '\n' ∉ line := fun e => h (by simp [e])
    rw [linesOf, if_neg hc, ih hline]

theorem linesOf_unlines {lines : List Line} (hne : lines ≠ []) (h : ∀ l ∈ lines, '\n' ∉ l) :
    linesOf (unlines lines) = lines := by
  induction lines with
  | nil => exact absurd rfl hne
  | cons line lines ih =>
    have hline : '\n' ∉ line := h line (by simp)
    cases lines with
    | nil => exact linesOf_of_no_newline hline
    | cons l ls =>
      rw [unlines, linesOf_append_newline hline, ih (by simp) fun x hx => h x (by simp [hx])]
      simp

/-- The text with every line ended by a line feed. -/
def universal : List Char → List Char
  | [] => []
  | '\r' :: '\n' :: rest => '\n' :: universal rest
  | '\r' :: rest => '\n' :: universal rest
  | c :: rest => c :: universal rest

end Roadmap.Text
