/-!
# Blank characters

Text is handled as a list of characters. A character is *blank* when it separates words: the
white space of Unicode together with the four information separators U+001C to U+001F. The
zero-width space, the byte order mark and the Mongolian vowel separator are not blank.

`strip` takes the blanks off both ends of a text, `words` cuts a text at its blanks.
-/

namespace Roadmap.Text

/-- `n` lies in one of the closed ranges, which are listed in increasing order. -/
def inRanges : List (Nat × Nat) → Nat → Bool
  | [], _ => false
  | (lo, hi) :: rest, n => if n < lo then false else if n ≤ hi then true else inRanges rest n

/-- The code points of the blanks. -/
def blankRanges : List (Nat × Nat) :=
  [(0x09, 0x0D), (0x1C, 0x20), (0x85, 0x85), (0xA0, 0xA0), (0x1680, 0x1680), (0x2000, 0x200A),
   (0x2028, 0x2029), (0x202F, 0x202F), (0x205F, 0x205F), (0x3000, 0x3000)]

def isBlank (c : Char) : Bool := inRanges blankRanges c.toNat

/-- The text without the characters at its end that satisfy `p`. -/
def dropTrailing (p : Char → Bool) (s : List Char) : List Char := (s.reverse.dropWhile p).reverse

/-- The text without the blanks at its end. -/
def stripEnd (s : List Char) : List Char := dropTrailing isBlank s

/-- The text without the blanks at either end. -/
def strip (s : List Char) : List Char := stripEnd (s.dropWhile isBlank)

/-- The characters of a text up to its first blank, if there are any, and what follows them. -/
def firstWord? (s : List Char) : Option (List Char × List Char) :=
  match s.takeWhile (!isBlank ·) with
  | [] => none
  | word => some (word, s.dropWhile (!isBlank ·))

theorem length_dropWhile_le (p : α → Bool) (s : List α) : (s.dropWhile p).length ≤ s.length := by
  induction s with
  | nil => simp
  | cons a s ih =>
    simp only [List.dropWhile_cons]
    split
    · exact Nat.le_succ_of_le ih
    · exact Nat.le_refl _

theorem length_firstWord?_lt {s word rest : List Char} (h : firstWord? s = some (word, rest)) :
    rest.length < s.length := by
  unfold firstWord? at h
  split at h
  · cases h
  · next hw =>
    cases h
    have whole : (s.takeWhile (!isBlank ·) ++ s.dropWhile (!isBlank ·)).length = s.length := by
      rw [List.takeWhile_append_dropWhile]
    have := List.length_pos_iff.2 hw
    rw [List.length_append] at whole
    omega

/-- The words of a text whose unfinished first word is `w`, last character first. -/
def wordsAfter : List Char → List Char → List (List Char)
  | [], [] => []
  | w, [] => [w.reverse]
  | w, c :: rest =>
    if isBlank c then
      match w with
      | [] => wordsAfter [] rest
      | _ => w.reverse :: wordsAfter [] rest
    else wordsAfter (c :: w) rest

/-- The maximal runs of characters that are not blank, from left to right. -/
def words (s : List Char) : List (List Char) := wordsAfter [] s

end Roadmap.Text
