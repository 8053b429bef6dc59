import Mathlib
import Roadmap.Outline.StartDay
import Roadmap.Text.Line

/-!
# Start marks and task lines

The word after a start mark may stand on a later line, so even a task line can be where a start
word is read from. Yet nothing behind its markers matters: the markers stand at the start of the
line, no start mark is made of them, and as a blank ends them they are a word of their own. So the
start of an outline does not depend on what its tasks say (`startWords_akin`).
-/

namespace Roadmap.Outline

/-- The texts are the same up to what stands behind the markers of task lines; `p` is the character
before them. -/
inductive Akin : Char → List Char → List Char → Prop
  | nil (p : Char) : Akin p [] []
  | cons (p c : Char) {s s' : List Char} (h : Akin c s s') : Akin p (c :: s) (c :: s')
  /-- Two task lines, behind their markers, at the end of the texts. -/
  | last {c c' : Char} {u u' : List Char} (hc : Text.isBlank c) (hc' : Text.isBlank c')
      (hu : '\n' ∉ c :: u) (hu' : '\n' ∉ c' :: u') : Akin '>' (c :: u) (c' :: u')
  /-- The same with further lines below. -/
  | tail {c c' : Char} {u u' s s' : List Char} (hc : Text.isBlank c) (hc' : Text.isBlank c')
      (hu : '\n' ∉ c :: u) (hu' : '\n' ∉ c' :: u') (h : Akin '\n' s s') :
      Akin '>' (c :: (u ++ '\n' :: s)) (c' :: (u' ++ '\n' :: s'))

theorem Akin.refl (p : Char) (s : List Char) : Akin p s s := by
  induction s generalizing p with
  | nil => exact .nil p
  | cons c s ih => exact .cons p c (ih c)

theorem Akin.line {s s' : List Char} (h : Akin '\n' s s') (p : Char) (line : List Char) :
    Akin p (line ++ '\n' :: s) (line ++ '\n' :: s') := by
  induction line generalizing p with
  | nil => exact .cons p '\n' h
  | cons c line ih => exact .cons p c (ih c)

/-! ## Words -/

theorem not_isBlank_marker : Text.isBlank '>' = false := by decide

/-- Past the blanks the texts stand at the same character, which is no marker's end. -/
theorem Akin.dropWhile {p : Char} {s s' : List Char} (h : Akin p s s') (hp : p ≠ '>') :
    ∃ q, q ≠ '>' ∧ Akin q (s.dropWhile Text.isBlank) (s'.dropWhile Text.isBlank) := by
  induction h with
  | nil p => exact ⟨p, hp, .nil p⟩
  | cons p c h ih =>
      rw [List.dropWhile_cons, List.dropWhile_cons]
      cases hc : Text.isBlank c with
      | true =>
          simp only [if_true]
          refine ih fun heq => ?_
          rw [heq, not_isBlank_marker] at hc
          cases hc
      | false =>
          simp only [Bool.false_eq_true, if_false]
          exact ⟨p, hp, .cons p c h⟩
  | last => exact absurd rfl hp
  | tail => exact absurd rfl hp

theorem Akin.word {p : Char} {s s' : List Char} (h : Akin p s s') :
    s'.takeWhile (!Text.isBlank ·) = s.takeWhile (!Text.isBlank ·)
      ∧ ∃ q, Akin q (s.dropWhile (!Text.isBlank ·)) (s'.dropWhile (!Text.isBlank ·)) := by
  induction h with
  | nil p => exact ⟨rfl, p, .nil p⟩
  | cons p c h ih =>
      simp only [List.takeWhile_cons, List.dropWhile_cons]
      cases hc : Text.isBlank c with
      | true => exact ⟨rfl, p, .cons p c h⟩
      | false => exact ⟨congrArg (c :: ·) ih.1, ih.2⟩
  | last hc hc' hu hu' =>
      simp only [List.takeWhile_cons, List.dropWhile_cons, hc, hc']
      exact ⟨rfl, _, .last hc hc' hu hu'⟩
  | tail hc hc' hu hu' h =>
      simp only [List.takeWhile_cons, List.dropWhile_cons, hc, hc']
      exact ⟨rfl, _, .tail hc hc' hu hu' h⟩

theorem Akin.firstWord? {p : Char} {s s' : List Char} (h : Akin p s s') :
    (Text.firstWord? s = none ∧ Text.firstWord? s' = none)
      ∨ ∃ word rest rest' q, Text.firstWord? s = some (word, rest)
        ∧ Text.firstWord? s' = some (word, rest') ∧ Akin q rest rest' := by
  obtain ⟨htake, q, hrest⟩ := h.word
  rw [Text.firstWord?, Text.firstWord?, htake]
  cases s.takeWhile (!Text.isBlank ·) with
  | nil => exact .inl ⟨rfl, rfl⟩
  | cons c word => exact .inr ⟨_, _, _, q, rfl, rfl, hrest⟩

theorem Akin.afterMark? {m : List Char} (hm : '>' ∉ m) {p : Char} (hp : p ≠ '>')
    {s s' : List Char} (h : Akin p s s') :
    (Outline.afterMark? m s = none ∧ Outline.afterMark? m s' = none)
      ∨ ∃ rest rest' q, Outline.afterMark? m s = some rest ∧ Outline.afterMark? m s' = some rest'
        ∧ q ≠ '>' ∧ Akin q rest rest' := by
  induction m generalizing p s s' with
  | nil => exact .inr ⟨s, s', p, rfl, rfl, hp, h⟩
  | cons a m ih =>
      cases h with
      | nil => exact .inl ⟨rfl, rfl⟩
      | cons p c h =>
          rw [Outline.afterMark?, Outline.afterMark?]
          by_cases hac : a = c
          · rw [if_pos hac, if_pos hac]
            refine ih (fun hmem => hm (List.mem_cons_of_mem a hmem)) (fun heq => hm ?_) h
            rw [hac, heq]
            exact List.mem_cons_self
          · rw [if_neg hac, if_neg hac]
            exact .inl ⟨rfl, rfl⟩
      | last => exact absurd rfl hp
      | tail => exact absurd rfl hp

theorem Akin.startWord? {s s' : List Char} (h : Akin '\n' s s') :
    (Outline.startWord? s = none ∧ Outline.startWord? s' = none)
      ∨ ∃ word rest rest' q, Outline.startWord? s = some (word, rest)
        ∧ Outline.startWord? s' = some (word, rest') ∧ Akin q rest rest' := by
  rcases h.afterMark? (m := startMark) (by decide) (by decide) with ⟨hs, hs'⟩ | ⟨r, r', q, hs, hs', hq, hr⟩
  · exact .inl ⟨by rw [Outline.startWord?, hs]; rfl, by rw [Outline.startWord?, hs']; rfl⟩
  · obtain ⟨q', -, hdrop⟩ := hr.dropWhile hq
    rw [Outline.startWord?, Outline.startWord?, hs, hs']
    exact hdrop.firstWord?

/-! ## All start words -/

theorem startWords_false_cons (c : Char) (s : List Char) :
    startWords false (c :: s) = startWords (c == '\n') s := by
  rw [startWords]
  rfl

theorem startWords_of_none {c : Char} {s : List Char} (h : startWord? (c :: s) = none)
    (fresh : Bool) : startWords fresh (c :: s) = startWords (c == '\n') s := by
  cases fresh with
  | false => exact startWords_false_cons c s
  | true =>
      rw [startWords]
      split
      · next heq => rw [if_pos rfl, h] at heq; cases heq
      · rfl

theorem startWords_of_some {c : Char} {s word after : List Char}
    (h : startWord? (c :: s) = some (word, after)) :
    startWords true (c :: s) = word :: startWords false after := by
  rw [startWords]
  split
  · next heq =>
      rw [if_pos rfl, h] at heq
      cases heq
      rfl
  · next heq => rw [if_pos rfl, h] at heq; cases heq

/-- The rest of a line holds no start mark. -/
theorem startWords_skip {line : List Char} (h : '\n' ∉ line) (s : List Char) :
    startWords false (line ++ s) = startWords false s := by
  induction line with
  | nil => rfl
  | cons c line ih =>
      have hc : (c == '\n') = false :=
        beq_eq_false_iff_ne.mpr fun heq => h (heq ▸ List.mem_cons_self)
      rw [List.cons_append, startWords_false_cons, hc, ih fun hmem => h (List.mem_cons_of_mem c hmem)]

theorem startWords_line {line : List Char} (h : '\n' ∉ line) : startWords false line = [] := by
  rw [← List.append_nil line, startWords_skip h, startWords]

theorem startWords_line_append {line : List Char} (h : '\n' ∉ line) (s : List Char) :
    startWords false (line ++ '\n' :: s) = startWords true s := by
  rw [startWords_skip h, startWords_false_cons]
  rfl

/-- Texts that differ behind the markers of task lines have the same start words. The induction is
on the length of the text, as a word can lead across lines. -/
theorem startWords_akin {p : Char} {s s' : List Char} (h : Akin p s s') {fresh : Bool}
    (hfresh : fresh = true → p = '\n') : startWords fresh s = startWords fresh s' := by
  generalize hn : s.length = n
  induction n using Nat.strongRecOn generalizing p s s' fresh with
  | ind n ih =>
    cases h with
    | nil => rfl
    | @cons _ c s s' h =>
        have hnext : startWords (c == '\n') s = startWords (c == '\n') s' :=
          ih s.length (by rw [← hn]; exact Nat.lt_succ_self _) h beq_iff_eq.mp rfl
        cases fresh with
        | false => rw [startWords_false_cons, startWords_false_cons, hnext]
        | true =>
            obtain rfl := hfresh rfl
            rcases (Akin.cons '\n' c h).startWord? with ⟨hs, hs'⟩ | ⟨word, r, r', q, hs, hs', hr⟩
            · rw [startWords_of_none hs, startWords_of_none hs', hnext]
            · rw [startWords_of_some hs, startWords_of_some hs',
                ih r.length (hn ▸ length_startWord?_lt hs) hr (fun hf => by cases hf) rfl]
    | last hc hc' hu hu' =>
        cases fresh with
        | false => rw [startWords_line hu, startWords_line hu']
        | true => exact absurd (hfresh rfl) (by decide)
    | @tail c c' u u' s s' hc hc' hu hu' h =>
        cases fresh with
        | false =>
            rw [← List.cons_append, ← List.cons_append, startWords_line_append hu,
              startWords_line_append hu']
            refine ih s.length ?_ h (fun _ => rfl) rfl
            rw [← hn, List.length_cons, List.length_append, List.length_cons]
            omega
        | true => exact absurd (hfresh rfl) (by decide)

/-! ## One line -/

theorem Akin.markers {n : Nat} (hn : 1 ≤ n) {s s' : List Char} (h : Akin '>' s s') (p : Char) :
    Akin p (List.replicate n '>' ++ s) (List.replicate n '>' ++ s') := by
  induction n generalizing p with
  | zero => omega
  | succ n ih =>
      rw [List.replicate_succ, List.cons_append, List.cons_append]
      refine .cons p '>' ?_
      cases n with
      | zero => exact h
      | succ n => exact ih (Nat.succ_pos n) '>'

/-- The line opens with this many markers and a blank. -/
def Marked (n : Nat) (line : List Char) : Prop :=
  1 ≤ n ∧ '\n' ∉ line ∧ ∃ c u, line = List.replicate n '>' ++ c :: u ∧ Text.isBlank c

theorem unlines_cons_of_ne_nil {line : Text.Line} {lines : List Text.Line} (h : lines ≠ []) :
    Text.unlines (line :: lines) = line ++ '\n' :: Text.unlines lines := by
  cases lines with
  | nil => exact absurd rfl h
  | cons l ls => rfl

/-- Replacing a line by one with as many markers keeps the texts akin. -/
theorem akin_set {lines : List Text.Line} {i n : Nat} {line line' : Text.Line}
    (hi : lines[i]? = some line) (hline : Marked n line) (hline' : Marked n line') (p : Char) :
    Akin p (Text.unlines lines) (Text.unlines (lines.set i line')) := by
  induction lines generalizing i p with
  | nil => cases hi
  | cons l ls ih =>
      cases i with
      | succ i =>
          have hne : ls ≠ [] := by
            rintro rfl
            cases hi
          have hset : ls.set i line' ≠ [] := by rwa [Ne, List.set_eq_nil_iff]
          rw [List.set_cons_succ, unlines_cons_of_ne_nil hne, unlines_cons_of_ne_nil hset]
          exact (ih hi '\n').line p l
      | zero =>
          obtain rfl := Option.some.inj hi
          obtain ⟨hn, hl, c, u, rfl, hc⟩ := hline
          obtain ⟨-, hl', c', u', rfl, hc'⟩ := hline'
          have hu : '\n' ∉ c :: u := fun h => hl (List.mem_append_right _ h)
          have hu' : '\n' ∉ c' :: u' := fun h => hl' (List.mem_append_right _ h)
          rw [List.set_cons_zero]
          by_cases hls : ls = []
          · subst hls
            exact (Akin.last hc hc' hu hu').markers hn p
          · rw [unlines_cons_of_ne_nil hls, unlines_cons_of_ne_nil hls, List.append_assoc,
              List.append_assoc]
            exact (Akin.tail hc hc' hu hu' (.refl '\n' _)).markers hn p

end Roadmap.Outline
