import Roadmap.Outline.Edit
import Roadmap.Proofs.Outline.Frame
import Roadmap.Proofs.Outline.StartLines

/-!
# Written headers are read back

A header is written as `icon name` or `icon name @note:value`, and what separates the parts is one
blank each. Reading takes them apart from the back: the search for a note passes over a text that
has none, up to the note that was written (`takeNote_append`), and an emoji ends before a blank,
whatever follows (`leadingEmoji?_append`). So names may begin with an emoji or hold an `@`, and an
emoji may be of several characters.

A new header in the place of another changes nothing else of the outline. Also the start day stays,
as no header names one, and a start line further up that looks for its word finds the marks of
either header (`namedBy_set`).
-/

namespace Roadmap.Outline

/-! ## Blanks around a text -/

theorem endsPlain_of_strip {s : List Char} (h : Text.strip s = s) : EndsPlain s := by
  intro c hc
  rw [Text.strip, Text.dropWhile_of_head (head_of_strip h), Text.stripEnd, Text.dropTrailing] at h
  have hdrop : s.reverse.dropWhile Text.isBlank = s.reverse := by
    rw [← h, List.reverse_reverse, List.dropWhile_idempotent]
  have hfirst := List.head?_dropWhile_not Text.isBlank s.reverse
  rw [hdrop, List.head?_reverse, hc] at hfirst
  simpa using hfirst

theorem strip_of_ends {s : List Char} (hhead : ∀ c ∈ s.head?, Text.isBlank c = false)
    (hend : EndsPlain s) : Text.strip s = s := by
  rw [Text.strip, Text.dropWhile_of_head hhead, Text.stripEnd, Text.dropTrailing_of_last hend]

/-! ## Emojis -/

/-- Emojis are made of such characters. -/
def isEmojiPart (c : Char) : Bool := isPictograph c || isEmojiModifier c || isJoiner c

theorem not_isEmojiPart_of_isBlank {c : Char} (h : Text.isBlank c) : isEmojiPart c = false := by
  have hother := Text.of_isBlank (p := (!isEmojiPart ·)) (by decide +kernel) h
  rwa [Bool.not_eq_true'] at hother

theorem isBlank_of_isEmojiPart {c : Char} (h : isEmojiPart c) : Text.isBlank c = false := by
  refine Bool.eq_false_iff.mpr fun hblank => ?_
  rw [not_isEmojiPart_of_isBlank hblank] at h
  cases h

theorem mem_emojiTail {s : List Char} {c : Char} (h : c ∈ emojiTail s) : isEmojiPart c := by
  fun_induction emojiTail s with
  | case1 => cases h
  | case2 d hd =>
      obtain rfl := List.mem_singleton.mp h
      simp [isEmojiPart, hd]
  | case3 => cases h
  | case4 d e rest hd ih =>
      rcases List.mem_cons.mp h with rfl | h
      · simp [isEmojiPart, hd]
      · exact ih h
  | case5 d e rest hd hjoined ih =>
      rw [Bool.and_eq_true] at hjoined
      rcases List.mem_cons.mp h with rfl | h
      · simp [isEmojiPart, hjoined.1]
      rcases List.mem_cons.mp h with rfl | h
      · simp [isEmojiPart, hjoined.2]
      · exact ih h
  | case6 => cases h

/-- What belongs to an emoji behind its first character: the second half of a flag, or a tail. -/
def emojiRest (c : Char) (rest : List Char) : List Char :=
  if isRegionalIndicator c then (rest.take 1).filter isRegionalIndicator else emojiTail rest

theorem leadingEmoji?_cons (c : Char) (rest : List Char) :
    leadingEmoji? (c :: rest) = if isPictograph c then some (c :: emojiRest c rest) else none := by
  simp only [leadingEmoji?, emojiRest]
  cases isPictograph c with
  | false => rfl
  | true =>
      cases isRegionalIndicator c with
      | false => rfl
      | true =>
          cases rest with
          | nil => rfl
          | cons d rest => cases hd : isRegionalIndicator d <;> simp [hd]

theorem leadingEmoji?_eq_some {s e : List Char} : leadingEmoji? s = some e
    ↔ ∃ c rest, s = c :: rest ∧ isPictograph c ∧ e = c :: emojiRest c rest := by
  cases s with
  | nil => simp [leadingEmoji?]
  | cons c rest =>
      rw [leadingEmoji?_cons]
      constructor
      · intro h
        split at h
        · next hc =>
            cases h
            exact ⟨c, rest, rfl, hc, rfl⟩
        · cases h
      · rintro ⟨_, _, ⟨⟩, hc, rfl⟩
        rw [if_pos hc]

theorem mem_leadingEmoji? {s e : List Char} (h : leadingEmoji? s = some e) :
    e ≠ [] ∧ ∀ c ∈ e, isEmojiPart c := by
  obtain ⟨c, rest, rfl, hc, rfl⟩ := leadingEmoji?_eq_some.mp h
  refine ⟨List.cons_ne_nil _ _, fun x hx => ?_⟩
  rcases List.mem_cons.mp hx with rfl | hx
  · simp [isEmojiPart, hc]
  · rw [emojiRest] at hx
    split at hx
    · simp [isEmojiPart, isPictograph, (List.mem_filter.mp hx).2]
    · exact mem_emojiTail hx

section

variable {rest : List Char} (hrest : ∀ c ∈ rest.head?, isEmojiPart c = false)

include hrest

theorem emojiTail_of_head : emojiTail rest = [] := by
  unfold emojiTail
  split
  · rfl
  · next c =>
      have hc := hrest c rfl
      rw [isEmojiPart, Bool.or_eq_false_iff, Bool.or_eq_false_iff] at hc
      rw [hc.1.2]
      rfl
  · next c d rest' =>
      have hc := hrest c rfl
      rw [isEmojiPart, Bool.or_eq_false_iff, Bool.or_eq_false_iff] at hc
      rw [hc.1.2, hc.2]
      rfl

theorem emojiTail_append {t : List Char} (h : emojiTail t = t) : emojiTail (t ++ rest) = t := by
  fun_induction emojiTail t with
  | case1 => exact emojiTail_of_head hrest
  | case2 c hc =>
      have hnil := emojiTail_of_head hrest
      cases rest with
      | nil => rw [List.append_nil, emojiTail, if_pos hc]
      | cons d rest => rw [List.singleton_append, emojiTail, if_pos hc, hnil]
  | case3 => cases h
  | case4 c d t hc ih =>
      rw [List.cons_append, List.cons_append, emojiTail, if_pos hc, ← List.cons_append,
        ih (List.cons.inj h).2]
  | case5 c d t hc hjoined ih =>
      rw [List.cons_append, List.cons_append, emojiTail, if_neg hc, if_pos hjoined,
        ih (List.cons.inj (List.cons.inj h).2).2]
  | case6 => cases h

theorem emojiRest_append {c : Char} {t : List Char} (h : emojiRest c t = t) :
    emojiRest c (t ++ rest) = t := by
  rw [emojiRest] at h ⊢
  split
  · next hflag =>
      rw [if_pos hflag] at h
      cases t with
      | cons d t =>
          rw [List.take_succ_cons, List.take_zero] at h
          rw [List.cons_append, List.take_succ_cons, List.take_zero, h]
      | nil =>
          cases rest with
          | nil => rfl
          | cons d rest =>
              have hd := hrest d rfl
              simp only [isEmojiPart, isPictograph, Bool.or_eq_false_iff] at hd
              exact List.filter_cons_of_neg (by simp [hd.1.1.1.1])
  · next hflag =>
      rw [if_neg hflag] at h
      exact emojiTail_append hrest h

/-- An emoji ends where no further character belongs to it. -/
theorem leadingEmoji?_append {e : List Char} (h : leadingEmoji? e = some e) :
    leadingEmoji? (e ++ rest) = some e := by
  obtain ⟨c, t, rfl, hc, heq⟩ := leadingEmoji?_eq_some.mp h
  rw [List.cons_append, leadingEmoji?_cons, if_pos hc,
    emojiRest_append hrest (List.cons.inj heq).2.symm]

end

theorem splitIcon_written {icon name : List Char} (hicon : leadingEmoji? icon = some icon)
    (hne : name ≠ []) (hstrip : Text.strip name = name) :
    splitIcon (icon ++ ' ' :: name) = (String.ofList icon, name) := by
  have hlead : leadingEmoji? (icon ++ ' ' :: name) = some icon :=
    leadingEmoji?_append (by rintro c ⟨⟩; decide) hicon
  have hname : Text.strip (' ' :: name) = name := hstrip
  obtain ⟨a, as, rfl⟩ := List.exists_cons_of_ne_nil hne
  rw [splitIcon, hlead]
  simp only [List.drop_left, hname]

/-! ## Notes -/

def noteMark : List Char := "@note:".toList

/-- Each mark of a note in the text is followed by a blank, unless nothing follows it. -/
def Unmarked (s : List Char) : Prop :=
  ∀ (before : List Char) (c : Char) (after : List Char),
    s = before ++ (noteMark ++ c :: after) → Text.isBlank c

/-- It is enough to look at the text from each of its characters on. -/
theorem unmarked_iff {s : List Char} : Unmarked s
    ↔ s.tails.all fun t => ((afterMark? noteMark t).bind List.head?).all Text.isBlank := by
  rw [List.all_eq_true]
  constructor
  · intro h t ht
    obtain ⟨before, rfl⟩ := (List.mem_tails _ _).mp ht
    rw [Option.all_eq_true]
    intro c hc
    obtain ⟨after, hafter, hhead⟩ := Option.bind_eq_some_iff.mp hc
    obtain ⟨rest, rfl⟩ := List.head?_eq_some_iff.mp hhead
    exact h before c rest (congrArg (before ++ ·) (afterMark?_eq_some.mp hafter))
  · rintro h before c after rfl
    have hmark : afterMark? noteMark (noteMark ++ c :: after) = some (c :: after) :=
      afterMark?_eq_some.mpr rfl
    have hall := h _ ((List.mem_tails _ _).mpr (List.suffix_append before _))
    rwa [hmark] at hall

instance (s : List Char) : Decidable (Unmarked s) := decidable_of_iff _ unmarked_iff.symm

theorem Unmarked.tail {c : Char} {s : List Char} (h : Unmarked (c :: s)) : Unmarked s :=
  fun before d after heq => h (c :: before) d after (congrArg (c :: ·) heq)

theorem Unmarked.append {s u : List Char} (hs : ∀ c ∈ s, c ≠ '@') (hu : Unmarked u) :
    Unmarked (s ++ u) := by
  induction s with
  | nil => exact hu
  | cons a s ih =>
      intro before c after heq
      cases before with
      | nil => exact absurd (List.cons.inj heq).1 (hs a List.mem_cons_self)
      | cons b before =>
          exact ih (fun x hx => hs x (List.mem_cons_of_mem a hx)) before c after
            (List.cons.inj heq).2

theorem noteValue?_eq_none {s : List Char} (h : ∀ c ∈ s.head?, Text.isBlank c) :
    noteValue? s = none := by
  have hquote : quotedValue? s = none :=
    quotedValue?_eq_none fun hc => absurd (h _ hc) (by decide)
  rw [noteValue?, hquote, Option.none_or, Text.firstWord?]
  cases s with
  | nil => rfl
  | cons c s => rw [List.takeWhile_cons_of_neg (by simp [h c rfl])]

theorem noteValue?_renderValue {v : List Char} (hne : v ≠ []) (hquote : '"' ∉ v) :
    noteValue? (renderValue v) = some (v, []) := by
  rw [noteValue?, renderValue]
  split
  · rw [quotedValue?_quoted hne hquote]
    rfl
  · next hplain =>
      rw [Bool.or_eq_true, not_or, List.any_eq_true] at hplain
      obtain ⟨a, as, rfl⟩ := List.exists_cons_of_ne_nil hne
      have hword : ∀ c ∈ a :: as, (!Text.isBlank c) = true := by
        intro c hc
        rw [Bool.not_eq_true', Bool.eq_false_iff]
        exact fun hblank => hplain.1 ⟨c, hc, hblank⟩
      have hhead : (a :: as).head? ≠ some '"' :=
        fun heq => hquote (Option.some.inj heq ▸ List.mem_cons_self)
      rw [quotedValue?_eq_none hhead, Option.none_or, Text.firstWord?,
        List.takeWhile_eq_self_iff.mpr hword, List.dropWhile_eq_nil_iff.mpr hword]

theorem takeNote_of_none {c : Char} {s : List Char}
    (h : (afterMark? noteMark (c :: s)).bind noteValue? = none) :
    takeNote (c :: s) = ((takeNote s).1, c :: (takeNote s).2) := by
  have hmark : (afterMark? "@note:".toList (c :: s)).bind noteValue? = none := h
  rw [takeNote, hmark]

theorem takeNote_of_note {s v after : List Char} (h : noteValue? s = some (v, after)) :
    takeNote (noteMark ++ s) = (some v, after) := by
  have hmark : afterMark? "@note:".toList ('@' :: ("note:".toList ++ s)) = some s :=
    afterMark?_eq_some.mpr rfl
  show takeNote ('@' :: ("note:".toList ++ s)) = _
  rw [takeNote, hmark, Option.bind_some, h]

/-- The search for a note passes over a text without one, if a blank ends it. -/
theorem takeNote_append {s rest : List Char} (h : Unmarked s)
    (hrest : ∀ c ∈ rest.head?, Text.isBlank c) :
    takeNote (s ++ rest) = ((takeNote rest).1, s ++ (takeNote rest).2) := by
  have hmark : ∀ c ∈ rest.head?, c ∉ noteMark := by
    intro c hc hmem
    have hword := List.all_eq_true.mp (by decide : noteMark.all (!Text.isBlank ·)) c hmem
    rw [hrest c hc] at hword
    cases hword
  induction s with
  | nil => rfl
  | cons a s ih =>
      have hnone : (afterMark? noteMark (a :: (s ++ rest))).bind noteValue? = none := by
        rw [← List.cons_append, afterMark?_append hmark]
        cases hafter : afterMark? noteMark (a :: s) with
        | none => rfl
        | some after =>
            have hsplit : a :: s = noteMark ++ after := afterMark?_eq_some.mp hafter
            refine noteValue?_eq_none fun c hc => ?_
            cases after with
            | nil => exact hrest c hc
            | cons d after =>
                obtain rfl := Option.some.inj hc
                exact h [] d after hsplit
      show takeNote (a :: (s ++ rest)) = _
      rw [takeNote_of_none hnone, ih h.tail]
      rfl

theorem takeNote_of_unmarked {s : List Char} (h : Unmarked s) : takeNote s = (none, s) := by
  have hend : takeNote (s ++ []) = ((takeNote []).1, s ++ (takeNote []).2) :=
    takeNote_append h (by rintro c ⟨⟩)
  rwa [List.append_nil, takeNote, List.append_nil] at hend

theorem takeNote_written {s v : List Char} (hs : Unmarked s) (hne : v ≠ []) (hquote : '"' ∉ v) :
    takeNote (s ++ ' ' :: (noteMark ++ renderValue v)) = (some v, s ++ [' ']) := by
  have hblank : takeNote (' ' :: (noteMark ++ renderValue v)) = (some v, [' ']) := by
    rw [takeNote_of_none rfl, takeNote_of_note (noteValue?_renderValue hne hquote)]
  rw [takeNote_append hs (by rintro c ⟨⟩; rfl), hblank]

/-! ## Headers -/

theorem headerText?_of_body {body : List Char} (hne : body ≠ []) (hstrip : Text.strip body = body)
    (hline : '\n' ∉ body) : headerText? ('#' :: '#' :: ' ' :: body) = some body := by
  have hdrop : dropFinalBreak (' ' :: body) = ' ' :: body :=
    dropFinalBreak_of_line (by simpa using hline)
  have hblank : ∀ c ∈ [' '], Text.isBlank c := fun c hc => List.mem_singleton.mp hc ▸ rfl
  have hgap : (' ' :: body).takeWhile Text.isBlank = [' '] :=
    Text.takeWhile_append_stop hblank (head_of_strip hstrip)
  have hbody : (' ' :: body).dropWhile Text.isBlank = body :=
    Text.dropWhile_append_stop hblank (head_of_strip hstrip)
  have hempty : body.isEmpty = false := by simpa using hne
  have hnone : body.contains '\n' = false := by rwa [← Bool.not_eq_true, List.contains_iff_mem]
  rw [headerText?]
  simp only [hdrop, hgap, hbody, hempty, hnone, hstrip, List.isEmpty_cons, Bool.or_self,
    Bool.false_eq_true, if_false]

/-- A header opens with its marks and a blank. -/
theorem marks_of_isHeader {line : Text.Line} (h : isHeader line) :
    ∃ c rest, line = '#' :: '#' :: c :: rest ∧ Text.isBlank c := by
  obtain ⟨text, htext⟩ := Option.isSome_iff_exists.mp h
  unfold headerText? at htext
  split at htext
  · next rest =>
      have hgap : (dropFinalBreak rest).takeWhile Text.isBlank ≠ [] := by
        intro hnil
        simp only [hnil] at htext
        split at htext
        · cases htext
        · cases htext
      obtain ⟨c, gap, hgap⟩ := List.exists_cons_of_ne_nil hgap
      have hprefix : (dropFinalBreak rest).takeWhile Text.isBlank <+: rest := by
        refine (List.takeWhile_prefix _).trans ?_
        rw [dropFinalBreak]
        split
        · exact List.dropLast_prefix rest
        · exact List.prefix_rfl
      obtain ⟨tail, rfl⟩ := hgap ▸ hprefix
      exact ⟨c, gap ++ tail, rfl, List.mem_takeWhile_imp (hgap ▸ List.mem_cons_self)⟩
  · cases htext

/-- The note of a header as it is written. -/
def noteText : Option String → List Char
  | some n => ' ' :: (noteMark ++ renderValue n.toList)
  | none => []

/-- What is written behind the marks of a header. -/
def headerBody (name : String) (icon note : Option String) : List Char :=
  (icon.getD defaultIcon).toList ++ ' ' :: name.toList ++ noteText note

theorem endsPlain_noteText (note : Option String) : EndsPlain (noteText note) := by
  cases note with
  | none => rintro c ⟨⟩
  | some n =>
      have hmark : EndsPlain (' ' :: noteMark) := by
        rintro c ⟨⟩
        rfl
      exact hmark.append (endsPlain_renderValue n.toList)

theorem newline_not_mem_noteText {note : Option String} (h : ∀ n ∈ note, '\n' ∉ n.toList) :
    '\n' ∉ noteText note := by
  cases note with
  | none => exact List.not_mem_nil
  | some n =>
      rw [noteText, List.mem_cons, List.mem_append]
      rintro (hc | hc | hc)
      · exact absurd hc (by decide)
      · exact absurd hc (by decide)
      · exact newline_not_mem_renderValue (h n rfl) hc

/-- What a header can be given so that it is read back. -/
structure Nameable (name : String) (icon note : Option String) : Prop where
  named : name ≠ ""
  stripped : Text.strip name.toList = name.toList
  oneLine : '\n' ∉ name.toList
  unmarked : Unmarked name.toList
  icon : ∀ i ∈ icon, leadingEmoji? i.toList = some i.toList
  note : ∀ n ∈ note, IsNote n

namespace Nameable

variable {name : String} {icon note : Option String} (h : Nameable name icon note)

include h

theorem name_ne_nil : name.toList ≠ [] := fun hnil => h.named (String.toList_eq_nil_iff.mp hnil)

theorem leads :
    leadingEmoji? (icon.getD defaultIcon).toList = some (icon.getD defaultIcon).toList := by
  cases icon with
  | none => decide
  | some i => exact h.icon i rfl

theorem plain_icon : ∀ c ∈ (icon.getD defaultIcon).toList, Text.isBlank c = false ∧ c ≠ '@' := by
  intro c hc
  have hpart := (mem_leadingEmoji? h.leads).2 c hc
  refine ⟨isBlank_of_isEmojiPart hpart, ?_⟩
  rintro rfl
  exact absurd hpart (by decide)

/-- Icon and name hold no note. -/
theorem unmarked_head : Unmarked ((icon.getD defaultIcon).toList ++ ' ' :: name.toList) := by
  have hblank : Unmarked (' ' :: name.toList) :=
    .append (s := [' ']) (fun c hc => List.mem_singleton.mp hc ▸ by decide) h.unmarked
  exact .append (fun c hc => (h.plain_icon c hc).2) hblank

theorem renderHeader_eq :
    renderHeader name icon note = '#' :: '#' :: ' ' :: headerBody name icon note := by
  have hicon : ∀ i ∈ icon, i.isEmpty = false := by
    intro i hi
    rw [← Bool.not_eq_true, String.isEmpty_iff]
    rintro rfl
    cases h.icon "" hi
  have hnote : ∀ n ∈ note, n.isEmpty = false := by
    intro n hn
    rw [← Bool.not_eq_true, String.isEmpty_iff]
    exact (h.note n hn).1
  have hmark : " @note:".toList = ' ' :: noteMark := rfl
  cases icon with
  | none =>
      cases note with
      | none => simp [renderHeader, headerBody, noteText]
      | some n => simp [renderHeader, headerBody, noteText, hmark, hnote n rfl]
  | some i =>
      cases note with
      | none => simp [renderHeader, headerBody, noteText, hicon i rfl]
      | some n => simp [renderHeader, headerBody, noteText, hmark, hicon i rfl, hnote n rfl]

theorem exists_icon_cons :
    ∃ c rest, (icon.getD defaultIcon).toList = c :: rest ∧ Text.isBlank c = false := by
  obtain ⟨c, rest, hicon⟩ := List.exists_cons_of_ne_nil (mem_leadingEmoji? h.leads).1
  exact ⟨c, rest, hicon, (h.plain_icon c (hicon ▸ List.mem_cons_self)).1⟩

theorem endsPlain_head : EndsPlain ((icon.getD defaultIcon).toList ++ ' ' :: name.toList) := by
  rw [EndsPlain, List.getLast?_append_of_ne_nil _ (List.cons_ne_nil _ _),
    List.getLast?_cons_of_ne_nil h.name_ne_nil]
  exact endsPlain_of_strip h.stripped

/-- Nothing behind the icon makes a difference to the blanks in front. -/
theorem strip_icon_append {s : List Char} (hs : EndsPlain ((icon.getD defaultIcon).toList ++ s)) :
    Text.strip ((icon.getD defaultIcon).toList ++ s) = (icon.getD defaultIcon).toList ++ s := by
  obtain ⟨c, rest, hicon, hc⟩ := h.exists_icon_cons
  refine strip_of_ends ?_ hs
  rw [hicon]
  rintro x ⟨⟩
  exact hc

theorem newline_not_mem_body : '\n' ∉ headerBody name icon note := by
  rw [headerBody, List.mem_append, List.mem_append, List.mem_cons]
  rintro ((hc | hc | hc) | hc)
  · exact absurd (h.plain_icon _ hc).1 (by decide)
  · exact absurd hc (by decide)
  · exact h.oneLine hc
  · exact newline_not_mem_noteText (fun n hn => (h.note n hn).2.2) hc

theorem newline_not_mem_renderHeader : '\n' ∉ renderHeader name icon note := by
  rw [h.renderHeader_eq]
  simpa using h.newline_not_mem_body

omit h in
theorem body_ne_nil : headerBody name icon note ≠ [] := by simp [headerBody]

theorem endsPlain_body : EndsPlain (headerBody name icon note) :=
  h.endsPlain_head.append (endsPlain_noteText note)

theorem headerText?_renderHeader :
    headerText? (renderHeader name icon note) = some (headerBody name icon note) := by
  have hstrip : Text.strip (headerBody name icon note) = headerBody name icon note := by
    have hend := h.endsPlain_body
    rw [headerBody, List.append_assoc] at hend ⊢
    exact h.strip_icon_append hend
  rw [h.renderHeader_eq]
  exact headerText?_of_body body_ne_nil hstrip h.newline_not_mem_body

theorem dropTrailing_renderHeader :
    Text.dropTrailing (· == '\r') (renderHeader name icon note) = renderHeader name icon note := by
  have hlast : (renderHeader name icon note).getLast? = (headerBody name icon note).getLast? := by
    rw [h.renderHeader_eq]
    exact List.getLast?_append_of_ne_nil ['#', '#', ' '] body_ne_nil
  refine Text.dropTrailing_of_last fun c hc => beq_eq_false_iff_ne.mpr ?_
  rintro rfl
  exact absurd (h.endsPlain_body _ (hlast ▸ hc)) (by decide)

theorem takeNote_body : ∃ header, takeNote (headerBody name icon note)
      = (note.map String.toList, header)
    ∧ (if note.isSome then Text.strip header else header)
      = (icon.getD defaultIcon).toList ++ ' ' :: name.toList := by
  cases note with
  | none =>
      refine ⟨_, ?_, rfl⟩
      rw [headerBody, noteText, List.append_nil]
      exact takeNote_of_unmarked h.unmarked_head
  | some n =>
      obtain ⟨hne, hquote, -⟩ := h.note n rfl
      have hvalue : n.toList ≠ [] := fun hnil => hne (String.toList_eq_nil_iff.mp hnil)
      exact ⟨_, takeNote_written h.unmarked_head hvalue hquote,
        strip_concat (by simp) (h.strip_icon_append h.endsPlain_head)⟩

/-- A written header gives back what it was written from. -/
theorem readHeader?_renderHeader (number : Int) : readHeader? (renderHeader name icon note) number
    = some { name := name, icon := icon.getD defaultIcon, note := note, line := number } := by
  obtain ⟨header, htake, hheader⟩ := h.takeNote_body
  have hsome : (note.map String.toList).isSome = note.isSome := Option.isSome_map
  have hnote : (note.map String.toList).map String.ofList = note := by
    cases note with
    | none => rfl
    | some n => exact congrArg some String.ofList_toList
  rw [readHeader?, h.dropTrailing_renderHeader, h.headerText?_renderHeader, Option.map_some, htake]
  simp only [hsome, hheader, hnote, splitIcon_written h.leads h.name_ne_nil h.stripped,
    String.ofList_toList]

end Nameable

/-! ## A header in the place of another -/

/-- Start lines and headers open differently, and a word that is looked for here is the marks. -/
theorem words_of_isHeader {line : Text.Line} (h : isHeader line) :
    afterMark? startMark line = none ∧ (Text.words line).head? = some ['#', '#'] := by
  obtain ⟨c, rest, rfl, hc⟩ := marks_of_isHeader h
  refine ⟨rfl, ?_⟩
  have hmark : Text.isBlank '#' = false := by decide
  rw [Text.head?_words, Text.dropWhile_of_head (by rintro x ⟨⟩; exact hmark),
    Text.firstWord?_cons hmark, List.takeWhile_cons_of_pos (by simp [hmark]),
    List.takeWhile_cons_of_neg (by simp [hc])]
  rfl

theorem namedBy_set {lines : List Text.Line} {i : Nat} {line line' : Text.Line}
    (hi : lines[i]? = some line) (h : isHeader line) (h' : isHeader line') (owing : Bool) :
    namedBy owing (lines.set i line') = namedBy owing lines := by
  induction lines generalizing i owing with
  | nil => rfl
  | cons l lines ih =>
      cases i with
      | zero =>
          obtain rfl := Option.some.inj hi
          obtain ⟨hstart, hword⟩ := words_of_isHeader h
          obtain ⟨hstart', hword'⟩ := words_of_isHeader h'
          rw [List.set_cons_zero, namedBy, namedBy, hstart, hstart']
          cases owing with
          | false => rfl
          | true => simp only [if_true, hword, hword']
      | succ i =>
          rw [List.set_cons_succ, namedBy, namedBy]
          simp only [ih hi]

/-- The start of an outline does not depend on what its headers say. -/
theorem startDay_set {text : List Char} {i : Nat} {line line' : Text.Line}
    (hi : (Text.linesOf text)[i]? = some line) (h : isHeader line) (h' : isHeader line')
    (hline : '\n' ∉ line') (today : Date) :
    startDay (Text.unlines ((Text.linesOf text).set i line')) today = startDay text today := by
  rw [(startDay_by_lines _ today).1, (startDay_by_lines text today).1, linesOf_set text i hline,
    namedBy_set hi h h']

theorem gather_set {ss : List Statement} {k : Nat} {p : Project}
    (hk : (gather ss).2[k]? = some p) : ∃ (i : Nat) (q : Project), ss[i]? = some (.header q)
      ∧ p = { q with tasks := p.tasks }
      ∧ ∀ q', gather (ss.set i (.header q'))
        = ((gather ss).1, (gather ss).2.set k { q' with tasks := p.tasks }) := by
  induction ss generalizing k with
  | nil => cases hk
  | cons s ss ih =>
      cases s with
      | header q =>
          cases k with
          | zero =>
              obtain rfl := Option.some.inj hk
              exact ⟨0, q, rfl, rfl, fun q' => rfl⟩
          | succ k =>
              obtain ⟨i, q₀, hi, hp, hset⟩ := ih (k := k) hk
              refine ⟨i + 1, q₀, hi, hp, fun q' => ?_⟩
              rw [List.set_cons_succ, gather_header, gather_header, hset, List.set_cons_succ]
      | task t =>
          obtain ⟨i, q₀, hi, hp, hset⟩ := ih hk
          refine ⟨i + 1, q₀, hi, hp, fun q' => ?_⟩
          rw [List.set_cons_succ, gather_task, gather_task, hset]
      | silent =>
          obtain ⟨i, q₀, hi, hp, hset⟩ := ih hk
          refine ⟨i + 1, q₀, hi, hp, fun q' => ?_⟩
          rw [List.set_cons_succ, gather_silent, gather_silent, hset]

/-- The project under another header. -/
def Project.headed (p : Project) (name : String) (icon note : Option String) : Project :=
  { p with name := name, icon := icon.getD defaultIcon, note := note }

/-- A header that is replaced by one that can be read back changes what the outline says about its
project and nothing else. -/
theorem read_replaceHeader {text : String} {today : Date} {o : Outline}
    (hunix : '\r' ∉ text.toList) (h : read text today = .ok o) {k : Nat} {p : Project}
    (hp : o.projects[k]? = some p) {name : String} {icon note : Option String}
    (hname : Nameable name icon note) :
    read ((Edit.replaceHeader p.line name icon note).apply text) today
      = .ok { o with projects := o.projects.set k (p.headed name icon note) } := by
  obtain ⟨ss, hss, h⟩ := bind_eq_ok h
  cases h
  obtain ⟨i, q, hi, hpq, hgather⟩ := gather_set hp
  obtain ⟨line, hline, hread, hset⟩ := readLines_set hss hi
  have hmem := List.mem_of_getElem? hline
  have hheader : isHeader line := by
    have hdrop := readLine_eq_ok hread
    rwa [dropTrailing_of_oneLine (oneLine_of_mem_linesOf hunix hmem)] at hdrop
  have hnumber : p.line = 1 + i := by
    have hq := line_of_header hread
    exact (congrArg Project.line hpq).trans hq
  have hlines : (Edit.replaceHeader p.line name icon note).onLines (Text.linesOf text.toList)
      = (Text.linesOf text.toList).set i (renderHeader name icon note) := by
    have hindex : lineIndex? (Text.linesOf text.toList) p.line = some i :=
      lineIndex?_eq_some.mpr ⟨(List.getElem?_eq_some_iff.mp hline).1, by omega⟩
    rw [Edit.onLines, replaceHeader, modifyLine, hindex]
    show List.modify _ _ _ = _
    rw [List.modify_eq_set_getElem?, hline]
    show (Text.linesOf text.toList).set i (if isHeader line then _ else _) = _
    rw [if_pos hheader]
  have hnew : readLine (renderHeader name icon note) (1 + i) = .ok (.header
      { name := name, icon := icon.getD defaultIcon, note := note, line := 1 + i }) := by
    rw [readLine, hname.readHeader?_renderHeader]
  have hnewline := hname.newline_not_mem_renderHeader
  have hstart := startDay_set hline hheader
    (Option.isSome_iff_exists.mpr ⟨_, hname.headerText?_renderHeader⟩) hnewline today
  rw [Edit.apply, hlines, read, String.toList_ofList, linesOf_set _ _ hnewline, hset _ _ hnew,
    hstart]
  show Except.ok _ = Except.ok _
  rw [hgather, Project.headed, hnumber]

def household : String :=
  "@start:\n## 🏠 House @note:Plans\n> Roof (3)\n##  Garden \n> Pond (2) @after:1\n"

def house : Project where
  name := "House"
  icon := "🏠"
  note := some "Plans"
  line := 2
  tasks := [{ level := 1, title := "Roof", duration := 3, line := 3 }]

def garden : Project where
  name := "Garden"
  line := 4
  tasks := [{ level := 1, title := "Pond", duration := 2, dependencies := [1], line := 5 }]

/-- A name that begins like an icon and holds marks, an icon of three characters and a note that
needs quotes. -/
theorem read_replaceHeader_household :
    read household Date.first = .ok ⟨Date.first, [house, garden]⟩
      ∧ read ((Edit.replaceHeader 4 "🚀 Launch @note: @home" (some "👩‍💻") (some "Road @map")).apply
        household) Date.first = .ok ⟨Date.first,
          [house, garden.headed "🚀 Launch @note: @home" (some "👩‍💻") (some "Road @map")]⟩ := by
  have hread : read household Date.first = .ok ⟨Date.first, [house, garden]⟩ := by decide +kernel
  have hname : Nameable "🚀 Launch @note: @home" (some "👩‍💻") (some "Road @map") :=
    { named := by decide
      stripped := by decide +kernel
      oneLine := by decide
      unmarked := by decide +kernel
      icon := by
        rintro i ⟨⟩
        decide +kernel
      note := by
        rintro n ⟨⟩
        exact ⟨by decide, by decide, by decide⟩ }
  exact ⟨hread, read_replaceHeader (by decide) hread (k := 1) rfl hname⟩

end Roadmap.Outline
