import Roadmap.Proofs.Outline.Modifier

/-!
# Written tasks are read back

A line may offer several places to cut it, one for each number in parentheses that its title holds
and one for the duration. Reading takes the first cut that nothing but modifiers follows. In a
title that is `Unambiguous` no cut is of that kind, so going through the line from its start comes
to the duration (`findSome?_cuts`). The rest of the line is its modifiers as written, and applying
them to a plain task gives each field its value.

Not every task can be written: a row of markers has to fit into memory, and a level that is no
machine word cannot even be tried.
-/

namespace Roadmap.Outline

/-! ## The cut at the duration -/

/-- The cut at the start of a text, if there is a number in parentheses. -/
def cutHere? (seen : List Char) (a : Char) (s : List Char) : Option Cut :=
  if a = '(' then (closedNumber? s).map fun (digits, after) => ⟨seen, digits, after⟩ else none

theorem cutsAfter_cons (seen : List Char) (a : Char) (s : List Char) :
    cutsAfter seen (a :: s) = (cutHere? seen a s).toList ++ cutsAfter (a :: seen) s := by
  rw [cutsAfter, cutHere?]
  split
  · cases closedNumber? s <;> rfl
  · rfl

theorem closedNumber?_eq_some {s ds rest : List Char} :
    closedNumber? s = some (ds, rest)
      ↔ s = ds ++ ')' :: rest ∧ ds ≠ [] ∧ ∀ c ∈ ds, Text.isDigit c := by
  constructor
  · intro h
    unfold closedNumber? at h
    split at h
    · next hds hrest =>
        cases h
        refine ⟨?_, List.cons_ne_nil _ _, fun c hc => ?_⟩
        · rw [← hds, ← hrest, List.takeWhile_append_dropWhile]
        · rw [← hds] at hc
          exact List.mem_takeWhile_imp hc
    · cases h
  · rintro ⟨rfl, hne, hds⟩
    obtain ⟨a, as, rfl⟩ := List.exists_cons_of_ne_nil hne
    have hstop : ∀ c ∈ (')' :: rest).head?, Text.isDigit c = false := by
      rintro c ⟨⟩
      rfl
    rw [closedNumber?, Text.takeWhile_append_stop hds hstop, Text.dropWhile_append_stop hds hstop]
    rfl

theorem cutHere?_eq_some {seen s : List Char} {a : Char} {c : Cut} :
    cutHere? seen a s = some c
      ↔ c.seen = seen ∧ a :: s = '(' :: (c.digits ++ ')' :: c.after)
        ∧ c.digits ≠ [] ∧ ∀ d ∈ c.digits, Text.isDigit d := by
  obtain ⟨before, digits, after⟩ := c
  rw [cutHere?]
  by_cases ha : a = '('
  · subst ha
    rw [if_pos rfl, Option.map_eq_some_iff]
    constructor
    · rintro ⟨⟨ds, rest⟩, h, ⟨⟩⟩
      obtain ⟨heq, hdigits⟩ := closedNumber?_eq_some.mp h
      exact ⟨rfl, congrArg ('(' :: ·) heq, hdigits⟩
    · rintro ⟨rfl, heq, hdigits⟩
      exact ⟨(digits, after), closedNumber?_eq_some.mpr ⟨(List.cons.inj heq).2, hdigits⟩, rfl⟩
  · rw [if_neg ha]
    constructor
    · rintro ⟨⟩
    · rintro ⟨-, heq, -⟩
      exact absurd (List.cons.inj heq).1 ha

/-- Every number in parentheses is a cut, and there are no others. -/
theorem mem_cutsAfter {seen s : List Char} {c : Cut} :
    c ∈ cutsAfter seen s ↔ ∃ before, c.seen = before.reverse ++ seen
      ∧ s = before ++ '(' :: (c.digits ++ ')' :: c.after)
      ∧ c.digits ≠ [] ∧ ∀ d ∈ c.digits, Text.isDigit d := by
  induction s generalizing seen with
  | nil =>
      rw [cutsAfter]
      constructor
      · rintro ⟨⟩
      · rintro ⟨before, -, heq, -⟩
        exact absurd heq.symm (List.append_ne_nil_of_right_ne_nil _ (List.cons_ne_nil _ _))
  | cons a s ih =>
      have hmove : ∀ before : List Char,
          before.reverse ++ a :: seen = (a :: before).reverse ++ seen := by
        intro before
        rw [List.reverse_cons, List.append_assoc]
        rfl
      rw [cutsAfter_cons, List.mem_append, Option.mem_toList, cutHere?_eq_some, ih]
      constructor
      · rintro (h | ⟨before, hseen, heq, hdigits⟩)
        · exact ⟨[], h⟩
        · exact ⟨a :: before, hseen.trans (hmove before), congrArg (a :: ·) heq, hdigits⟩
      · rintro ⟨before, hseen, heq, hdigits⟩
        cases before with
        | nil => exact .inl ⟨hseen, heq, hdigits⟩
        | cons b before =>
            obtain ⟨rfl, hs⟩ := List.cons.inj heq
            exact .inr ⟨before, hseen.trans (hmove before).symm, hs, hdigits⟩

theorem mem_cuts {s : List Char} {c : Cut} :
    c ∈ cuts s ↔ s = c.before ++ '(' :: (c.digits ++ ')' :: c.after)
      ∧ c.digits ≠ [] ∧ ∀ d ∈ c.digits, Text.isDigit d := by
  rw [cuts, mem_cutsAfter]
  constructor
  · rintro ⟨before, hseen, h⟩
    rw [List.append_nil] at hseen
    rwa [Cut.before, hseen, List.reverse_reverse]
  · exact fun h => ⟨c.before, by rw [Cut.before, List.reverse_reverse, List.append_nil], h⟩

/-- No number in parentheses stands before an `@` with nothing but blanks between them. -/
def Unambiguous (title : List Char) : Prop :=
  ∀ before digits blanks after : List Char,
    title = before ++ '(' :: (digits ++ ')' :: (blanks ++ '@' :: after)) →
    digits ≠ [] → digits.all Text.isDigit → ¬ blanks.all Text.isBlank

theorem Unambiguous.tail {title : List Char} (h : Unambiguous title) :
    Unambiguous title.tail := by
  cases title with
  | nil => exact h
  | cons c title =>
      intro before digits blanks after heq
      exact h (c :: before) digits blanks after (congrArg (c :: ·) heq)

/-- It is enough to look at the cuts of a title. -/
theorem unambiguous_of_cuts {title : List Char}
    (h : ∀ c ∈ cuts title, (c.after.dropWhile Text.isBlank).head? ≠ some '@') :
    Unambiguous title := by
  intro before digits blanks after heq hne hds hblanks
  refine h ⟨before.reverse, digits, blanks ++ '@' :: after⟩ (mem_cuts.mpr ?_) ?_
  · rw [Cut.before, List.reverse_reverse]
    exact ⟨heq, hne, List.all_eq_true.mp hds⟩
  · rw [Text.dropWhile_append_stop (List.all_eq_true.mp hblanks) (by rintro c ⟨⟩; rfl)]
    rfl

theorem modifierText?_eq_none {after s : List Char} {c : Char} (hc : c ≠ '@')
    (h : after.dropWhile Text.isBlank = c :: s) : modifierText? after = none := by
  rw [modifierText?, h]
  split
  · next heq => cases heq
  · next heq => exact absurd (List.cons.inj heq).1 hc
  · rfl

/-- A number that the title holds is not followed by modifiers. -/
theorem modifierText?_of_unambiguous {title rest digits after : List Char}
    (h : Unambiguous ('(' :: title))
    (hclosed : closedNumber? (title ++ ' ' :: '(' :: rest) = some (digits, after)) :
    modifierText? after = none := by
  obtain ⟨heq, hne, hds⟩ := closedNumber?_eq_some.mp hclosed
  rcases List.append_eq_append_iff.mp heq with ⟨as, hdigits, has⟩ | ⟨bs, htitle, hbs⟩
  · -- the number would reach past the title, over the blank after it
    cases as with
    | nil => exact absurd (List.cons.inj has).1 (by decide)
    | cons a as =>
        obtain rfl := (List.cons.inj has).1
        exact absurd (hds ' ' (by simp [hdigits])) (by decide)
  · cases bs with
    | nil => exact absurd (List.cons.inj hbs).1 (by decide)
    | cons b bs =>
        rw [List.cons_append] at hbs
        obtain ⟨rfl, rfl⟩ := List.cons.inj hbs
        have hblank : ∀ c ∈ bs.takeWhile Text.isBlank, Text.isBlank c :=
          fun c hc => List.mem_takeWhile_imp hc
        have hsplit := (List.takeWhile_append_dropWhile (p := Text.isBlank) (l := bs)).symm
        cases hdrop : bs.dropWhile Text.isBlank with
        | nil =>
            have hall : ∀ c ∈ bs, Text.isBlank c := List.dropWhile_eq_nil_iff.mp hdrop
            refine modifierText?_eq_none (c := '(') (s := rest) (by decide) ?_
            rw [List.dropWhile_append_of_pos hall]
            rfl
        | cons c s =>
            rw [hdrop] at hsplit
            refine modifierText?_eq_none (c := c) (s := s ++ ' ' :: '(' :: rest) ?_ ?_
            · rintro rfl
              refine h [] digits (bs.takeWhile Text.isBlank) s ?_ hne
                (List.all_eq_true.mpr hds) (List.all_eq_true.mpr hblank)
              rw [htitle, ← hsplit]
              rfl
            · have hc : Text.isBlank c = false := by
                have := List.head?_dropWhile_not Text.isBlank bs
                rw [hdrop] at this
                simpa using this
              rw [hsplit, List.append_assoc]
              exact Text.dropWhile_append_stop hblank fun x hx => Option.some.inj hx ▸ hc

/-- The first cut that only modifiers follow is the one after the title. -/
theorem findSome?_cuts {ds tail modifiers : List Char} (hne : ds ≠ [])
    (hds : ∀ c ∈ ds, Text.isDigit c) (htail : modifierText? tail = some modifiers)
    {title : List Char} (h : Unambiguous title) (seen : List Char)
    (htitled : Cut.titled ⟨' ' :: (title.reverse ++ seen), ds, tail⟩) :
    (cutsAfter seen (title ++ ' ' :: '(' :: (ds ++ ')' :: tail))).findSome?
        (Cut.withTail modifierText? Cut.titled)
      = some (⟨' ' :: (title.reverse ++ seen), ds, tail⟩, modifiers) := by
  induction title generalizing seen with
  | nil =>
      rw [List.reverse_nil, List.nil_append] at htitled ⊢
      have hcut : cutHere? (' ' :: seen) '(' (ds ++ ')' :: tail) = some ⟨' ' :: seen, ds, tail⟩ :=
        cutHere?_eq_some.mpr ⟨rfl, rfl, hne, hds⟩
      have hfits : Cut.withTail modifierText? Cut.titled ⟨' ' :: seen, ds, tail⟩
          = some (⟨' ' :: seen, ds, tail⟩, modifiers) := by
        rw [Cut.withTail, htail, Option.bind_some, if_pos htitled]
      rw [List.nil_append, cutsAfter, if_neg (by decide), cutsAfter_cons, hcut,
        Option.toList_some, List.singleton_append, List.findSome?_cons, hfits]
  | cons c title ih =>
      have hmove : (c :: title).reverse ++ seen = title.reverse ++ c :: seen := by
        rw [List.reverse_cons, List.append_assoc]
        rfl
      rw [hmove] at htitled ⊢
      have hhere : (cutHere? seen c (title ++ ' ' :: '(' :: (ds ++ ')' :: tail))).toList.findSome?
          (Cut.withTail modifierText? Cut.titled) = none := by
        rw [List.findSome?_eq_none_iff]
        intro cut hcut
        obtain ⟨-, heq, hdigits⟩ := cutHere?_eq_some.mp (Option.mem_toList.mp hcut)
        obtain ⟨rfl, hs⟩ := List.cons.inj heq
        rw [Cut.withTail, modifierText?_of_unambiguous h
          (closedNumber?_eq_some.mpr ⟨hs, hdigits⟩), Option.bind_none]
      rw [List.cons_append, cutsAfter_cons, List.findSome?_append, hhere, Option.none_or]
      exact ih h.tail (c :: seen) htitled

/-! ## The end of a line -/

theorem newline_not_mem_renderValue {v : List Char} (h : '\n' ∉ v) : '\n' ∉ renderValue v := by
  rw [renderValue]
  split
  · rw [List.mem_cons, List.mem_append, List.mem_singleton]
    rintro (hc | hc | hc)
    · exact absurd hc (by decide)
    · exact h hc
    · exact absurd hc (by decide)
  · exact h

theorem Modifier.newline_not_mem_render {m : Modifier} (h : ∀ v ∈ m.token.value, '\n' ∉ v) :
    '\n' ∉ m.token.render := by
  rw [Token.render, List.mem_cons, List.mem_append]
  rintro (hc | hc | hc)
  · exact absurd hc (by decide)
  · exact absurd (m.word_token.2 _ hc).2 (by decide)
  · split at hc
    · next v hv =>
        rcases List.mem_cons.mp hc with hc | hc
        · exact absurd hc (by decide)
        · exact newline_not_mem_renderValue (h v hv) hc
    · cases hc

/-- The text does not end in a blank. -/
def EndsPlain (s : List Char) : Prop := ∀ c ∈ s.getLast?, Text.isBlank c = false

theorem EndsPlain.append {s rest : List Char} (hs : EndsPlain s) (hrest : EndsPlain rest) :
    EndsPlain (s ++ rest) := by
  intro c hc
  rw [List.getLast?_append] at hc
  rcases Option.or_eq_some_iff.mp hc with h | ⟨-, h⟩
  · exact hrest c h
  · exact hs c h

theorem endsPlain_of_mem {s : List Char} (h : ∀ c ∈ s, Text.isBlank c = false) : EndsPlain s :=
  fun c hc => h c (List.mem_of_mem_getLast? hc)

theorem endsPlain_singleton {c : Char} (h : Text.isBlank c = false) : EndsPlain [c] := by
  rintro _ ⟨⟩
  exact h

theorem endsPlain_renderValue (v : List Char) : EndsPlain (renderValue v) := by
  rw [renderValue]
  split
  · intro c hc
    rw [← List.cons_append, List.getLast?_concat] at hc
    obtain rfl := Option.some.inj hc
    rfl
  · next hplain =>
      rw [Bool.or_eq_true, not_or, List.any_eq_true] at hplain
      exact endsPlain_of_mem fun c hc => Bool.eq_false_iff.mpr fun h => hplain.1 ⟨c, hc, h⟩

theorem Modifier.endsPlain_render (m : Modifier) : EndsPlain m.token.render := by
  have hkey : EndsPlain ('@' :: m.token.key) := by
    refine endsPlain_of_mem fun c hc => ?_
    rcases List.mem_cons.mp hc with rfl | hc
    · rfl
    · exact (m.word_token.2 c hc).2
  show EndsPlain ('@' :: m.token.key ++ _)
  refine hkey.append ?_
  split
  · next v hv => exact (endsPlain_singleton (c := ':') rfl).append (endsPlain_renderValue v)
  · rintro c ⟨⟩

theorem Modifier.newline_not_mem_renderAll {ms : List Modifier}
    (h : ∀ m ∈ ms, ∀ v ∈ m.token.value, '\n' ∉ v) : '\n' ∉ renderAll ms := by
  induction ms with
  | nil => exact List.not_mem_nil
  | cons m ms ih =>
      rw [renderAll_cons, List.mem_cons, List.mem_append]
      rintro (hc | hc | hc)
      · exact absurd hc (by decide)
      · exact newline_not_mem_render (h m List.mem_cons_self) hc
      · exact ih (fun s hs => h s (List.mem_cons_of_mem m hs)) hc

theorem Modifier.endsPlain_renderAll (ms : List Modifier) : EndsPlain (renderAll ms) := by
  induction ms with
  | nil => rintro c ⟨⟩
  | cons m ms ih =>
      have hword : EndsPlain (' ' :: m.token.render) := by
        intro c hc
        rw [Token.render, List.getLast?_cons_cons] at hc
        exact m.endsPlain_render c hc
      rw [renderAll_cons, ← List.cons_append]
      exact hword.append ih

theorem modifierText?_of_at {blanks rest : List Char} (hblanks : ∀ c ∈ blanks, Text.isBlank c)
    (hline : '\n' ∉ rest) : modifierText? (blanks ++ '@' :: rest) = some ('@' :: rest) := by
  have hstop : ∀ c ∈ ('@' :: rest).head?, Text.isBlank c = false := by
    rintro c ⟨⟩
    rfl
  have hall : ∀ c ∈ rest, (c != '\n') = true := by
    intro c hc
    refine bne_iff_ne.mpr ?_
    rintro rfl
    exact hline hc
  rw [modifierText?, Text.dropWhile_append_stop hblanks hstop]
  simp only [List.dropWhile_eq_nil_iff.mpr hall, List.takeWhile_eq_self_iff.mpr hall,
    List.all_nil, if_true]

/-- Words that follow the duration are taken for modifiers if the first opens like one. -/
theorem modifierText?_spaced {words : List (List Char)} (hat : ∀ w ∈ words, w.head? = some '@')
    (hline : '\n' ∉ spaced words) :
    ∃ text, modifierText? (spaced words) = some text
      ∧ Modifier.scan text = Modifier.scan (spaced words) := by
  cases words with
  | nil => exact ⟨[], rfl, rfl⟩
  | cons w words =>
      obtain ⟨word, hword⟩ : ∃ word, spaced (w :: words) = [' '] ++ '@' :: word := by
        have hw := hat w List.mem_cons_self
        cases w with
        | nil => cases hw
        | cons c w =>
            obtain rfl := Option.some.inj hw
            exact ⟨_, rfl⟩
      have hblank : ∀ c ∈ [' '], Text.isBlank c := by
        intro c hc
        rw [List.mem_singleton.mp hc]
        rfl
      rw [hword] at hline ⊢
      refine ⟨'@' :: word, modifierText?_of_at hblank fun hc => hline ?_, ?_⟩
      · exact List.mem_append_right _ (List.mem_cons_of_mem _ hc)
      · rw [Modifier.scan, Modifier.scan, List.singleton_append,
          tokens_cons_of_ne (c := ' ') (by decide)]

/-- What follows the duration is taken for modifiers, those that are found in it. -/
theorem modifierText?_renderAll {ms : List Modifier}
    (hline : ∀ m ∈ ms, ∀ v ∈ m.token.value, '\n' ∉ v) :
    ∃ text, modifierText? (Modifier.renderAll ms) = some text
      ∧ Modifier.scan text = Modifier.scan (Modifier.renderAll ms) := by
  refine modifierText?_spaced (fun w hw => ?_) (Modifier.newline_not_mem_renderAll hline)
  obtain ⟨m, -, rfl⟩ := List.mem_map.mp hw
  rfl

/-! ## Reading a written line -/

/-- The line with the given parts. -/
def written (level : Nat) (title digits tail : List Char) : List Char :=
  List.replicate level '>' ++ ' ' :: (title ++ ' ' :: '(' :: (digits ++ ')' :: tail))

/-- A written line does not end in a carriage return. -/
theorem dropTrailing_written {tail : List Char} (h : EndsPlain tail) (level : Nat)
    (title digits : List Char) :
    Text.dropTrailing (· == '\r') (written level title digits tail)
      = written level title digits tail := by
  have hend : EndsPlain (')' :: tail) := (endsPlain_singleton (c := ')') rfl).append h
  have hsplit : written level title digits tail
      = (List.replicate level '>' ++ ' ' :: (title ++ ' ' :: '(' :: digits)) ++ ')' :: tail := by
    simp only [written, List.append_assoc, List.cons_append]
  refine Text.dropTrailing_of_last fun c hc => beq_eq_false_iff_ne.mpr ?_
  rw [hsplit, List.getLast?_append_of_ne_nil _ (List.cons_ne_nil _ _)] at hc
  rintro rfl
  exact absurd (hend _ hc) (by decide)

theorem head_of_strip {s : List Char} (h : Text.strip s = s) :
    ∀ c ∈ s.head?, Text.isBlank c = false := by
  intro c hc
  obtain ⟨rest, rfl⟩ := List.head?_eq_some_iff.mp hc
  refine Bool.eq_false_iff.mpr fun hblank => ?_
  -- stripping would have made the text shorter
  have hlength := congrArg List.length h
  rw [Text.strip, List.dropWhile_cons_of_pos hblank, Text.stripEnd, Text.dropTrailing,
    List.length_reverse, List.length_cons] at hlength
  have h₁ := Text.length_dropWhile_le Text.isBlank (rest.dropWhile Text.isBlank).reverse
  have h₂ := Text.length_dropWhile_le Text.isBlank rest
  rw [List.length_reverse] at h₁
  omega

theorem strip_concat {s : List Char} (hne : s ≠ []) (h : Text.strip s = s) :
    Text.strip (s ++ [' ']) = s := by
  obtain ⟨a, as, rfl⟩ := List.exists_cons_of_ne_nil hne
  have hhead := head_of_strip h
  have hdrop : ∀ {rest : List Char}, (a :: as ++ rest).dropWhile Text.isBlank = a :: as ++ rest :=
    Text.dropWhile_of_head hhead
  rw [Text.strip, hdrop, Text.stripEnd, Text.dropTrailing, List.reverse_append,
    List.reverse_singleton, List.singleton_append, List.dropWhile_cons_of_pos (by decide)]
  rw [Text.strip, Text.dropWhile_of_head hhead] at h
  exact h

/-- Where a written line can be cut: the title with the blanks around it gives the gap and what the
cuts are looked for in. -/
theorem taskParts?_written_eq {level : Nat} (hlevel : 1 ≤ level) (title ds tail : List Char) :
    taskParts? (written level title ds tail)
      = (chooseCut? ((' ' :: (title ++ [' '])).takeWhile Text.isBlank)
          ((' ' :: (title ++ [' '])).dropWhile Text.isBlank ++ '(' :: (ds ++ ')' :: tail))).map
        fun (c, modifiers) => ⟨level, Text.strip c.before, c.digits, modifiers⟩ := by
  have hmarkers : ∀ c ∈ List.replicate level '>', (c == '>') = true := by
    intro c hc
    rw [List.eq_of_mem_replicate hc]
    rfl
  have hstop : ∀ {body : List Char}, ∀ c ∈ (' ' :: body).head?, (c == '>') = false := by
    rintro body c ⟨⟩
    rfl
  have hsome : (List.replicate level '>').isEmpty = false := by
    rw [List.isEmpty_eq_false_iff, ← List.length_pos_iff, List.length_replicate]
    exact hlevel
  have hlead : ' ' :: (title ++ ' ' :: '(' :: (ds ++ ')' :: tail))
      = ' ' :: (title ++ [' ']) ++ '(' :: (ds ++ ')' :: tail) := by
    rw [List.cons_append, List.append_assoc]
    rfl
  have hgap : ((' ' :: (title ++ [' '])).takeWhile Text.isBlank).isEmpty = false := by
    rw [List.takeWhile_cons_of_pos (by decide)]
    rfl
  rw [taskParts?, written]
  simp only [Text.takeWhile_append_stop hmarkers hstop, Text.dropWhile_append_stop hmarkers hstop]
  rw [hlead, Text.takeWhile_append_cons (c := '(') rfl, Text.dropWhile_append_cons (c := '(') rfl,
    hsome, hgap]
  simp only [Bool.or_self, Bool.false_eq_true, if_false, List.length_replicate]

/-- The cut at the duration is chosen. A number that opens the title is no danger, as nothing that
could be a title stands before it. -/
theorem chooseCut?_written {title ds tail modifiers : List Char} (gap : List Char)
    (htitle : title ≠ []) (hline : '\n' ∉ title) (hplain : Unambiguous title.tail) (hne : ds ≠ [])
    (hds : ∀ c ∈ ds, Text.isDigit c) (htail : modifierText? tail = some modifiers) :
    chooseCut? gap (title ++ ' ' :: '(' :: (ds ++ ')' :: tail))
      = some (⟨' ' :: title.reverse, ds, tail⟩, modifiers) := by
  have htitled : Cut.titled ⟨' ' :: title.reverse, ds, tail⟩ := by
    have hnone : '\n' ∉ (' ' :: title.reverse).dropWhile Text.isBlank := by
      intro hc
      have := (List.dropWhile_sublist Text.isBlank).subset hc
      rw [List.mem_cons, List.mem_reverse] at this
      exact this.elim (absurd · (by decide)) hline
    rw [Cut.titled, List.isEmpty_cons, Bool.not_false, Bool.true_and, Bool.not_eq_true',
      Bool.eq_false_iff]
    exact fun hc => hnone (List.contains_iff_mem.mp hc)
  obtain ⟨a, as, rfl⟩ := List.exists_cons_of_ne_nil htitle
  have hopening : (cutHere? [] a (as ++ ' ' :: '(' :: (ds ++ ')' :: tail))).toList.findSome?
      (Cut.withTail modifierText? Cut.titled) = none := by
    rw [List.findSome?_eq_none_iff]
    intro cut hcut
    have hseen := (cutHere?_eq_some.mp (Option.mem_toList.mp hcut)).1
    rw [Cut.withTail, Option.bind_eq_none_iff]
    intro m _
    rw [Cut.titled, hseen]
    rfl
  have hplain : Unambiguous as := hplain
  have hrest := findSome?_cuts hne hds htail hplain [a]
    (by rwa [List.reverse_cons] at htitled)
  rw [chooseCut?, cuts, List.cons_append, cutsAfter_cons, List.findSome?_append, hopening,
    Option.none_or, hrest, Option.some_or, List.reverse_cons]

/-- With a title, the gap is one blank, and the cuts are looked for from the title on. -/
theorem taskParts?_titled {level : Nat} {title : List Char} (hlevel : 1 ≤ level)
    (htitle : title ≠ []) (hstrip : Text.strip title = title) (ds tail : List Char) :
    taskParts? (written level title ds tail)
      = (chooseCut? [' '] (title ++ ' ' :: '(' :: (ds ++ ')' :: tail))).map
        fun (c, modifiers) => ⟨level, Text.strip c.before, c.digits, modifiers⟩ := by
  have hblank : ∀ c ∈ [' '], Text.isBlank c := by
    intro c hc
    rw [List.mem_singleton.mp hc]
    rfl
  have hhead : ∀ c ∈ (title ++ [' ']).head?, Text.isBlank c = false := by
    obtain ⟨a, as, rfl⟩ := List.exists_cons_of_ne_nil htitle
    exact fun c hc => head_of_strip hstrip c hc
  have hgap : (' ' :: (title ++ [' '])).takeWhile Text.isBlank = [' '] :=
    Text.takeWhile_append_stop hblank hhead
  have hbody : (' ' :: (title ++ [' '])).dropWhile Text.isBlank = title ++ [' '] :=
    Text.dropWhile_append_stop hblank hhead
  rw [taskParts?_written_eq hlevel, hgap, hbody, List.append_assoc, List.singleton_append]

/-- A written line is taken apart as it was put together. -/
theorem taskParts?_written {level : Nat} {title ds tail modifiers : List Char} (hlevel : 1 ≤ level)
    (htitle : title ≠ []) (hstrip : Text.strip title = title) (hline : '\n' ∉ title)
    (hplain : Unambiguous title.tail) (hne : ds ≠ []) (hds : ∀ c ∈ ds, Text.isDigit c)
    (htail : modifierText? tail = some modifiers) :
    taskParts? (written level title ds tail) = some ⟨level, title, ds, modifiers⟩ := by
  rw [taskParts?_titled hlevel htitle hstrip, chooseCut?_written _ htitle hline hplain hne hds htail]
  simp only [Option.map_some, Cut.before, List.reverse_cons, List.reverse_reverse,
    strip_concat htitle hstrip]

end Roadmap.Outline
