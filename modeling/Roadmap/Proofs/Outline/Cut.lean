import Roadmap.Proofs.Outline.Canonical

/-!
# Where a task line is cut

A number in parentheses is *trailed* if only blanks separate it from an `@`, or from the end of the
line. The first such number behind a title is the duration (`cutOf?_first`), and what stands behind
its `@` has no say in this.

So a number with nothing but blanks and tokens after it (`Tokenized`) need not be the duration. It
is trailed, and keeps all later ones from being taken; but an earlier one is taken if an `@` follows
it, whatever comes then (`cut_of_tokenized`).
-/

namespace Roadmap.Outline

/-! ## Texts of tokens -/

/-- The text is made of blanks and tokens. -/
inductive Tokenized : List Char → Prop where
  | nil : Tokenized []
  | blank {c : Char} {s : List Char} : Text.isBlank c → Tokenized s → Tokenized (c :: s)
  | token {s rest : List Char} {t : Token} :
      readToken? s = some (t, rest) → Tokenized rest → Tokenized ('@' :: s)

namespace Tokenized

theorem of_blanks {s : List Char} (h : ∀ c ∈ s, Text.isBlank c) : Tokenized s := by
  induction s with
  | nil => exact .nil
  | cons c s ih =>
      obtain ⟨hc, hs⟩ := List.forall_mem_cons.mp h
      exact .blank hc (ih hs)

theorem cons_blank_iff {c : Char} {s : List Char} (hc : Text.isBlank c) :
    Tokenized (c :: s) ↔ Tokenized s := by
  constructor
  · intro h
    cases h with
    | blank _ hs => exact hs
    | token => exact absurd hc (by decide)
  · exact .blank hc

theorem at_iff {s rest : List Char} {t : Token} (ht : readToken? s = some (t, rest)) :
    Tokenized ('@' :: s) ↔ Tokenized rest := by
  constructor
  · intro h
    cases h with
    | blank hc => exact absurd hc (by decide)
    | token ht' hrest =>
        rw [ht] at ht'
        cases ht'
        exact hrest
  · exact .token ht

theorem not_at {s : List Char} (hs : readToken? s = none) : ¬ Tokenized ('@' :: s) := by
  intro h
  cases h with
  | blank hc => exact absurd hc (by decide)
  | token ht =>
      rw [hs] at ht
      cases ht

theorem not_cons {c : Char} {s : List Char} (hc : ¬ Text.isBlank c) (hat : c ≠ '@') :
    ¬ Tokenized (c :: s) := by
  intro h
  cases h with
  | blank hblank => exact hc hblank
  | token => exact hat rfl

/-- Whether a text is made of tokens is found out from left to right, a token at a time. -/
def decide : (s : List Char) → Decidable (Tokenized s)
  | [] => isTrue .nil
  | c :: s =>
    if hc : Text.isBlank c then
      have := decide s
      decidable_of_iff (Tokenized s) (cons_blank_iff hc).symm
    else if hat : c = '@' then
      match h : readToken? s with
      | none => isFalse (hat ▸ not_at h)
      | some (_, rest) =>
        have := decide rest
        decidable_of_iff (Tokenized rest) (hat ▸ (at_iff h).symm)
    else isFalse (not_cons hc hat)
termination_by s => s.length
decreasing_by
  · simp
  · have := length_readToken?_le h
    simp only [List.length_cons]
    omega

instance : DecidablePred Tokenized := decide

end Tokenized

/-! ## Numbers that can be the duration -/

/-- Only blanks stand before the first `@` of the text, or before its end. -/
def Trailed (after : List Char) : Prop := ∀ c ∈ (after.dropWhile Text.isBlank).head?, c = '@'

theorem trailed_iff {after : List Char} (hline : '\n' ∉ after) :
    Trailed after ↔ ∃ m, modifierText? after = some m := by
  have hsplit := (List.takeWhile_append_dropWhile (p := Text.isBlank) (l := after)).symm
  rw [Trailed]
  cases hdrop : after.dropWhile Text.isBlank with
  | nil =>
      refine iff_of_true (by rintro c ⟨⟩) ⟨[], ?_⟩
      rw [modifierText?, hdrop]
  | cons c rest =>
      rw [hdrop] at hsplit
      rw [List.head?_cons]
      constructor
      · intro h
        obtain rfl := h c rfl
        have hrest : '\n' ∉ rest := fun hmem => hline <| by
          rw [hsplit]
          exact List.mem_append_right _ (List.mem_cons_of_mem _ hmem)
        rw [hsplit]
        exact ⟨_, modifierText?_of_at (fun x hx => List.mem_takeWhile_imp hx) hrest⟩
      · rintro ⟨m, hm⟩ x ⟨⟩
        by_contra hne
        rw [modifierText?_eq_none hne hdrop] at hm
        cases hm

theorem Tokenized.trailed {s : List Char} (h : Tokenized s) : Trailed s := by
  induction h with
  | nil => rintro c ⟨⟩
  | blank hc _ ih =>
      rw [Trailed, List.dropWhile_cons_of_pos hc]
      exact ih
  | token =>
      rintro c ⟨⟩
      rfl

/-- What follows a trailed number is made of tokens, or has an `@` after its blanks. -/
theorem Trailed.tokenized_or {s : List Char} (h : Trailed s) :
    Tokenized s ∨ (s.dropWhile Text.isBlank).head? = some '@' := by
  cases hdrop : s.dropWhile Text.isBlank with
  | nil => exact .inl (.of_blanks (List.dropWhile_eq_nil_iff.mp hdrop))
  | cons c rest =>
      rw [Trailed, hdrop] at h
      exact .inr (congrArg some (h c rfl))

/-! ## The number that is taken -/

/-- What follows the markers of a line. Carriage returns at its end do not belong to it. -/
def unmarked (line : Text.Line) : List Char :=
  (Text.dropTrailing (· == '\r') line).dropWhile (· == '>')

/-- The blanks after the markers. -/
def gapOf (line : Text.Line) : List Char := (unmarked line).takeWhile Text.isBlank

/-- What follows the markers and the blanks after them. -/
def bodyOf (line : Text.Line) : List Char := (unmarked line).dropWhile Text.isBlank

/-- The cut at which the duration of a line is read. -/
def cutOf? (line : Text.Line) : Option Cut :=
  (chooseCut? (gapOf line) (bodyOf line)).map (·.1)

theorem mem_of_bodyOf {line : Text.Line} {c : Char} (h : c ∈ bodyOf line) : c ∈ line := by
  have hunmarked : c ∈ unmarked line := (List.dropWhile_sublist _).subset h
  exact mem_of_dropTrailing ((List.dropWhile_sublist _).subset hunmarked)

theorem mem_of_cut {line : Text.Line} {d : Cut} (hd : d ∈ cuts (bodyOf line)) {c : Char}
    (hc : c ∈ d.seen ∨ c ∈ d.after) : c ∈ line := by
  refine mem_of_bodyOf ?_
  rw [(mem_cuts.mp hd).1]
  simp only [List.mem_append, List.mem_cons, Cut.before, List.mem_reverse]
  exact hc.imp_right fun h => .inr (.inr (.inr h))

theorem eq_of_seen {body : List Char} {c d : Cut} (hc : c ∈ cuts body) (hd : d ∈ cuts body)
    (h : c.seen.length = d.seen.length) : c = d := by
  have hsymm : Std.Symm fun c d : Cut => c.seen.length ≠ d.seen.length := ⟨fun _ _ h => h.symm⟩
  have hdistinct := (cutsAfter_sorted [] body).imp fun hlt => hlt.ne
  by_contra hne
  exact hdistinct.forall hc hd hne h

/-- Title and duration of a task are what stands before the cut of its line and at it. -/
theorem exists_cutOf? {line : Text.Line} {number : Int} {t : Task}
    (h : readTask? line number = .ok (some t)) :
    ∃ c ∈ cuts (bodyOf line), cutOf? line = some c
      ∧ t.title = String.ofList (Text.strip c.before)
      ∧ t.duration = Text.digitsValue c.digits := by
  obtain ⟨p, hp, -⟩ := readTask?_eq_some h
  rw [readTask?_of_parts number hp] at h
  split at h
  · cases h
  · cases h
    obtain ⟨-, htitle, hduration, -⟩ := applyAll_head (p.plain number) (Modifier.scan p.modifiers)
    simp only [taskParts?] at hp
    split at hp
    · cases hp
    · obtain ⟨⟨c, m⟩, hchoose, rfl⟩ := Option.map_eq_some_iff.mp hp
      have hchoose : chooseCut? (gapOf line) (bodyOf line) = some (c, m) := hchoose
      refine ⟨c, (chooseCut?_eq_some hchoose).1, ?_, htitle, hduration⟩
      rw [cutOf?, hchoose]
      rfl

/-- If there is a trailed number behind a title, the first such number is taken. -/
theorem cutOf?_first {line : Text.Line} (hline : '\n' ∉ line) {c d : Cut}
    (hc : cutOf? line = some c) (hd : d ∈ cuts (bodyOf line)) (htitle : d.seen ≠ [])
    (htrailed : Trailed d.after) :
    c.seen ≠ [] ∧ Trailed c.after ∧ c.seen.length ≤ d.seen.length := by
  obtain ⟨⟨c, m⟩, hchoose, rfl⟩ := Option.map_eq_some_iff.mp hc
  obtain ⟨m₀, hm₀⟩ := (trailed_iff fun h => hline (mem_of_cut hd (.inr h))).mp htrailed
  have htitled := titled_of_line htitle fun h => hline (mem_of_cut hd (.inl h))
  obtain ⟨htitled', hm, hle⟩ := chooseCut?_le hchoose hd htitled hm₀
  have hcut := (chooseCut?_eq_some hchoose).1
  refine ⟨fun hnil => ?_, (trailed_iff fun h => hline (mem_of_cut hcut (.inr h))).mpr ⟨m, hm⟩, hle⟩
  rw [Cut.titled, hnil] at htitled'
  cases htitled'

/-- If a number behind a title has only tokens after it, the duration is the first number behind a
title that is trailed. It too has only tokens after it, or it comes earlier and has an `@` after it
that opens the text which is cut off. -/
theorem cut_of_tokenized {line : Text.Line} {number : Int} {t : Task} {d : Cut}
    (hline : '\n' ∉ line) (ht : readTask? line number = .ok (some t))
    (hd : d ∈ cuts (bodyOf line)) (htitle : d.seen ≠ []) (htokens : Tokenized d.after) :
    ∃ c ∈ cuts (bodyOf line), cutOf? line = some c
      ∧ t.title = String.ofList (Text.strip c.before) ∧ t.duration = Text.digitsValue c.digits
      ∧ c.seen ≠ [] ∧ Trailed c.after
      ∧ (∀ c' ∈ cuts (bodyOf line), c'.seen ≠ [] → Trailed c'.after →
        c.seen.length ≤ c'.seen.length)
      ∧ (Tokenized c.after ∨ c.seen.length < d.seen.length
        ∧ (c.after.dropWhile Text.isBlank).head? = some '@') := by
  obtain ⟨c, hc, hcut, hread⟩ := exists_cutOf? ht
  obtain ⟨hctitle, hctrailed, hle⟩ := cutOf?_first hline hcut hd htitle htokens.trailed
  refine ⟨c, hc, hcut, hread.1, hread.2, hctitle, hctrailed, fun c' hc' htitle' htrailed' =>
    (cutOf?_first hline hcut hc' htitle' htrailed').2.2, ?_⟩
  rcases Nat.lt_or_eq_of_le hle with hlt | heq
  · exact hctrailed.tokenized_or.imp_right (⟨hlt, ·⟩)
  · obtain rfl := eq_of_seen hc hd heq
    exact .inl htokens

/-! ### Two lines with several numbers -/

/-- No `@` follows the number in the title. -/
def posted : Text.Line := "> Mail a@b (2) back (3) @after:1 @note:\"the plan\"".toList

def post : Task where
  level := 1
  title := "Mail a@b (2) back"
  duration := 3
  dependencies := [1]
  note := some "the plan"
  line := 4

def postCut : Cut :=
  ⟨"Mail a@b (2) back ".toList.reverse, ['3'], " @after:1 @note:\"the plan\"".toList⟩

theorem cut_of_tokenized_posted : readTask? posted 4 = .ok (some post)
    ∧ postCut ∈ cuts (bodyOf posted) ∧ Tokenized postCut.after
    ∧ ∃ c ∈ cuts (bodyOf posted), cutOf? posted = some c
      ∧ post.title = String.ofList (Text.strip c.before)
      ∧ post.duration = Text.digitsValue c.digits ∧ c.seen.length ≤ postCut.seen.length := by
  have hread : readTask? posted 4 = .ok (some post) := by decide +kernel
  have hcut : postCut ∈ cuts (bodyOf posted) := by decide +kernel
  have htokens : Tokenized postCut.after := by decide +kernel
  obtain ⟨c, hc, htaken, htitle, hduration, -, -, hfirst, -⟩ :=
    cut_of_tokenized (by decide) hread hcut (by decide) htokens
  exact ⟨hread, hcut, htokens, c, hc, htaken, htitle, hduration,
    hfirst postCut hcut (by decide) htokens.trailed⟩

/-- An `@` follows the number in the title. -/
def meeting : Text.Line := "> Meet (2) @home office (3)".toList

def meetCut : Cut := ⟨"Meet ".toList.reverse, ['2'], " @home office (3)".toList⟩

def officeCut : Cut := ⟨"Meet (2) @home office ".toList.reverse, ['3'], []⟩

/-- Only the last number has nothing but tokens after it, and the first is taken. With it, a part of
the title is cut off. -/
theorem not_tokenized_meeting :
    readTask? meeting 1
        = .ok (some { level := 1, title := "Meet", duration := 2, line := 1 })
      ∧ officeCut ∈ cuts (bodyOf meeting) ∧ officeCut.seen ≠ [] ∧ Tokenized officeCut.after
      ∧ cutOf? meeting = some meetCut ∧ ¬ Tokenized meetCut.after := by
  decide +kernel

end Roadmap.Outline
