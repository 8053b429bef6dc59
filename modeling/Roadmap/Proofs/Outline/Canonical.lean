import Roadmap.Proofs.Outline.Stamps

/-!
# Canonical lines take new days

A task line is *canonical* if it is what its task is written as. Then the day and the duration of
the task can be set, and the new line says just that: it is read back as the task with the new day
and duration, every other field as it was (`exists_redated`).

Two things could go wrong. The line might be cut elsewhere than before; but nothing in the title has
made for a better cut, and nothing behind the new day does either. And the new day might be
overruled by another one behind it; but there is none.
-/

namespace Roadmap.Outline

/-! ## The first cut -/

theorem cutsAfter_sorted (seen s : List Char) :
    (cutsAfter seen s).Pairwise (fun c c' => c.seen.length < c'.seen.length) := by
  induction s generalizing seen with
  | nil => exact List.Pairwise.nil
  | cons a s ih =>
      rw [cutsAfter_cons, List.pairwise_append]
      refine ⟨?_, ih (a :: seen), fun c hc c' hc' => ?_⟩
      · cases cutHere? seen a s with
        | none => exact List.Pairwise.nil
        | some c => exact List.pairwise_singleton _ c
      · have hseen := (cutHere?_eq_some.mp (Option.mem_toList.mp hc)).1
        obtain ⟨before, hseen', -⟩ := mem_cutsAfter.mp hc'
        rw [hseen, hseen', List.length_append, List.length_cons]
        omega

theorem withTail_eq_some {tail : List Char → Option (List Char)} {fits : Cut → Bool} {c c' : Cut}
    {m : List Char} (h : Cut.withTail tail fits c = some (c', m)) :
    c' = c ∧ tail c.after = some m ∧ fits c := by
  obtain ⟨m', hm', h⟩ := Option.bind_eq_some_iff.mp h
  split at h
  · next hfits =>
      cases h
      exact ⟨rfl, hm', hfits⟩
  · cases h

/-- A cut that modifiers follow keeps all later ones from being chosen. -/
theorem chooseCut?_le {gap body m m₀ : List Char} {c c₀ : Cut}
    (h : chooseCut? gap body = some (c, m)) (hc₀ : c₀ ∈ cuts body) (htitled : c₀.titled)
    (hm₀ : modifierText? c₀.after = some m₀) :
    c.titled ∧ modifierText? c.after = some m ∧ c.seen.length ≤ c₀.seen.length := by
  have hgood : Cut.withTail modifierText? Cut.titled c₀ = some (c₀, m₀) := by
    rw [Cut.withTail, hm₀, Option.bind_some, if_pos htitled]
  obtain ⟨found, hfound⟩ : ∃ found, (cuts body).findSome? (Cut.withTail modifierText? Cut.titled)
      = some found := by
    rw [← Option.isSome_iff_exists, List.findSome?_isSome_iff]
    exact ⟨c₀, hc₀, by rw [hgood]; rfl⟩
  rw [chooseCut?, hfound, Option.some_or] at h
  obtain rfl := Option.some.inj h
  obtain ⟨earlier, a, later, hsplit, ha, hnone⟩ := List.findSome?_eq_some_iff.mp hfound
  obtain ⟨rfl, htail, hfits⟩ := withTail_eq_some ha
  refine ⟨hfits, htail, ?_⟩
  have hsorted := cutsAfter_sorted [] body
  rw [← cuts, hsplit, List.pairwise_append, List.pairwise_cons] at hsorted
  rw [hsplit, List.mem_append, List.mem_cons] at hc₀
  rcases hc₀ with hc₀ | rfl | hc₀
  · rw [hnone c₀ hc₀] at hgood
    cases hgood
  · exact Nat.le_refl _
  · exact Nat.le_of_lt (hsorted.2.1.1 c₀ hc₀)

/-! ## Titles that were read -/

theorem length_strip_le (s : List Char) : (Text.strip s).length ≤ s.length := by
  have h₁ := Text.length_dropWhile_le Text.isBlank (s.dropWhile Text.isBlank).reverse
  have h₂ := Text.length_dropWhile_le Text.isBlank s
  rw [List.length_reverse] at h₁
  rw [Text.strip, Text.stripEnd, Text.dropTrailing, List.length_reverse]
  omega

theorem strip_prefix (s : List Char) : Text.strip s <+: s.dropWhile Text.isBlank := by
  have hsuffix := List.dropWhile_suffix (l := (s.dropWhile Text.isBlank).reverse) Text.isBlank
  have hprefix := List.reverse_prefix.mpr hsuffix
  rwa [List.reverse_reverse] at hprefix

theorem strip_strip (s : List Char) : Text.strip (Text.strip s) = Text.strip s := by
  have hhead : ∀ c ∈ (Text.strip s).head?, Text.isBlank c = false := by
    intro c hc
    obtain ⟨rest, hrest⟩ := strip_prefix s
    obtain ⟨as, has⟩ := List.head?_eq_some_iff.mp hc
    have hdrop := List.head?_dropWhile_not Text.isBlank s
    rw [← hrest, has, List.cons_append] at hdrop
    simpa using hdrop
  have hend : Text.strip (Text.strip s) = Text.stripEnd (Text.strip s) := by
    rw [Text.strip, Text.dropWhile_of_head hhead]
  rw [hend, Text.strip, Text.stripEnd, Text.stripEnd, Text.dropTrailing, Text.dropTrailing,
    List.reverse_reverse, List.dropWhile_idempotent]

theorem strip_eq_nil {s : List Char} (h : Text.strip s = []) : ∀ c ∈ s, Text.isBlank c := by
  rw [Text.strip, Text.stripEnd, Text.dropTrailing, List.reverse_eq_nil_iff,
    List.dropWhile_eq_nil_iff] at h
  have hdrop : (s.dropWhile Text.isBlank).dropWhile Text.isBlank = [] :=
    List.dropWhile_eq_nil_iff.mpr fun c hc => h c (List.mem_reverse.mpr hc)
  rw [List.dropWhile_idempotent] at hdrop
  exact List.dropWhile_eq_nil_iff.mp hdrop

theorem titled_of_line {c : Cut} (hne : c.seen ≠ []) (hline : '\n' ∉ c.seen) : c.titled := by
  have hnone : '\n' ∉ c.seen.dropWhile Text.isBlank :=
    fun h => hline ((List.dropWhile_sublist _).subset h)
  rw [Cut.titled, Bool.and_eq_true, Bool.not_eq_true', Bool.not_eq_true']
  refine ⟨by simpa using hne, ?_⟩
  rwa [← Bool.not_eq_true, List.contains_iff_mem]

/-- A title that was read holds no better place to cut the line, except that a number may open
it. -/
theorem unambiguous_of_chosen {gap title rest m : List Char} {c : Cut}
    (hline : '\n' ∉ title ++ rest) (h : chooseCut? gap (title ++ rest) = some (c, m))
    (htitle : title.length ≤ c.seen.length) :
    Unambiguous title.tail := by
  intro before digits blanks after heq hne hdigits hblanks
  cases title with
  | nil => exact absurd heq.symm (List.append_ne_nil_of_right_ne_nil _ (List.cons_ne_nil _ _))
  | cons a title =>
      obtain rfl := heq
      have hcut : ⟨(a :: before).reverse, digits, blanks ++ '@' :: (after ++ rest)⟩
          ∈ cuts (a :: (before ++ '(' :: (digits ++ ')' :: (blanks ++ '@' :: after))) ++ rest) := by
        refine mem_cuts.mpr ⟨?_, hne, List.all_eq_true.mp hdigits⟩
        simp only [Cut.before, List.reverse_reverse, List.cons_append, List.append_assoc]
      simp only [List.mem_append, List.mem_cons] at hline
      have htitled : Cut.titled
          ⟨(a :: before).reverse, digits, blanks ++ '@' :: (after ++ rest)⟩ := by
        refine titled_of_line (by simp) fun hc => hline ?_
        rw [List.mem_reverse, List.mem_cons] at hc
        tauto
      have hrest : '\n' ∉ after ++ rest := by
        rw [List.mem_append]
        tauto
      have hle := (chooseCut?_le h hcut htitled
        (modifierText?_of_at (List.all_eq_true.mp hblanks) hrest)).2.2
      simp only [List.length_reverse, List.length_cons, List.length_append] at hle htitle
      omega

/-! ## Lines without a title -/

theorem no_modifiers_of_chosen {gap ds tail m : List Char} {c : Cut}
    (h : chooseCut? gap ('(' :: (ds ++ ')' :: tail)) = some (c, m))
    (hblank : ∀ x ∈ c.before, Text.isBlank x) :
    ∀ c₀ ∈ cuts ('(' :: (ds ++ ')' :: tail)), c₀.titled → modifierText? c₀.after = none := by
  intro c₀ hc₀ htitled
  cases hm : modifierText? c₀.after with
  | none => rfl
  | some m₀ =>
      have hc := (chooseCut?_le h hc₀ htitled hm).1
      obtain ⟨hsplit, -⟩ := mem_cuts.mp (chooseCut?_eq_some h).1
      cases hbefore : c.before with
      | nil =>
          have hseen : c.seen = [] := List.reverse_eq_nil_iff.mp hbefore
          rw [Cut.titled, hseen] at hc
          cases hc
      | cons x before =>
          rw [hbefore] at hsplit hblank
          obtain rfl := (List.cons.inj hsplit).1
          exact absurd (hblank '(' List.mem_cons_self) (by decide)

theorem chooseCut?_untitled (gap : List Char) {ds tail m : List Char} (hgap : gap.tail.any (· != '\n'))
    (hne : ds ≠ []) (hds : ∀ c ∈ ds, Text.isDigit c) (htail : modifierText? tail = some m)
    (hnone : ∀ c ∈ cuts ('(' :: (ds ++ ')' :: tail)), c.titled → modifierText? c.after = none) :
    chooseCut? gap ('(' :: (ds ++ ')' :: tail)) = some (⟨[], ds, tail⟩, m) := by
  have hfirst : (cuts ('(' :: (ds ++ ')' :: tail))).findSome?
      (Cut.withTail modifierText? Cut.titled) = none := by
    refine List.findSome?_eq_none_iff.mpr fun c hc => ?_
    rw [Cut.withTail, Option.bind_eq_none_iff]
    intro m' hm'
    refine if_neg fun htitled => ?_
    rw [hnone c hc htitled] at hm'
    cases hm'
  have hhere : cutHere? [] '(' (ds ++ ')' :: tail) = some ⟨[], ds, tail⟩ :=
    cutHere?_eq_some.mpr ⟨rfl, rfl, hne, hds⟩
  have hfits : Cut.withTail modifierText? (Cut.untitled gap) ⟨[], ds, tail⟩
      = some (⟨[], ds, tail⟩, m) := by
    have huntitled : Cut.untitled gap ⟨[], ds, tail⟩ := hgap
    rw [Cut.withTail, htail, Option.bind_some, if_pos huntitled]
  rw [chooseCut?, hfirst, Option.none_or, cuts, cutsAfter_cons, hhere, Option.toList_some,
    List.singleton_append, List.findSome?_cons, hfits, Option.some_or]

theorem mem_cuts_append (u : List Char) {rest : List Char} {c : Cut} (hc : c ∈ cuts rest) :
    ⟨c.seen ++ u.reverse, c.digits, c.after⟩ ∈ cuts (u ++ rest) := by
  obtain ⟨hsplit, hdigits⟩ := mem_cuts.mp hc
  refine mem_cuts.mpr ⟨?_, hdigits⟩
  rw [Cut.before, List.reverse_append, List.reverse_reverse, List.append_assoc]
  exact congrArg (u ++ ·) hsplit

theorem exists_cut_of_append {u rest : List Char} (hu : '(' ∉ u) {c : Cut}
    (hc : c ∈ cuts (u ++ rest)) : ∃ c' ∈ cuts rest, c'.after = c.after := by
  obtain ⟨hsplit, hdigits⟩ := mem_cuts.mp hc
  obtain ⟨front, hrest⟩ : ∃ front, rest = front ++ '(' :: (c.digits ++ ')' :: c.after) := by
    rcases List.append_eq_append_iff.mp hsplit with ⟨as, -, h⟩ | ⟨bs, hbs, h⟩
    · exact ⟨as, h⟩
    · cases bs with
      | nil => exact ⟨[], h.symm⟩
      | cons b bs =>
          obtain rfl := (List.cons.inj h).1
          refine absurd ?_ hu
          rw [hbs]
          exact List.mem_append_right _ List.mem_cons_self
  refine ⟨⟨front.reverse, c.digits, c.after⟩, mem_cuts.mpr ⟨?_, hdigits⟩, rfl⟩
  rw [Cut.before, List.reverse_reverse]
  exact hrest

/-- A cut that could have a title lies behind the number that opens the text. -/
theorem exists_cut_behind {ds u rest : List Char} (hds : '(' ∉ ds) (hu : '(' ∉ u) {c : Cut}
    (hc : c ∈ cuts ('(' :: (ds ++ ')' :: (u ++ rest)))) (htitled : c.titled) :
    ∃ c' ∈ cuts rest, c'.after = c.after := by
  obtain ⟨hsplit, hdigits⟩ := mem_cuts.mp hc
  have hnot : '(' ∉ ds ++ ')' :: u := by
    rw [List.mem_append, List.mem_cons]
    rintro (h | h | h)
    · exact hds h
    · exact absurd h (by decide)
    · exact hu h
  cases hbefore : c.before with
  | nil =>
      have hseen : c.seen = [] := List.reverse_eq_nil_iff.mp hbefore
      rw [Cut.titled, hseen] at htitled
      cases htitled
  | cons x before =>
      rw [hbefore] at hsplit
      have hbehind : (ds ++ ')' :: u) ++ rest = before ++ '(' :: (c.digits ++ ')' :: c.after) := by
        rw [List.append_assoc]
        exact (List.cons.inj hsplit).2
      have hmem : ⟨before.reverse, c.digits, c.after⟩ ∈ cuts ((ds ++ ')' :: u) ++ rest) := by
        refine mem_cuts.mpr ⟨?_, hdigits⟩
        rw [Cut.before, List.reverse_reverse]
        exact hbehind
      obtain ⟨c', hc', hafter⟩ := exists_cut_of_append hnot hmem
      exact ⟨c', hc', hafter⟩

/-- Cuts behind the first one lie in what stays when the duration and the words next to it are
replaced. -/
theorem exists_cut_of_retailed {ds ds' u u' rest : List Char} (hds' : '(' ∉ ds') (hu' : '(' ∉ u')
    (hline : '\n' ∉ ds ++ (u ++ rest)) {c : Cut}
    (hc : c ∈ cuts ('(' :: (ds' ++ ')' :: (u' ++ rest)))) (htitled : c.titled) :
    ∃ c₀ ∈ cuts ('(' :: (ds ++ ')' :: (u ++ rest))), c₀.titled ∧ c₀.after = c.after := by
  obtain ⟨c', hc', hafter⟩ := exists_cut_behind hds' hu' hc htitled
  have hlead : '(' :: (ds ++ ')' :: (u ++ rest)) = ('(' :: (ds ++ ')' :: u)) ++ rest := by
    rw [List.cons_append, List.append_assoc]
    rfl
  rw [hlead]
  refine ⟨_, mem_cuts_append _ hc', titled_of_line (by simp) fun hmem => hline ?_, hafter⟩
  have hrest := (mem_cuts.mp hc').1
  simp only [List.mem_append, List.mem_reverse, List.mem_cons] at hmem ⊢
  rcases hmem with hmem | hmem
  · refine .inr (.inr ?_)
    rw [hrest]
    exact List.mem_append_left _ (List.mem_reverse.mpr hmem)
  · have hnewline : '\n' ≠ '(' ∧ '\n' ≠ ')' := by decide
    tauto

/-- A written line without a title is taken apart as it was put together, if no later cut is
better. The gap is the blanks on both sides of the title. -/
theorem taskParts?_untitled {level : Nat} {ds tail m : List Char} (hlevel : 1 ≤ level)
    (hne : ds ≠ []) (hds : ∀ c ∈ ds, Text.isDigit c) (htail : modifierText? tail = some m)
    (hnone : ∀ c ∈ cuts ('(' :: (ds ++ ')' :: tail)), c.titled → modifierText? c.after = none) :
    taskParts? (written level [] ds tail) = some ⟨level, [], ds, m⟩ := by
  rw [taskParts?_written_eq hlevel]
  exact congrArg (Option.map _) (chooseCut?_untitled [' ', ' '] rfl hne hds htail hnone)

/-! ## The same title before other modifiers -/

/-- A line that is read with the title it was written with is so too after its duration and the
words next to it have been replaced. -/
theorem taskParts?_retailed {level : Nat} {title ds ds' u u' rest m' : List Char} {p : TaskParts}
    (hlevel : 1 ≤ level) (hline : '\n' ∉ written level title ds (u ++ rest))
    (h : taskParts? (written level title ds (u ++ rest)) = some p) (htitle : p.title = title)
    (hds : ∀ c ∈ ds', Text.isDigit c) (hne : ds' ≠ []) (hu' : '(' ∉ u')
    (htail : modifierText? (u' ++ rest) = some m') :
    taskParts? (written level title ds' (u' ++ rest)) = some ⟨level, title, ds', m'⟩ := by
  have hparts : '\n' ∉ title ∧ '\n' ∉ ds ++ (u ++ rest) := by
    simp only [written, List.mem_append, List.mem_cons] at hline ⊢
    tauto
  have hopen : '(' ∉ ds' := fun hmem => absurd (hds _ hmem) (by decide)
  by_cases hnil : title = []
  · subst hnil
    -- no cut behind the first one is better in either line
    rw [taskParts?_written_eq hlevel] at h
    obtain ⟨⟨c, mods⟩, hchoose, rfl⟩ := Option.map_eq_some_iff.mp h
    refine taskParts?_untitled hlevel hne hds htail fun c' hc' htitled => ?_
    obtain ⟨c₀, hc₀, htitled₀, hafter⟩ := exists_cut_of_retailed hopen hu' hparts.2 hc' htitled
    rw [← hafter]
    exact no_modifiers_of_chosen hchoose (strip_eq_nil htitle) c₀ hc₀ htitled₀
  · have hstrip : Text.strip title = title := by
      rw [taskParts?_written_eq hlevel] at h
      obtain ⟨⟨c, mods⟩, -, rfl⟩ := Option.map_eq_some_iff.mp h
      rw [← htitle, strip_strip]
    rw [taskParts?_titled hlevel hnil hstrip] at h
    obtain ⟨⟨c, mods⟩, hchoose, rfl⟩ := Option.map_eq_some_iff.mp h
    have hlength : title.length ≤ c.seen.length := by
      have hbefore : c.before.length = c.seen.length := List.length_reverse
      rw [← htitle, ← hbefore]
      exact length_strip_le c.before
    have hbody : '\n' ∉ title ++ ' ' :: '(' :: (ds ++ ')' :: (u ++ rest)) := by
      simp only [written, List.mem_append, List.mem_cons] at hline ⊢
      tauto
    exact taskParts?_written hlevel hnil hstrip hparts.1
      (unambiguous_of_chosen hbody hchoose hlength) hne hds htail

/-! ## Other days -/

def Task.redated (t : Task) (start : Option Date) (duration : Int) : Task :=
  { t with explicitStart := start, duration := duration }

theorem applyAll_redated {ms : List Modifier} (h : ∀ d, .start d ∉ ms) (t : Task)
    (start : Option Date) (duration : Int) :
    (t.redated start duration).applyAll ms = (t.applyAll ms).redated start duration := by
  rw [Task.applyAll, Task.applyAll]
  induction ms generalizing t with
  | nil => rfl
  | cons m ms ih =>
      have hm : (t.redated start duration).apply m = (t.apply m).redated start duration := by
        cases m with
        | start d => exact absurd List.mem_cons_self (h d)
        | _ => rfl
      rw [List.foldl_cons, List.foldl_cons, hm]
      exact ih (fun d hd => h d (List.mem_cons_of_mem m hd)) _

/-- The modifiers that come first on the line of a task. -/
def Task.lead (t : Task) : List Modifier :=
  t.dependencies.map .after ++ (t.explicitStart.map .start).toList

/-- The text behind them. -/
def Task.rest (t : Task) : List Char := spaced (t.stamps.map Prod.snd)

theorem spaced_renderMarks (t : Task) :
    spaced ((t.dependencies.map Modifier.after).map (·.token.render)
      ++ (t.renderMarks ++ t.renderNote)) = Modifier.renderAll t.lead ++ t.rest := by
  rw [renderMarks_eq, ← List.append_assoc, ← List.map_append, spaced, List.flatMap_append]
  rfl

theorem mem_render_lead {t : Task} {m : Modifier} (hm : m ∈ t.lead) {c : Char}
    (hc : c ∈ m.token.render) : c ∈ "@after:@start:".toList ∨ c = '-' ∨ c ∈ Text.tenDigits := by
  rcases List.mem_append.mp hm with hm | hm
  · obtain ⟨n, -, rfl⟩ := List.mem_map.mp hm
    rw [render_after, List.mem_append] at hc
    exact hc.imp (fun hc => List.mem_append_left "@start:".toList hc) fun hc => Text.mem_intDigits hc
  · obtain ⟨d, -, rfl⟩ := Option.map_eq_some_iff.mp (Option.mem_toList.mp hm)
    rw [render_start, List.mem_append] at hc
    exact hc.imp (fun hc => List.mem_append_right "@after:".toList hc) fun hc => Date.mem_isoChars hc

theorem mem_lead {t : Task} {c : Char} (hc : c ∈ Modifier.renderAll t.lead) :
    c = ' ' ∨ c ∈ "@after:@start:".toList ∨ c = '-' ∨ c ∈ Text.tenDigits := by
  obtain ⟨w, hw, hc⟩ := List.mem_flatMap.mp hc
  obtain ⟨m, hm, rfl⟩ := List.mem_map.mp hw
  exact (List.mem_cons.mp hc).imp_right fun hc => mem_render_lead hm hc

theorem head?_stamps {t : Task} : ∀ w ∈ t.stamps, w.2.head? = some '@' := by
  intro w hw
  simp only [Task.stamps, List.mem_append] at hw
  rcases hw with ((hw | hw) | hw) | hw
  · split at hw
    · rw [List.mem_singleton.mp hw]
      rfl
    · cases hw
  · obtain ⟨word, hword, rfl⟩ := Option.map_eq_some_iff.mp (Option.mem_toList.mp hw)
    rcases statusWord_eq_some hword with ⟨rfl, -⟩ | ⟨rfl, -⟩ | ⟨rfl, -⟩
    · rfl
    · rfl
    · rfl
  · split at hw
    · split at hw
      · cases hw
      · rw [List.mem_singleton.mp hw]
        rfl
    · cases hw
  · split at hw
    · split at hw
      · cases hw
      · rw [List.mem_singleton.mp hw]
        rfl
    · cases hw

theorem Task.OneLine.rest {t : Task} (ht : t.OneLine) : Outline.OneLine t.rest := by
  refine oneLine_spaced fun w hw => ?_
  have hmem : w ∈ t.renderMarks ++ t.renderNote := by
    rw [renderMarks_eq]
    exact List.mem_append_right _ hw
  exact (List.mem_append.mp hmem).elim (ht.renderMarks w) (ht.renderNote w)

theorem oneLine_lead (t : Task) : OneLine (Modifier.renderAll t.lead) :=
  ⟨fun hc => absurd (mem_lead hc) (by decide), fun hc => absurd (mem_lead hc) (by decide)⟩

/-- What is read behind the duration: the modifiers that come first, and those found behind them. -/
theorem modifierText?_lead {t : Task} (ht : t.OneLine) (hfits : ∀ n ∈ t.dependencies, Text.Fits n) :
    ∃ m, modifierText? (Modifier.renderAll t.lead ++ t.rest) = some m
      ∧ Modifier.scan m = t.lead ++ Modifier.scan t.rest := by
  have hwords : Modifier.renderAll t.lead ++ t.rest
      = spaced (t.lead.map (·.token.render) ++ t.stamps.map Prod.snd) := by
    rw [spaced, List.flatMap_append]
    rfl
  have hat : ∀ w ∈ t.lead.map (·.token.render) ++ t.stamps.map Prod.snd, w.head? = some '@' := by
    intro w hw
    rcases List.mem_append.mp hw with hw | hw
    · obtain ⟨m, -, rfl⟩ := List.mem_map.mp hw
      rfl
    · obtain ⟨stamp, hstamp, rfl⟩ := List.mem_map.mp hw
      exact head?_stamps stamp hstamp
  have hreadable : ∀ m ∈ t.lead, m.Readable := by
    intro m hm
    rcases List.mem_append.mp hm with hm | hm
    · obtain ⟨n, hn, rfl⟩ := List.mem_map.mp hm
      exact hfits n hn
    · obtain ⟨d, -, rfl⟩ := Option.map_eq_some_iff.mp (Option.mem_toList.mp hm)
      trivial
  have hnext : ∀ c ∈ t.rest.head?, Text.isBlank c := by
    rw [Task.rest]
    cases t.stamps with
    | nil => rintro c ⟨⟩
    | cons stamp stamps =>
        rintro c ⟨⟩
        rfl
  have hline := ((oneLine_lead t).append ht.rest).1
  rw [hwords] at hline
  obtain ⟨m, hm, hscan⟩ := modifierText?_spaced hat hline
  rw [← hwords] at hm hscan
  exact ⟨m, hm, hscan.trans (Modifier.scan_renderAll_append hreadable hnext)⟩

theorem applyAll_lead {t₀ t : Task} (hdependencies : t₀.dependencies = [])
    (hstart : t₀.explicitStart = none) : t₀.applyAll t.lead
      = { t₀ with dependencies := t.dependencies, explicitStart := t.explicitStart } := by
  rw [Task.lead, applyAll_append, applyAll_after, hdependencies, List.nil_append]
  exact applyAll_start (t := { t₀ with dependencies := t.dependencies }) hstart t.explicitStart

/-- The line of a task, with its first modifiers apart. -/
theorem render_eq_ok_iff {t : Task} (hlasting : 0 ≤ t.duration) {line : List Char} :
    t.render = .ok line ↔ t.level < levelLimits.1 ∧ Text.Fits t.duration
      ∧ (∀ n ∈ t.dependencies, Text.Fits n)
      ∧ line = written t.level.toNat t.title.toList (Text.natDigits t.duration.natAbs)
          (Modifier.renderAll t.lead ++ t.rest) := by
  rw [← spaced_renderMarks, ← Text.intDigits_of_nonneg hlasting]
  constructor
  · intro h
    obtain ⟨hlevel, hduration, hdependencies, words, hwords, hline⟩ := renderWith_eq_ok h
    cases hwords
    exact ⟨hlevel, hduration, hdependencies, hline⟩
  · rintro ⟨hlevel, hduration, hdependencies, rfl⟩
    exact renderWith_of_fits hlevel hduration hdependencies _

/-- The task without what the text behind its start says. -/
def Task.stem (t : Task) : Task where
  level := t.level
  title := t.title
  duration := t.duration
  line := t.line
  dependencies := t.dependencies
  explicitStart := t.explicitStart

/-- The parts of the line of a task. -/
def Task.parts (t : Task) (modifiers : List Char) : TaskParts :=
  ⟨t.level.toNat, t.title.toList, Text.natDigits t.duration.natAbs, modifiers⟩

theorem applyAll_parts {t : Task} (hlevel : 0 ≤ t.level) (hlasting : 0 ≤ t.duration)
    {modifiers : List Char} (hscan : Modifier.scan modifiers = t.lead ++ Modifier.scan t.rest) :
    ((t.parts modifiers).plain t.line).applyAll (Modifier.scan modifiers)
      = t.stem.applyAll (Modifier.scan t.rest) := by
  have hplain : (t.parts modifiers).plain t.line
      = { level := t.level, title := t.title, duration := t.duration, line := t.line } := by
    rw [TaskParts.plain, Task.parts, Text.digitsValue_natDigits, String.ofList_toList,
      Int.toNat_of_nonneg hlevel, Int.natAbs_of_nonneg hlasting]
  rw [hplain, hscan, applyAll_append, applyAll_lead rfl rfl]
  rfl

/-- A canonical line is cut where it was put together, and so it is with another day and another
duration. -/
theorem taskParts?_redated {line : Text.Line} {number : Int} {t : Task} (hline : OneLine line)
    (hread : readTask? line number = .ok (some t)) (hrender : t.render = .ok line)
    (start : Option Date) (duration : Int) {m : List Char}
    (hm : modifierText? (Modifier.renderAll (t.redated start duration).lead ++ t.rest) = some m) :
    taskParts? (written t.level.toNat t.title.toList (Text.natDigits duration.natAbs)
      (Modifier.renderAll (t.redated start duration).lead ++ t.rest))
        = some ((t.redated start duration).parts m) := by
  obtain ⟨p, hp, -, hlevel, hlasting, -, -⟩ := readTask?_eq_some hread
  obtain ⟨-, -, -, heq⟩ := (render_eq_ok_iff hlasting).mp hrender
  have htitle : p.title = t.title.toList := by
    rw [readTask?_of_parts number hp] at hread
    split at hread
    · cases hread
    · cases hread
      rw [(applyAll_head _ _).2.1, TaskParts.plain, String.toList_ofList]
  rw [dropTrailing_of_oneLine hline] at hp
  rw [heq] at hp hline
  exact taskParts?_retailed (by omega) hline.1 hp htitle
    (fun c hc => Text.isDigit_of_mem (Text.mem_natDigits hc)) (Text.natDigits_ne_nil _)
    (fun hc => absurd (mem_lead hc) (by decide)) hm

/-- What the modifiers behind the start make of a task, they make of it again. No start is among
them. -/
theorem applyAll_rest {line : Text.Line} {number : Int} {t : Task} (hline : OneLine line)
    (hread : readTask? line number = .ok (some t)) (hrender : t.render = .ok line) :
    t.stem.applyAll (Modifier.scan t.rest) = t ∧ ∀ d, .start d ∉ Modifier.scan t.rest := by
  obtain ⟨p, hp, -, hlevel, hlasting, hnumber, hone⟩ := readTask?_eq_some hread
  obtain ⟨-, -, hdependencies, heq⟩ := (render_eq_ok_iff hlasting).mp hrender
  obtain ⟨m, hm, hscan⟩ := modifierText?_lead (hone hline) hdependencies
  have hparts := taskParts?_redated hline hread hrender t.explicitStart t.duration hm
  have hstem : t.stem.applyAll (Modifier.scan t.rest) = t := by
    rw [← applyAll_parts (by omega) hlasting hscan, hnumber]
    rw [readTask?_of_parts number (p := t.parts m) (by
      rw [dropTrailing_of_oneLine hline, heq]
      exact hparts)] at hread
    split at hread
    · cases hread
    · exact Option.some.inj (Except.ok.inj hread)
  have hstems := stems_applyAll t.stem (Modifier.scan t.rest)
  rw [hstem] at hstems
  exact ⟨hstem, start_not_mem_scan ⟨rfl, rfl, rfl, rfl, rfl⟩ hstems⟩

/-- A canonical line takes any day and any duration that is not too long. -/
theorem exists_redated {line : Text.Line} {number : Int} {t : Task} (hline : OneLine line)
    (hread : readTask? line number = .ok (some t)) (hrender : t.render = .ok line)
    (start : Option Date) {duration : Int} (hpos : 0 ≤ duration) (hfits : Text.Fits duration) :
    ∃ line', (t.redated start duration).render = .ok line' ∧ OneLine line'
      ∧ readTask? line' number = .ok (some (t.redated start duration)) := by
  obtain ⟨-, -, -, hlevel, hlasting, hnumber, hone⟩ := readTask?_eq_some hread
  obtain ⟨hdeep, -, hdependencies, -⟩ := (render_eq_ok_iff hlasting).mp hrender
  obtain ⟨hstem, hnone⟩ := applyAll_rest hline hread hrender
  have ht := hone hline
  have hnew : (t.redated start duration).OneLine := ⟨ht.title, ht.color, ht.note⟩
  obtain ⟨m, hm, hscan⟩ := modifierText?_lead hnew hdependencies
  have hdigits : OneLine (Text.natDigits duration.natAbs) :=
    oneLine_of_digits fun c hc => .inr (Text.mem_natDigits hc)
  have hone' : OneLine (written t.level.toNat t.title.toList (Text.natDigits duration.natAbs)
      (Modifier.renderAll (t.redated start duration).lead ++ t.rest)) :=
    oneLine_written ht.title hdigits ((oneLine_lead (t.redated start duration)).append ht.rest)
  refine ⟨_, (render_eq_ok_iff (t := t.redated start duration) hpos).mpr
    ⟨hdeep, hfits, hdependencies, rfl⟩, hone', ?_⟩
  have hparts := taskParts?_redated hline hread hrender start duration hm
  rw [← dropTrailing_of_oneLine hone'] at hparts
  have hshort : ¬ Fault.maxDigits < ((t.redated start duration).parts m).digits.length :=
    Nat.not_lt.mpr hfits
  have happly := applyAll_parts (t := t.redated start duration) (Int.le_of_lt hlevel) hpos hscan
  have hredated : (t.redated start duration).stem.applyAll (Modifier.scan t.rest)
      = t.redated start duration := by
    have h := applyAll_redated hnone t.stem start duration
    rwa [hstem] at h
  refine (readTask?_of_parts number hparts).trans ?_
  rw [if_neg hshort, ← hnumber]
  exact congrArg (fun t => Except.ok (some t)) (happly.trans hredated)

end Roadmap.Outline
