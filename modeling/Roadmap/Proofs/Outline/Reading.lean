import Roadmap.Outline.Document
import Roadmap.Proofs.Outline.TaskLine

/-!
# What a task line gives

Whatever line a task is read from: its level is at least one, its duration is not negative, and its
texts are made of characters of the line, so a line without line ends gives none to its task.
-/

namespace Roadmap.Outline

/-! ## Steps that can fail -/

theorem bind_eq_ok {α β : Type} {e : Except Fault α} {k : α → Except Fault β} {b : β}
    (h : e >>= k = .ok b) : ∃ a, e = .ok a ∧ k a = .ok b := by
  cases e with
  | error f => cases h
  | ok a => exact ⟨a, rfl, h⟩

theorem exists_eq_ok {α : Type} {e : Except Fault α} (h : e.toOption.isSome) :
    ∃ a, e = .ok a := by
  cases e with
  | error f => cases h
  | ok a => exact ⟨a, rfl⟩

/-! ## Parts of a line -/

theorem chooseCut?_eq_some {gap body m : List Char} {c : Cut}
    (h : chooseCut? gap body = some (c, m)) :
    c ∈ cuts body ∧ (modifierText? c.after = some m ∨ freeText? c.after = some m) := by
  have htail : ∀ {tail : List Char → Option (List Char)} {fits : Cut → Bool} {all : List Cut},
      all.findSome? (Cut.withTail tail fits) = some (c, m) → c ∈ all ∧ tail c.after = some m := by
    intro tail fits all h
    obtain ⟨c', hc', heq⟩ := List.exists_of_findSome?_eq_some h
    obtain ⟨m', hm', heq⟩ := Option.bind_eq_some_iff.mp heq
    split at heq
    · cases heq
      exact ⟨hc', hm'⟩
    · cases heq
  rw [chooseCut?] at h
  rcases Option.or_eq_some_iff.mp h with h | ⟨-, h⟩
  · exact (htail h).imp_right .inl
  rcases Option.or_eq_some_iff.mp h with h | ⟨-, h⟩
  · exact (htail h).imp_right .inl
  rcases Option.or_eq_some_iff.mp h with h | ⟨-, h⟩
  · exact (htail h).imp (fun hc => List.mem_reverse.mp hc) .inr
  · exact (htail h).imp_right .inr

theorem mem_of_modifierText? {after m : List Char} (h : modifierText? after = some m) {c : Char}
    (hc : c ∈ m) : c ∈ after := by
  refine (List.dropWhile_sublist Text.isBlank).subset ?_
  unfold modifierText? at h
  split at h
  · cases h
    cases hc
  · next rest heq =>
      rw [heq]
      split at h
      · cases h
        rcases List.mem_cons.mp hc with rfl | hc
        · exact List.mem_cons_self
        · exact List.mem_cons_of_mem _ ((List.takeWhile_sublist _).subset hc)
      · cases h
  · cases h

theorem mem_of_freeText? {after m : List Char} (h : freeText? after = some m) {c : Char}
    (hc : c ∈ m) : c ∈ after := by
  have hdrop : ∀ {s : List Char}, c ∈ dropFinalBreak s → c ∈ s := by
    intro s hs
    rw [dropFinalBreak] at hs
    split at hs
    · exact List.mem_of_mem_dropLast hs
    · exact hs
  simp only [freeText?] at h
  split at h
  · cases h
  · cases h
    exact hdrop hc

theorem mem_of_dropTrailing {p : Char → Bool} {s : List Char} {c : Char}
    (h : c ∈ Text.dropTrailing p s) : c ∈ s := by
  rw [Text.dropTrailing, List.mem_reverse] at h
  exact List.mem_reverse.mp ((List.dropWhile_sublist p).subset h)

theorem mem_of_strip {s : List Char} {c : Char} (h : c ∈ Text.strip s) : c ∈ s :=
  (List.dropWhile_sublist Text.isBlank).subset (mem_of_dropTrailing h)

/-- A line taken apart has markers and a number, and its other parts are characters of it. -/
theorem taskParts?_eq_some {line : List Char} {p : TaskParts} (h : taskParts? line = some p) :
    1 ≤ p.level ∧ p.digits ≠ [] ∧ (∀ c ∈ p.digits, Text.isDigit c)
      ∧ (∀ c ∈ p.title, c ∈ line) ∧ ∀ c ∈ p.modifiers, c ∈ line := by
  simp only [taskParts?] at h
  split at h
  · cases h
  · next hmarkers =>
      obtain ⟨⟨c, m⟩, hchoose, rfl⟩ := Option.map_eq_some_iff.mp h
      obtain ⟨hcut, htail⟩ := chooseCut?_eq_some hchoose
      obtain ⟨hbody, hne, hdigits⟩ := mem_cuts.mp hcut
      rw [Bool.or_eq_true, not_or, List.isEmpty_iff] at hmarkers
      have hline : ∀ x, x ∈ c.before ∨ x ∈ c.after → x ∈ line := by
        intro x hx
        have hbody' : x ∈ (line.dropWhile (· == '>')).dropWhile Text.isBlank := by
          rw [hbody]
          simp only [List.mem_append, List.mem_cons]
          exact hx.imp_right fun hx => .inr (.inr (.inr hx))
        exact (List.dropWhile_sublist _).subset ((List.dropWhile_sublist _).subset hbody')
      refine ⟨List.length_pos_iff.mpr hmarkers.1, hne, hdigits,
        fun x hx => hline x (.inl (mem_of_strip hx)), fun x hx => hline x (.inr ?_)⟩
      rcases htail with htail | htail
      · exact mem_of_modifierText? htail hx
      · exact mem_of_freeText? htail hx

/-! ## Values of modifiers -/

theorem mem_of_readValue? {s v rest : List Char} (h : readValue? s = some (v, rest)) :
    (∀ c ∈ v, c ∈ s) ∧ ∀ c ∈ rest, c ∈ s := by
  rcases Option.or_eq_some_iff.mp h with h | ⟨-, h⟩
  · rw [(quotedValue?_eq_some h).1]
    exact ⟨fun c hc => by simp [hc], fun c hc => by simp [hc]⟩
  · rw [(bareValue?_eq_some h).1]
    exact ⟨fun c hc => List.mem_append_left _ hc, fun c hc => List.mem_append_right _ hc⟩

theorem mem_of_readToken? {s rest : List Char} {t : Token} (h : readToken? s = some (t, rest)) :
    (∀ v ∈ t.value, ∀ c ∈ v, c ∈ s) ∧ ∀ c ∈ rest, c ∈ s := by
  unfold readToken? at h
  split at h
  · cases h
  · split at h
    · next tail heq =>
        have htail : ∀ c, c ∈ ':' :: tail → c ∈ s :=
          fun c hc => (List.dropWhile_sublist Text.isWord).subset (heq ▸ hc)
        split at h
        · next hvalue =>
            cases h
            obtain ⟨hv, hrest⟩ := mem_of_readValue? hvalue
            refine ⟨?_, fun c hc => htail c (List.mem_cons_of_mem _ (hrest c hc))⟩
            rintro v ⟨⟩ c hc
            exact htail c (List.mem_cons_of_mem _ (hv c hc))
        · cases h
          exact ⟨by rintro v ⟨⟩, htail⟩
    · cases h
      exact ⟨by rintro v ⟨⟩, fun c hc => (List.dropWhile_sublist _).subset hc⟩

theorem mem_of_tokens {s : List Char} {t : Token} (ht : t ∈ tokens s) :
    ∀ v ∈ t.value, ∀ c ∈ v, c ∈ s := by
  fun_induction tokens s with
  | case1 => cases ht
  | case2 rest t' after hread ih =>
      obtain ⟨hvalue, hafter⟩ := mem_of_readToken? hread
      rcases List.mem_cons.mp ht with rfl | ht
      · exact fun v hv c hc => List.mem_cons_of_mem _ (hvalue v hv c hc)
      · exact fun v hv c hc => List.mem_cons_of_mem _ (hafter c (ih ht v hv c hc))
  | case3 rest hread ih => exact fun v hv c hc => List.mem_cons_of_mem _ (ih ht v hv c hc)
  | case4 c' rest hne ih => exact fun v hv c hc => List.mem_cons_of_mem _ (ih ht v hv c hc)

/-- The key of a token and its value, by the modifier that it stands for. -/
theorem ofToken?_eq_some {t : Token} {m : Modifier} (h : Modifier.ofToken? t = some m) :
    t.key = m.token.key ∧ (∀ c, m = .color c → ∃ v, t.value = some v ∧ c = normalizeColor v)
      ∧ ∀ n, m = .note n → ∃ v, t.value = some v ∧ n = String.ofList v := by
  have hkey : ∀ {key : String}, String.ofList t.key = key → t.key = key.toList := by
    rintro key rfl
    exact String.toList_ofList.symm
  unfold Modifier.ofToken? at h
  split at h
  case h_1 heq =>
    split at h
    · cases h
      exact ⟨hkey heq, by rintro c ⟨⟩, by rintro n ⟨⟩⟩
    · cases h
  case h_6 heq =>
    obtain ⟨v, hv, rfl⟩ := Option.map_eq_some_iff.mp h
    exact ⟨hkey heq, by rintro c ⟨⟩; exact ⟨v, hv, rfl⟩, by rintro n ⟨⟩⟩
  case h_7 heq =>
    obtain ⟨d, -, rfl⟩ := Option.map_eq_some_iff.mp h
    exact ⟨hkey heq, by rintro c ⟨⟩, by rintro n ⟨⟩⟩
  case h_8 heq =>
    obtain ⟨v, hv, rfl⟩ := Option.map_eq_some_iff.mp h
    exact ⟨hkey heq, by rintro c ⟨⟩, by rintro n ⟨⟩; exact ⟨v, hv, rfl⟩⟩
  case h_9 => cases h
  all_goals
    next heq =>
      cases h
      exact ⟨hkey heq, by rintro c ⟨⟩, by rintro n ⟨⟩⟩

/-! ## Tasks without line ends -/

/-- The text holds nothing that ends a line, in a file or within a session. -/
def OneLine (s : List Char) : Prop := '\n' ∉ s ∧ '\r' ∉ s

theorem OneLine.of_subset {s u : List Char} (h : OneLine s) (hsub : ∀ c ∈ u, c ∈ s) : OneLine u :=
  ⟨fun hc => h.1 (hsub _ hc), fun hc => h.2 (hsub _ hc)⟩

theorem OneLine.append {s u : List Char} (hs : OneLine s) (hu : OneLine u) : OneLine (s ++ u) :=
  ⟨fun hc => (List.mem_append.mp hc).elim hs.1 hu.1,
    fun hc => (List.mem_append.mp hc).elim hs.2 hu.2⟩

theorem oneLine_normalizeColor {v : List Char} (h : OneLine v) :
    OneLine (normalizeColor v).toList := by
  have hhash : OneLine ['#'] := ⟨by decide, by decide⟩
  rw [normalizeColor, String.toList_ofList]
  exact hhash.append (h.of_subset fun c hc => (List.dropWhile_sublist _).subset hc)

/-- The texts of the task are each part of one line. -/
structure Task.OneLine (t : Task) : Prop where
  title : Outline.OneLine t.title.toList
  color : ∀ c ∈ t.color, Outline.OneLine c.toList
  note : ∀ n ∈ t.note, Outline.OneLine n.toList

theorem Task.OneLine.scan {s : List Char} (hs : Outline.OneLine s) {t : Task} (ht : t.OneLine) :
    (t.applyAll (Modifier.scan s)).OneLine := by
  have hvalue : ∀ m ∈ Modifier.scan s, (∀ c, m = .color c → Outline.OneLine c.toList)
      ∧ ∀ n, m = .note n → Outline.OneLine n.toList := by
    intro m hm
    obtain ⟨token, htoken, hof⟩ := List.mem_filterMap.mp hm
    obtain ⟨-, hcolor, hnote⟩ := ofToken?_eq_some hof
    refine ⟨fun c hc => ?_, fun n hn => ?_⟩
    · obtain ⟨v, hv, rfl⟩ := hcolor c hc
      exact oneLine_normalizeColor (hs.of_subset (mem_of_tokens htoken v hv))
    · obtain ⟨v, hv, rfl⟩ := hnote n hn
      rw [String.toList_ofList]
      exact hs.of_subset (mem_of_tokens htoken v hv)
  rw [Task.applyAll]
  generalize Modifier.scan s = ms at hvalue ⊢
  induction ms generalizing t with
  | nil => exact ht
  | cons m ms ih =>
      refine ih ?_ fun m' hm' => hvalue m' (List.mem_cons_of_mem _ hm')
      obtain ⟨hcolor, hnote⟩ := hvalue m List.mem_cons_self
      cases m with
      | color c => exact ⟨ht.title, by rintro _ ⟨⟩; exact hcolor c rfl, ht.note⟩
      | note n => exact ⟨ht.title, ht.color, by rintro _ ⟨⟩; exact hnote n rfl⟩
      | _ => exact ⟨ht.title, ht.color, ht.note⟩

/-! ## Reading a line -/

/-- Modifiers leave the rest of a task alone. -/
theorem applyAll_head (t : Task) (ms : List Modifier) :
    (t.applyAll ms).level = t.level ∧ (t.applyAll ms).title = t.title
      ∧ (t.applyAll ms).duration = t.duration ∧ (t.applyAll ms).line = t.line := by
  rw [Task.applyAll]
  induction ms generalizing t with
  | nil => exact ⟨rfl, rfl, rfl, rfl⟩
  | cons m ms ih =>
      have hm : (t.apply m).level = t.level ∧ (t.apply m).title = t.title
          ∧ (t.apply m).duration = t.duration ∧ (t.apply m).line = t.line := by
        cases m <;> exact ⟨rfl, rfl, rfl, rfl⟩
      obtain ⟨hlevel, htitle, hduration, hline⟩ := ih (t.apply m)
      exact ⟨hlevel.trans hm.1, htitle.trans hm.2.1, hduration.trans hm.2.2.1,
        hline.trans hm.2.2.2⟩

/-- The task with the given parts, before its modifiers are applied. -/
def TaskParts.plain (p : TaskParts) (number : Int) : Task where
  level := p.level
  title := String.ofList p.title
  duration := Text.digitsValue p.digits
  line := number

/-- A line that can be taken apart is a task, unless its duration has too many digits. -/
theorem readTask?_of_parts {line : List Char} {p : TaskParts} (number : Int)
    (h : taskParts? (Text.dropTrailing (· == '\r') line) = some p) :
    readTask? line number = if Fault.maxDigits < p.digits.length
      then .error (.integerTooLong p.digits.length)
      else .ok (some ((p.plain number).applyAll (Modifier.scan p.modifiers))) := by
  obtain ⟨-, hne, hdigits, -⟩ := taskParts?_eq_some h
  rw [readTask?, h]
  simp only [Text.readInt_of_digits hne hdigits]
  split
  · rfl
  · rfl

theorem readTask?_of_no_parts {line : List Char} (number : Int)
    (h : taskParts? (Text.dropTrailing (· == '\r') line) = none) :
    readTask? line number = .ok none := by
  rw [readTask?, h]

/-- What is certain of a task, whatever its line. -/
theorem readTask?_eq_some {line : List Char} {number : Int} {t : Task}
    (h : readTask? line number = .ok (some t)) :
    ∃ p, taskParts? (Text.dropTrailing (· == '\r') line) = some p ∧ t.level = p.level
      ∧ 1 ≤ t.level ∧ 0 ≤ t.duration ∧ t.line = number ∧ (OneLine line → t.OneLine) := by
  cases hparts : taskParts? (Text.dropTrailing (· == '\r') line) with
  | none =>
      rw [readTask?_of_no_parts number hparts] at h
      cases h
  | some p =>
      rw [readTask?_of_parts number hparts] at h
      split at h
      · cases h
      · obtain ⟨hone, -, -, htitle, hmodifiers⟩ := taskParts?_eq_some hparts
        cases h
        obtain ⟨hlevel, -, hduration, hline⟩ := applyAll_head (p.plain number)
          (Modifier.scan p.modifiers)
        rw [hlevel, hduration, hline]
        refine ⟨p, rfl, rfl, Int.ofNat_le.mpr hone, Int.natCast_nonneg _, rfl, fun hone => ?_⟩
        have hpart : ∀ {u : List Char},
            (∀ c ∈ u, c ∈ Text.dropTrailing (· == '\r') line) → OneLine u :=
          fun hu => hone.of_subset fun c hc => mem_of_dropTrailing (hu c hc)
        refine Task.OneLine.scan (hpart hmodifiers) ⟨?_, by rintro c ⟨⟩, by rintro n ⟨⟩⟩
        rw [TaskParts.plain, String.toList_ofList]
        exact hpart htitle

end Roadmap.Outline
