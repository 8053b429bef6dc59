import Roadmap.Proofs.Outline.Shape

/-!
# The words behind the start

In the row of words behind the duration of a task there come first the dependencies, then the start,
then up to four more (`Task.stamps`). The last two hold free text, a color and a note, and such text
can look like modifiers. But where the task was read from this very row, no start hides in it
(`start_not_mem_scan`), for want of room: each of the words has a token of its own kind that is at
least as long, so the blanks between them are all that is left for another one.
-/

namespace Roadmap.Outline

/-! ## Room for tokens -/

theorem length_renderValue_le (v : List Char) : (renderValue v).length ≤ v.length + 2 := by
  rw [renderValue]
  split
  · simp
  · omega

theorem le_length_renderValue (v : List Char) : v.length ≤ (renderValue v).length := by
  rw [renderValue]
  split
  · rw [List.length_cons, List.length_append]
    omega
  · exact Nat.le_refl _

theorem length_readValue? {s v rest : List Char} (h : readValue? s = some (v, rest)) :
    (renderValue v).length + rest.length ≤ s.length := by
  rcases Option.or_eq_some_iff.mp h with h | ⟨-, h⟩
  · have := length_renderValue_le v
    rw [(quotedValue?_eq_some h).1, List.length_cons, List.length_append, List.length_cons]
    omega
  · obtain ⟨rfl, -, hbare⟩ := bareValue?_eq_some h
    rw [renderValue_of_plain fun c hc => isBareValue_iff.mp (hbare c hc), List.length_append]

theorem length_readToken? {s rest : List Char} {t : Token} (h : readToken? s = some (t, rest)) :
    t.render.length + rest.length ≤ s.length + 1 := by
  have hsplit := congrArg List.length
    (List.takeWhile_append_dropWhile (p := Text.isWord) (l := s))
  rw [List.length_append] at hsplit
  unfold readToken? at h
  split at h
  · cases h
  · split at h
    · next tail heq =>
        rw [heq, List.length_cons] at hsplit
        split at h
        · next hvalue =>
            cases h
            have := length_readValue? hvalue
            simp only [Token.render, List.length_cons, List.length_append]
            omega
        · cases h
          simp only [Token.render, List.append_nil, List.length_cons]
          omega
    · cases h
      simp only [Token.render, List.append_nil, List.length_cons]
      omega

/-- The tokens of a text fit into it side by side. -/
theorem sum_tokens_le (s : List Char) : ((tokens s).map (·.render.length)).sum ≤ s.length := by
  fun_induction tokens s with
  | case1 => exact Nat.le_refl 0
  | case2 rest t after hread ih =>
      have := length_readToken? hread
      rw [List.map_cons, List.sum_cons, List.length_cons]
      omega
  | case3 rest hread ih => exact Nat.le_succ_of_le ih
  | case4 c rest hne ih => exact Nat.le_succ_of_le ih

/-- Words that have each a token of its own key, at least as long, fit where the tokens fit. -/
theorem sum_le_of_keys {ws : List (List Char × Nat)} {ts : List Token}
    (hkeys : (ws.map Prod.fst).Nodup)
    (h : ∀ w ∈ ws, ∃ t ∈ ts, t.key = w.1 ∧ w.2 ≤ t.render.length) :
    (ws.map Prod.snd).sum ≤ (ts.map (·.render.length)).sum := by
  induction ws generalizing ts with
  | nil => exact Nat.zero_le _
  | cons w ws ih =>
      rw [List.map_cons, List.nodup_cons] at hkeys
      obtain ⟨t, ht, hkey, hlength⟩ := h w List.mem_cons_self
      have hrest : ∀ v ∈ ws, ∃ u ∈ ts.erase t, u.key = v.1 ∧ v.2 ≤ u.render.length := by
        intro v hv
        obtain ⟨u, hu, hukey, hulength⟩ := h v (List.mem_cons_of_mem w hv)
        have hne : u ≠ t := by
          rintro rfl
          refine hkeys.1 ?_
          rw [← hkey, hukey]
          exact List.mem_map_of_mem hv
        exact ⟨u, (List.mem_erase_of_ne hne).mpr hu, hukey, hulength⟩
      have := ih hkeys.2 hrest
      have hsum := List.sum_map_erase (fun u : Token => u.render.length) ht
      rw [List.map_cons, List.sum_cons]
      omega

theorem length_spaced (words : List (List Char)) :
    (spaced words).length = (words.map List.length).sum + words.length := by
  induction words with
  | nil => rfl
  | cons w words ih =>
      rw [spaced, List.flatMap_cons, ← spaced, List.length_append, ih, List.map_cons, List.sum_cons,
        List.length_cons, List.length_cons]
      omega

/-! ## Where fields come from -/

/-- Each mark of a task comes from a modifier that was applied, or was there before. -/
structure Task.Stems (t : Task) (ms : List Modifier) (t' : Task) : Prop where
  milestone : t'.isMilestone → t.isMilestone ∨ .milestone ∈ ms
  status : t'.status = t.status ∨ .status t'.status ∈ ms
  done : t'.isDone → t.isDone ∨ .status .done ∈ ms
  color : ∀ c ∈ t'.color, t.color = some c ∨ .color c ∈ ms
  note : ∀ n ∈ t'.note, t.note = some n ∨ .note n ∈ ms

theorem stems_applyAll (t : Task) (ms : List Modifier) : t.Stems ms (t.applyAll ms) := by
  rw [Task.applyAll]
  induction ms generalizing t with
  | nil => exact ⟨.inl, .inl rfl, .inl, fun c hc => .inl hc, fun n hn => .inl hn⟩
  | cons m ms ih =>
      obtain ⟨hmilestone, hstatus, hdone, hcolor, hnote⟩ := ih (t.apply m)
      have hlater : ∀ {m' : Modifier}, m' ∈ ms → m' ∈ m :: ms := List.mem_cons_of_mem m
      refine ⟨fun h => ?_, ?_, fun h => ?_, fun c hc => ?_, fun n hn => ?_⟩
      · rcases hmilestone h with h | h
        · cases m with
          | milestone => exact .inr List.mem_cons_self
          | _ => exact .inl h
        · exact .inr (hlater h)
      · rcases hstatus with h | h
        · cases m with
          | status s =>
              refine .inr ?_
              rw [List.foldl_cons, h]
              exact List.mem_cons_self
          | _ => exact .inl h
        · exact .inr (hlater h)
      · rcases hdone h with h | h
        · cases m with
          | status s =>
              rcases Bool.or_eq_true _ _ ▸ h with h | h
              · exact .inl h
              · obtain rfl := beq_iff_eq.mp h
                exact .inr List.mem_cons_self
          | _ => exact .inl h
        · exact .inr (hlater h)
      · rcases hcolor c hc with h | h
        · cases m with
          | color c' =>
              obtain rfl := Option.some.inj h
              exact .inr List.mem_cons_self
          | _ => exact .inl h
        · exact .inr (hlater h)
      · rcases hnote n hn with h | h
        · cases m with
          | note n' =>
              obtain rfl := Option.some.inj h
              exact .inr List.mem_cons_self
          | _ => exact .inl h
        · exact .inr (hlater h)

/-! ## No start behind the start -/

/-- The words after the start of a task, each with the key of its token. -/
def Task.stamps (t : Task) : List (List Char × List Char) :=
  (if t.isMilestone then [("milestone".toList, "@milestone".toList)] else [])
    ++ (t.statusWord.map fun w => (w.toList.tail, w.toList)).toList
    ++ (match t.color with
      | some c => if c.isEmpty then []
          else [("color".toList, "@color:".toList ++ c.toList.dropWhile (· == '#'))]
      | none => [])
    ++ (match t.note with
      | some n => if n.isEmpty then [] else [("note".toList, "@note:".toList ++ renderValue n.toList)]
      | none => [])

theorem renderMarks_eq (t : Task) : t.renderMarks ++ t.renderNote
    = (t.explicitStart.map Modifier.start).toList.map (·.token.render)
      ++ t.stamps.map Prod.snd := by
  have hstart : (t.explicitStart.map fun d => "@start:".toList ++ d.isoChars).toList
      = (t.explicitStart.map Modifier.start).toList.map (·.token.render) := by
    cases t.explicitStart with
    | none => rfl
    | some d => exact congrArg ([·]) (render_start d).symm
  have hmilestone : (if t.isMilestone then ["@milestone".toList] else [])
      = (if t.isMilestone then [("milestone".toList, "@milestone".toList)] else []).map Prod.snd := by
    cases t.isMilestone with
    | false => rfl
    | true => rfl
  have hstatus : (t.statusWord.map String.toList).toList
      = (t.statusWord.map fun w => (w.toList.tail, w.toList)).toList.map Prod.snd := by
    cases t.statusWord with
    | none => rfl
    | some w => rfl
  have hcolor : (match t.color with
      | some c => if c.isEmpty then [] else ["@color:".toList ++ c.toList.dropWhile (· == '#')]
      | none => []) = (match t.color with
      | some c => if c.isEmpty then []
          else [("color".toList, "@color:".toList ++ c.toList.dropWhile (· == '#'))]
      | none => []).map Prod.snd := by
    cases t.color with
    | none => rfl
    | some c =>
        simp only
        split
        · rfl
        · rfl
  have hnote : t.renderNote = (match t.note with
      | some n => if n.isEmpty then [] else [("note".toList, "@note:".toList ++ renderValue n.toList)]
      | none => []).map Prod.snd := by
    rw [Task.renderNote]
    cases t.note with
    | none => rfl
    | some n =>
        simp only
        split
        · rfl
        · rfl
  rw [Task.renderMarks, hstart, hmilestone, hstatus, hnote, Task.stamps]
  simp only [List.map_append, List.append_assoc]
  exact congrArg (_ ++ ·) (congrArg (_ ++ ·) (congrArg (_ ++ ·) (congrArg (· ++ _) hcolor)))

theorem statusWord_eq_some {t : Task} {w : String} (h : t.statusWord = some w) :
    (w = "@done" ∧ (t.status = .done ∨ t.isDone)) ∨ (w = "@progress" ∧ t.status = .inProgress)
      ∨ (w = "@cancelled" ∧ t.status = .cancelled) := by
  rw [Task.statusWord] at h
  split at h
  · next hdone =>
      cases h
      exact .inl ⟨rfl, by simpa using hdone⟩
  · split at h
    · next hs =>
        cases h
        exact .inr (.inl ⟨rfl, hs⟩)
    · next hs =>
        cases h
        exact .inr (.inr ⟨rfl, hs⟩)
    · cases h

/-- The words behind the start are few, and no two of them have one key. -/
theorem keys_stamps (t : Task) :
    ("start".toList :: t.stamps.map Prod.fst).Nodup ∧ t.stamps.length ≤ 4 := by
  have hstatus : ∃ s ∈ ["done", "progress", "cancelled"],
      (t.statusWord.map fun w => (w.toList.tail, w.toList)).toList.map Prod.fst
        |>.Sublist [s.toList] := by
    cases hw : t.statusWord with
    | none => exact ⟨"done", by decide, List.nil_sublist _⟩
    | some w =>
        rcases statusWord_eq_some hw with ⟨rfl, -⟩ | ⟨rfl, -⟩ | ⟨rfl, -⟩
        · exact ⟨"done", by decide, List.Sublist.refl _⟩
        · exact ⟨"progress", by decide, List.Sublist.refl _⟩
        · exact ⟨"cancelled", by decide, List.Sublist.refl _⟩
  obtain ⟨s, hs, hstatus⟩ := hstatus
  have hsub : (t.stamps.map Prod.fst).Sublist
      ((["milestone".toList] ++ [s.toList]) ++ ["color".toList] ++ ["note".toList]) := by
    rw [Task.stamps, List.map_append, List.map_append, List.map_append]
    refine ((List.Sublist.append ?_ hstatus).append ?_).append ?_
    · split
      · exact List.Sublist.refl _
      · exact List.nil_sublist _
    · split
      · split
        · exact List.nil_sublist _
        · exact List.Sublist.refl _
      · exact List.nil_sublist _
    · split
      · split
        · exact List.nil_sublist _
        · exact List.Sublist.refl _
      · exact List.nil_sublist _
  have hnodup : ∀ s ∈ ["done", "progress", "cancelled"], ["start".toList, "milestone".toList,
      s.toList, "color".toList, "note".toList].Nodup := by
    decide
  refine ⟨(hsub.cons_cons _).nodup (hnodup s hs), ?_⟩
  have := hsub.length_le
  rwa [List.length_map] at this

theorem key_le_render (t : Token) : t.key.length + 1 ≤ t.render.length := by
  rw [Token.render, List.length_cons, List.length_append]
  omega

theorem dropWhile_normalizeColor (v : List Char) :
    (normalizeColor v).toList.dropWhile (· == '#') = v.dropWhile (· == '#') := by
  rw [normalizeColor, String.toList_ofList, List.dropWhile_cons_of_pos (by decide),
    List.dropWhile_idempotent]

/-- The marks that a task has only by modifiers. -/
structure Task.Unmarked (t : Task) : Prop where
  milestone : t.isMilestone = false
  status : t.status = .pending
  done : t.isDone = false
  color : t.color = none
  note : t.note = none

/-! ### Tokens of the words -/

section

variable {s : List Char}

theorem exists_token_of_mem_scan {m : Modifier} (hm : m ∈ Modifier.scan s) :
    ∃ token ∈ tokens s, token.key = m.token.key ∧ m.token.key.length + 1 ≤ token.render.length := by
  obtain ⟨token, htoken, hof⟩ := List.mem_filterMap.mp hm
  have hkey := (ofToken?_eq_some hof).1
  exact ⟨token, htoken, hkey, hkey ▸ key_le_render token⟩

theorem exists_token_of_color {c : String} (hc : .color c ∈ Modifier.scan s) :
    ∃ token ∈ tokens s, token.key = "color".toList
      ∧ ("@color:".toList ++ c.toList.dropWhile (· == '#')).length ≤ token.render.length := by
  obtain ⟨token, htoken, hof⟩ := List.mem_filterMap.mp hc
  obtain ⟨hkey, hvalue, -⟩ := ofToken?_eq_some hof
  obtain ⟨v, hv, rfl⟩ := hvalue c rfl
  have hdrop := Text.length_dropWhile_le (· == '#') v
  have := le_length_renderValue v
  refine ⟨token, htoken, hkey, ?_⟩
  rw [dropWhile_normalizeColor, Token.render, hkey, hv, List.length_append, List.length_cons,
    List.length_append, List.length_cons, show "@color:".toList.length = 7 from rfl,
    show (Modifier.color (normalizeColor v)).token.key.length = 5 from rfl]
  omega

theorem exists_token_of_note {n : String} (hn : .note n ∈ Modifier.scan s) :
    ∃ token ∈ tokens s, token.key = "note".toList
      ∧ ("@note:".toList ++ renderValue n.toList).length ≤ token.render.length := by
  obtain ⟨token, htoken, hof⟩ := List.mem_filterMap.mp hn
  obtain ⟨hkey, -, hvalue⟩ := ofToken?_eq_some hof
  obtain ⟨v, hv, rfl⟩ := hvalue n rfl
  have hlist : (String.ofList v).toList = v := String.toList_ofList
  refine ⟨token, htoken, hkey, ?_⟩
  rw [hlist, Token.render, hkey, hv]
  exact Nat.le_refl _

variable {t₀ t : Task} (hplain : t₀.Unmarked) (hstems : t₀.Stems (Modifier.scan s) t)

include hplain hstems

theorem mem_scan_of_statusWord {word : String} (hword : t.statusWord = some word) :
    ∃ status, .status status ∈ Modifier.scan s
      ∧ (Modifier.status status).token.key = word.toList.tail
      ∧ word.toList.length = word.toList.tail.length + 1 := by
  have hstatus : t.status ≠ .pending → .status t.status ∈ Modifier.scan s :=
    fun hne => hstems.status.resolve_left fun h => hne (h.trans hplain.status)
  rcases statusWord_eq_some hword with ⟨rfl, h | h⟩ | ⟨rfl, h⟩ | ⟨rfl, h⟩
  · exact ⟨_, hstatus (by simp [h]), by rw [h]; rfl, rfl⟩
  · exact ⟨_, (hstems.done h).resolve_left (by simp [hplain.done]), rfl, rfl⟩
  · exact ⟨_, hstatus (by simp [h]), by rw [h]; rfl, rfl⟩
  · exact ⟨_, hstatus (by simp [h]), by rw [h]; rfl, rfl⟩

/-- Where a task got its marks from a text, each of its words behind the start has a token there. -/
theorem exists_token_of_stamp {w : List Char × List Char} (hw : w ∈ t.stamps) :
    ∃ token ∈ tokens s, token.key = w.1 ∧ w.2.length ≤ token.render.length := by
  simp only [Task.stamps, List.mem_append] at hw
  rcases hw with ((hw | hw) | hw) | hw
  · split at hw
    · next h =>
        rw [List.mem_singleton.mp hw]
        exact exists_token_of_mem_scan ((hstems.milestone h).resolve_left (by simp [hplain.milestone]))
    · cases hw
  · obtain ⟨word, hword, rfl⟩ := Option.map_eq_some_iff.mp (Option.mem_toList.mp hw)
    obtain ⟨status, hmem, hkey, hlength⟩ := mem_scan_of_statusWord hplain hstems hword
    obtain ⟨token, htoken, heq, hle⟩ := exists_token_of_mem_scan hmem
    rw [hkey] at heq hle
    exact ⟨token, htoken, heq, hlength ▸ hle⟩
  · split at hw
    · next c hc =>
        split at hw
        · cases hw
        · rw [List.mem_singleton.mp hw]
          exact exists_token_of_color ((hstems.color c hc).resolve_left (by simp [hplain.color]))
    · cases hw
  · split at hw
    · next n hn =>
        split at hw
        · cases hw
        · rw [List.mem_singleton.mp hw]
          exact exists_token_of_note ((hstems.note n hn).resolve_left (by simp [hplain.note]))
    · cases hw

end

/-- There is no room for another start. -/
theorem start_not_mem_scan {t₀ t : Task} (hplain : t₀.Unmarked)
    (hstems : t₀.Stems (Modifier.scan (spaced (t.stamps.map Prod.snd))) t) (d : Date) :
    .start d ∉ Modifier.scan (spaced (t.stamps.map Prod.snd)) := by
  intro hmem
  obtain ⟨token, htoken, hof⟩ := List.mem_filterMap.mp hmem
  have hkey := (ofToken?_eq_some hof).1
  have hstart := key_le_render token
  rw [hkey, show (Modifier.start d).token.key.length = 5 from rfl] at hstart
  obtain ⟨hnodup, hfew⟩ := keys_stamps t
  have hroom : ((("start".toList, 6) :: t.stamps.map fun w => (w.1, w.2.length)).map Prod.snd).sum
      ≤ ((tokens (spaced (t.stamps.map Prod.snd))).map (·.render.length)).sum := by
    refine sum_le_of_keys (by simpa [Function.comp_def] using hnodup) fun w hw => ?_
    rcases List.mem_cons.mp hw with rfl | hw
    · exact ⟨token, htoken, hkey, hstart⟩
    · obtain ⟨stamp, hstamp, rfl⟩ := List.mem_map.mp hw
      exact exists_token_of_stamp hplain hstems hstamp
  have hfit := sum_tokens_le (spaced (t.stamps.map Prod.snd))
  rw [length_spaced] at hfit
  simp only [List.map_cons, List.map_map, List.sum_cons, Function.comp_def, List.length_map] at hroom hfit
  omega

end Roadmap.Outline
