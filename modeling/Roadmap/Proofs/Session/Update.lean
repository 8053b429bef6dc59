import Roadmap.Proofs.Session.Drag

/-!
# Changing the fields of one task

The new line of a task goes where the old one was, and is then read back as part of the text. The
lines around it stay as they are, whatever its texts hold (`linesOf_splice`), but a line end in one
of them cuts it into several lines, and these may be headers and tasks of their own
(`not_update_frame_desk`). Without line ends the line stays one and keeps its shape, so projects and
tasks stay on their lines.
-/

namespace Roadmap

/-! ## A text in the place of a line -/

namespace Text

theorem linesOf_append (s u : List Char) : linesOf (s ++ '\n' :: u) = linesOf s ++ linesOf u := by
  induction s with
  | nil => rfl
  | cons c s ih =>
      by_cases hc : c = '\n'
      · rw [List.cons_append, linesOf, if_pos hc, linesOf, if_pos hc, ih]
        rfl
      · obtain ⟨line, lines, hs⟩ := List.exists_cons_of_ne_nil (linesOf_ne_nil s)
        rw [hs] at ih
        rw [List.cons_append, linesOf, if_neg hc, ih, linesOf, if_neg hc, hs]
        rfl

theorem universal_cons_of_ne {c : Char} (h : c ≠ '\r') (s : List Char) :
    universal (c :: s) = c :: universal s := by
  rw [universal]
  · rintro rest rfl
    exact absurd rfl h
  · exact h

theorem universal_append_of_not_mem {s : List Char} (h : '\r' ∉ s) (u : List Char) :
    universal (s ++ u) = s ++ universal u := by
  induction s with
  | nil => rfl
  | cons c s ih =>
      rw [List.mem_cons, not_or] at h
      rw [List.cons_append, universal_cons_of_ne (Ne.symm h.1), ih h.2]
      rfl

/-- A line feed ends a line, whatever stands in front of it. A carriage return there is no line of
its own. -/
theorem exists_universal_append (s u : List Char) :
    ∃ v, universal (s ++ '\n' :: u) = v ++ '\n' :: universal u := by
  fun_induction universal s with
  | case1 => exact ⟨[], universal_cons_of_ne (by decide) u⟩
  | case2 rest ih =>
      obtain ⟨v, hv⟩ := ih
      refine ⟨'\n' :: v, ?_⟩
      show universal ('\r' :: '\n' :: (rest ++ '\n' :: u)) = _
      rw [universal, hv]
      rfl
  | case3 rest hrest ih =>
      obtain ⟨v, hv⟩ := ih
      cases rest with
      | nil =>
          refine ⟨[], ?_⟩
          show universal ('\r' :: '\n' :: u) = _
          rw [universal]
          rfl
      | cons a rest =>
          refine ⟨'\n' :: v, ?_⟩
          show universal ('\r' :: (a :: rest ++ '\n' :: u)) = _
          rw [universal, hv]
          · rfl
          · intro rest' heq
            obtain ⟨rfl, -⟩ := List.cons.inj heq
            exact hrest rest rfl
  | case4 c rest _ hne ih =>
      obtain ⟨v, hv⟩ := ih
      refine ⟨c :: v, ?_⟩
      rw [List.cons_append, universal_cons_of_ne hne, hv]
      rfl

/-- A text that takes the place of a line becomes one or more lines, and the others stay. -/
theorem linesOf_splice {lines : List Line} (h : ∀ l ∈ lines, Outline.OneLine l) {i : Nat}
    (hi : i < lines.length) (s : List Char) :
    ∃ new, new ≠ [] ∧ linesOf (universal (unlines (lines.set i s)))
      = lines.take i ++ new ++ lines.drop (i + 1) := by
  induction lines generalizing i with
  | nil => cases hi
  | cons line lines ih =>
      have hlater : ∀ l ∈ lines, Outline.OneLine l := fun l hl => h l (List.mem_cons_of_mem line hl)
      cases i with
      | zero =>
          by_cases hne : lines = []
          · subst hne
            exact ⟨linesOf (universal s), linesOf_ne_nil _, (List.append_nil _).symm⟩
          · obtain ⟨v, hv⟩ := exists_universal_append s (unlines lines)
            refine ⟨linesOf v, linesOf_ne_nil v, ?_⟩
            rw [List.set_cons_zero, Outline.unlines_cons_of_ne_nil hne, hv, linesOf_append,
              universal_of_not_mem (Outline.carriageReturn_not_mem_unlines hlater),
              linesOf_unlines hne fun l hl => (hlater l hl).1]
            rfl
      | succ i =>
          obtain ⟨new, hnew, heq⟩ := ih hlater (Nat.lt_of_succ_lt_succ hi)
          have hline := h line List.mem_cons_self
          have hset : lines.set i s ≠ [] := by
            rw [Ne, List.set_eq_nil_iff]
            rintro rfl
            exact absurd (Nat.lt_of_succ_lt_succ hi) (Nat.not_lt_zero i)
          refine ⟨new, hnew, ?_⟩
          rw [List.set_cons_succ, Outline.unlines_cons_of_ne_nil hset,
            universal_append_of_not_mem hline.2, universal_cons_of_ne (by decide),
            linesOf_append_newline hline.1, heq]
          rfl

end Text

namespace Session

open Work

/-! ## What an update comes to -/

section

variable {d d' : Desk} {id : String} {changes : List Outline.Change} {t : Plan.Task}
  {p : Plan.Project}

theorem update_eq_ok {r : Option Plan.Task} (htask : d.session.task? id = some (t, p))
    (h : (update id changes).on d = (.ok r, d')) :
    ∃ (text : String) (o : Outline), Outline.patchLine d.session.text t.line changes = .ok text
      ∧ Outline.read (Text.unix text) d.session.today = .ok o
      ∧ d'.session.text = Text.unix text ∧ d'.session.today = d.session.today := by
  rw [on_update, htask] at h
  simp only at h
  split at h
  · cases h
  · next text hpatch =>
      have hstored := stored_store text d
      rcases heq : (store text).on d with ⟨f | _, d₁⟩
      all_goals rw [heq] at h hstored
      · cases h
      · cases hstored with
        | loaded path disk o hpath hwrite hread =>
            refine ⟨text, o, hpatch, hread, ?_⟩
            simp only at h
            split at h
            · cases h
              exact ⟨rfl, rfl⟩
            · split at h
              · cases h
                exact ⟨rfl, rfl⟩
              · cases h
                exact ⟨rfl, rfl⟩

theorem exists_update {text path : String} {disk : Disk} {o : Outline}
    (htask : d.session.task? id = some (t, p))
    (hpatch : Outline.patchLine d.session.text t.line changes = .ok text)
    (hpath : d.session.path = some path) (hwrite : d.disk.write path text = .ok disk)
    (hread : Outline.read (Text.unix text) d.session.today = .ok o) :
    ∃ r d', (update id changes).on d = (.ok r, d') ∧ d'.session.text = Text.unix text := by
  rw [on_update, htask]
  simp only [hpatch, on_store, hpath, hwrite, hread]
  split
  · exact ⟨_, _, rfl, rfl⟩
  · split
    · exact ⟨_, _, rfl, rfl⟩
    · exact ⟨_, _, rfl, rfl⟩

/-! ## One line and no other -/

/-- An update that returns has put one or more lines in the place of the task's line and left all
others as they were. If no text of the changes holds a line end, it is one line again, and projects
and tasks stand on the same lines as before. -/
theorem update_frame (h : d.Reachable) (htask : d.session.task? id = some (t, p))
    {r : Option Plan.Task} (hupdate : (update id changes).on d = (.ok r, d')) :
    ∃ (i : Nat) (new : List Text.Line) (o o' : Outline), t.line = i + 1
      ∧ i < (Text.linesOf d.session.text.toList).length ∧ new ≠ []
      ∧ Text.linesOf d'.session.text.toList = (Text.linesOf d.session.text.toList).take i ++ new
        ++ (Text.linesOf d.session.text.toList).drop (i + 1)
      ∧ Outline.read d.session.text d.session.today = .ok o
      ∧ Outline.read d'.session.text d'.session.today = .ok o'
      ∧ ((∀ c ∈ changes, c.OneLine) → new.length = 1
        ∧ o'.projects.map Outline.Project.spots = o.projects.map Outline.Project.spots) := by
  obtain ⟨o, path, -, hread, hprojects, hunix⟩ := h.sound.exists_loaded htask
  obtain ⟨text, o', hpatch, hread', htext, htoday⟩ := update_eq_ok htask hupdate
  obtain ⟨hp, ht, -⟩ := (task?_eq_some_iff h.sound).mp htask
  obtain ⟨k, p₀, t₀, -, hp₀, ht₀, -, -, -, -, hline⟩ := Plan.exists_place (hprojects ▸ hp) ht
  obtain ⟨i, line, hi, hnumber, htask₀⟩ := Outline.exists_line hread (List.mem_of_getElem? hp₀)
    (List.mem_of_getElem? ht₀)
  have hlt := (List.getElem?_eq_some_iff.mp hi).1
  have hone : ∀ l ∈ Text.linesOf d.session.text.toList, Outline.OneLine l :=
    fun l hl => Outline.oneLine_of_mem_linesOf hunix hl
  -- the patch has set the line of the task
  have hset := hpatch
  rw [hline, Outline.patchLine_of_read hi hnumber htask₀] at hset
  obtain ⟨line', -, hset⟩ := Outline.bind_eq_ok hset
  cases hset
  obtain ⟨new, hnew, hsplice⟩ := Text.linesOf_splice hone hlt (line' ++ Outline.lineEnding line)
  have hafter : Text.linesOf d'.session.text.toList
      = (Text.linesOf d.session.text.toList).take i ++ new
        ++ (Text.linesOf d.session.text.toList).drop (i + 1) := by
    rw [htext, Text.unix, String.toList_ofList, String.toList_ofList, hsplice]
  rw [← htext] at hread'
  refine ⟨i, new, o, o', hline.trans hnumber, hlt, hnew, hafter, hread, htoday ▸ hread',
    fun hc => ?_⟩
  have hshape := Outline.patchLine_shape hunix hc hpatch
  have hsame : (Text.linesOf d'.session.text.toList).map Outline.shape
      = (Text.linesOf d.session.text.toList).map Outline.shape := by
    rw [htext, Text.unix_of_not_mem hshape.unix]
    exact hshape.shape
  refine ⟨?_, Outline.spots_of_shapes hsame hread' hread⟩
  have hlength := congrArg List.length hsame
  rw [List.length_map, List.length_map, hafter, List.length_append, List.length_append,
    List.length_take, List.length_drop] at hlength
  omega

end

/-! ### A title that is more than a title -/

namespace Sample

theorem exists_update_desk {changes : List Outline.Change} {text : String}
    (hpatch : Outline.patchLine "## P\n> T (1)" 2 changes = .ok text)
    (hread : (Outline.read (Text.unix text) monday).toOption.isSome) :
    ∃ r d', (update "project-0-task-0" changes).on (desk none 1000000 {}) = (.ok r, d')
      ∧ d'.session.text = Text.unix text := by
  obtain ⟨o, ho⟩ := Outline.exists_eq_ok hread
  have hwrite : (desk none 1000000 {}).disk.write "roadmap.md" text
      = .ok ⟨.file (.text text) 1001000, 1001000⟩ := rfl
  exact exists_update (task?_desk 1000000 {}) hpatch rfl hwrite ho

end Sample

/-- A title that holds a number in parentheses makes another task of the line, but not two. -/
theorem update_frame_desk :
    ∃ r d', (update "project-0-task-0" [.title " Plan (2) @home "]).on (Sample.desk none 1000000 {})
        = (.ok r, d')
      ∧ ∃ line o o', Text.linesOf d'.session.text.toList = ["## P".toList, line]
        ∧ Outline.read (Sample.text none) Sample.monday = .ok o
        ∧ Outline.read d'.session.text d'.session.today = .ok o'
        ∧ o'.projects.map Outline.Project.spots = o.projects.map Outline.Project.spots := by
  have hpatch : Outline.patchLine "## P\n> T (1)" 2 [.title " Plan (2) @home "]
      = .ok "## P\n> Plan (2) @home (1)" := by
    decide +kernel
  obtain ⟨r, d', hupdate, -⟩ := Sample.exists_update_desk hpatch (by decide +kernel)
  have hone : ∀ c ∈ [Outline.Change.title " Plan (2) @home "], c.OneLine := by
    intro c hc
    rw [List.mem_singleton.mp hc]
    exact ⟨by decide, by decide⟩
  obtain ⟨i, new, o, o', hline, -, -, hlines, hread, hread', hsame⟩ :=
    update_frame Sample.reachable_desk (Sample.task?_desk 1000000 {}) hupdate
  obtain rfl : i = 1 := by
    have h2 : (Sample.task none).line = 2 := rfl
    omega
  obtain ⟨hlength, hspots⟩ := hsame hone
  obtain ⟨line, rfl⟩ := List.length_eq_one_iff.mp hlength
  exact ⟨r, d', hupdate, line, o, o', hlines, hread, hread', hspots⟩

/-- A title with line ends writes a header and a second task below the one that it is the title
of. -/
theorem not_update_frame_desk : (Sample.desk none 1000000 {}).Reachable
    ∧ (Sample.desk none 1000000 {}).isStale = false
    ∧ ∃ r d', (update "project-0-task-0" [.title "A (1)\n## Q\n> B"]).on
        (Sample.desk none 1000000 {}) = (.ok r, d')
      ∧ (Text.linesOf d'.session.text.toList).length = 4
      ∧ (Text.linesOf (Sample.desk none 1000000 {}).session.text.toList).length = 2 := by
  have hpatch : Outline.patchLine "## P\n> T (1)" 2 [.title "A (1)\n## Q\n> B"]
      = .ok "## P\n> A (1)\n## Q\n> B (1)" := by
    decide +kernel
  obtain ⟨r, d', hupdate, htext⟩ := Sample.exists_update_desk hpatch (by decide +kernel)
  refine ⟨Sample.reachable_desk, rfl, r, d', hupdate, ?_, rfl⟩
  rw [htext, Text.unix_of_not_mem (by decide)]
  decide

end Session

end Roadmap
