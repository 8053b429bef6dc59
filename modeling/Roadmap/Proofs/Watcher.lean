import Mathlib
import Roadmap.Proofs.Text.Double
import Roadmap.Watcher

/-!
# What a watcher reports

A watcher looks at its file again and again and answers each look with whether it reports a change.
Between two looks it remembers which change is pending since when, and what it has reported last. A
look comes to one of five things (`Polled`), and everything here is read off them.

What is pending was found at some look, and again at each look since then (`seenSince_of_pending`).
So a report comes at least a window after the look that found the change first (`seen_of_report`).
Time is measured as doubles tell it, which never takes a whole window for less (`hasPassed_of_le`).
The file need not have been quiet all that time, though: a look at the change that was reported last
answers at once and does not end the window of the one that is pending (`not_quiet_flicker`).

While looks find nothing but one and the same change, it is reported at the first look that comes a
window after it was first seen, and at no other (`answers_of_lasting`).
-/

namespace Roadmap.Watcher

/-! ## Windows -/

/-- Once a window has passed, doubles do not tell otherwise. -/
theorem hasPassed_of_le {window : Double} {since now : Rat} (hsince : since ≤ now)
    (h : window.toRat ≤ now - since) : hasPassed window since now := by
  rw [hasPassed, Number.not_isBelow_ofRat (sub_nonneg.mpr hsince) h]
  rfl

/-- A window takes some time. -/
theorem not_hasPassed_self {window : Double} (h : 0 < window.toRat) (now : Rat) :
    hasPassed window now now = false := by
  rw [hasPassed, sub_self, Number.ofRat_zero, Number.isBelow, Number.toRat_zero, decide_eq_true h]
  rfl

/-! ## One look -/

/-- What a look at the file can come to. -/
inductive Polled (w : Watcher) (now : Rat) : Bool → Option Int → Watcher × Bool → Prop
  /-- The file is as it was loaded. -/
  | current (fileTime : Option Int) :
      Polled w now false fileTime ({ w with pending := none }, false)
  /-- There is no file. -/
  | missing : Polled w now true none ({ w with pending := none }, false)
  /-- The change is the one that was reported last. -/
  | known {m : Int} (hreported : w.reported = some m) : Polled w now true (some m) (w, false)
  /-- The change has not lasted long enough. -/
  | waits {m : Int} (hreported : w.reported ≠ some m)
      (hwindow : hasPassed w.window (w.firstSeen m now) now = false) :
      Polled w now true (some m) ({ w with pending := some ⟨m, w.firstSeen m now⟩ }, false)
  /-- The change is reported. -/
  | reports {m : Int} (hreported : w.reported ≠ some m)
      (hwindow : hasPassed w.window (w.firstSeen m now) now) :
      Polled w now true (some m) ({ w with pending := none, reported := some m }, true)

/-- A change counts from the look that finds it, unless it is the one that is pending. -/
theorem firstSeen_or_pending (w : Watcher) (m : Int) (now : Rat) :
    w.firstSeen m now = now ∨ w.pending = some ⟨m, w.firstSeen m now⟩ := by
  unfold firstSeen
  split
  · next p hp =>
      split
      · next hm => exact .inr (hm ▸ hp)
      · exact .inl rfl
  · exact .inl rfl

theorem firstSeen_cases (w : Watcher) (m : Int) (now : Rat) :
    w.firstSeen m now = now ∨ ∃ p, w.pending = some p ∧ w.firstSeen m now = p.since :=
  (w.firstSeen_or_pending m now).imp_right fun hp => ⟨_, hp, rfl⟩

theorem firstSeen_of_new {w : Watcher} {m : Int} (h : w.isNew m) (now : Rat) :
    w.firstSeen m now = now := by
  unfold isNew at h
  unfold firstSeen
  split
  · next p hp =>
      rw [hp] at h
      rw [if_neg (by simpa using h)]
  · rfl

theorem firstSeen_of_pending {w : Watcher} {m : Int} {since : Rat}
    (h : w.pending = some ⟨m, since⟩) (now : Rat) : w.firstSeen m now = since := by
  unfold firstSeen
  rw [h]
  exact if_pos rfl

theorem polled_poll (w : Watcher) (stale : Bool) (fileTime : Option Int) (now : Rat) :
    Polled w now stale fileTime (w.poll stale fileTime now) := by
  unfold poll
  split
  · exact .current _
  · exact .missing
  · next m =>
      split
      · next hreported => exact .known hreported
      · next hreported =>
          split
          · next hnew =>
              refine .waits hreported ?_
              rw [firstSeen_of_new hnew.1]
              exact not_hasPassed_self hnew.2 now
          · dsimp only
            split
            · next hwindow => exact .reports hreported hwindow
            · next hwindow => exact .waits hreported (Bool.eq_false_iff.mpr hwindow)

/-! ## Rows of looks -/

/-- What a look finds: whether the file has changed since it was loaded, and the time it shows, if
it is there. -/
structure Look where
  now : Rat
  stale : Bool
  fileTime : Option Int

/-- There is a change to be seen, and the file has the time `m`. -/
def Look.Shows (k : Look) (m : Int) : Prop := k.stale ∧ k.fileTime = some m

def look (w : Watcher) (k : Look) : Watcher × Bool := w.poll k.stale k.fileTime k.now

/-- The watcher after some looks. -/
def after (w : Watcher) (ks : List Look) : Watcher := ks.foldl (fun w k => (w.look k).1) w

/-- The answers to some looks. -/
def answers (w : Watcher) : List Look → List Bool
  | [] => []
  | k :: ks => (w.look k).2 :: (w.look k).1.answers ks

theorem polled_look (w : Watcher) (k : Look) :
    w.Polled k.now k.stale k.fileTime (w.look k) :=
  w.polled_poll k.stale k.fileTime k.now

theorem after_concat (w : Watcher) (ks : List Look) (k : Look) :
    w.after (ks ++ [k]) = ((w.after ks).look k).1 := by
  rw [after, List.foldl_append]
  rfl

theorem window_look (w : Watcher) (k : Look) : (w.look k).1.window = w.window := by
  have hpolled := w.polled_look k
  generalize k.stale = stale, k.fileTime = fileTime, w.look k = looked at hpolled ⊢
  cases hpolled <;> rfl

/-- A look that reports nothing leaves what has been reported. -/
theorem reported_of_quiet {w : Watcher} {k : Look} (h : (w.look k).2 = false) :
    (w.look k).1.reported = w.reported := by
  have hpolled := w.polled_look k
  generalize k.stale = stale, k.fileTime = fileTime, w.look k = looked at hpolled h ⊢
  cases hpolled with
  | reports => cases h
  | _ => rfl

/-- A look that reports a change remembers the time of the file. -/
theorem reported_of_report {w : Watcher} {k : Look} (h : (w.look k).2 = true) :
    (w.look k).1.reported = k.fileTime := by
  have hpolled := w.polled_look k
  generalize k.stale = stale, k.fileTime = fileTime, w.look k = looked at hpolled h ⊢
  cases hpolled with
  | reports => rfl
  | _ => cases h

theorem window_after (w : Watcher) (ks : List Look) : (w.after ks).window = w.window := by
  induction ks using List.reverseRecOn with
  | nil => rfl
  | append_singleton ks k ih => rw [after_concat, window_look, ih]

/-! ## What has been waited for -/

/-- One of the looks, at the time `since`, found the file changed and with the time `m`, and each
later one found something that `admits` it. -/
def SeenSince (ks : List Look) (m : Int) (since : Rat) (admits : Look → Prop) : Prop :=
  ∃ before first between, ks = before ++ first :: between ∧ first.now = since ∧ first.Shows m
    ∧ ∀ k ∈ between, admits k

theorem SeenSince.concat {ks : List Look} {m : Int} {since : Rat} {admits : Look → Prop}
    (h : SeenSince ks m since admits) {k : Look} (hk : admits k) :
    SeenSince (ks ++ [k]) m since admits := by
  obtain ⟨before, first, between, rfl, hsince, hshows, hbetween⟩ := h
  refine ⟨before, first, between ++ [k], by simp, hsince, hshows, ?_⟩
  exact List.forall_mem_append.mpr ⟨hbetween, List.forall_mem_singleton.mpr hk⟩

theorem seenSince_concat (ks : List Look) {k : Look} {m : Int} (hk : k.Shows m)
    (admits : Look → Prop) : SeenSince (ks ++ [k]) m k.now admits :=
  ⟨ks, k, [], rfl, rfl, hk, List.forall_mem_nil _⟩

/-- The look finds the time `m`, or the one that the watcher has reported last. -/
def Admits (w : Watcher) (m : Int) (k : Look) : Prop :=
  k.Shows m ∨ ∃ l, w.reported = some l ∧ k.Shows l

/-- What is pending has been seen at some look, and at each later one it or the change that was
reported last. -/
theorem seenSince_of_pending {w : Watcher} (hnone : w.pending = none) {ks : List Look}
    {p : Pending} (h : (w.after ks).pending = some p) :
    SeenSince ks p.fileTime p.since ((w.after ks).Admits p.fileTime) := by
  induction ks using List.reverseRecOn generalizing p with
  | nil =>
      rw [show w.after [] = w from rfl, hnone] at h
      cases h
  | append_singleton ks k ih =>
      rw [after_concat] at h ⊢
      generalize w.after ks = v at h ih ⊢
      obtain ⟨now, stale, fileTime⟩ := k
      have hpolled := v.polled_look ⟨now, stale, fileTime⟩
      generalize hlook : v.look ⟨now, stale, fileTime⟩ = looked at h hpolled ⊢
      dsimp only at hpolled
      cases hpolled with
      | current => cases h
      | missing => cases h
      | known hreported => exact (ih h).concat (.inr ⟨_, hreported, rfl, rfl⟩)
      | reports => cases h
      | @waits m =>
          obtain rfl := Option.some.inj h
          rcases v.firstSeen_or_pending m now with heq | hpending
          · dsimp only
            rw [heq]
            exact seenSince_concat ks ⟨rfl, rfl⟩ _
          · exact (ih hpending).concat (.inl ⟨rfl, rfl⟩)

/-- A change is reported a whole window after a look that has found it, and at every look since then
the file has shown this change or the one that was reported last. -/
theorem seen_of_report {w : Watcher} (hnone : w.pending = none) (hwindow : 0 < w.window.toRat)
    {earlier : List Look} {last : Look} (h : ((w.after earlier).look last).2 = true) :
    ∃ m since, last.Shows m ∧ hasPassed w.window since last.now
      ∧ SeenSince earlier m since ((w.after earlier).Admits m) := by
  rw [← window_after w earlier] at hwindow ⊢
  have hseen : ∀ p, (w.after earlier).pending = some p →
      SeenSince earlier p.fileTime p.since ((w.after earlier).Admits p.fileTime) :=
    fun p hp => seenSince_of_pending hnone hp
  generalize w.after earlier = v at h hwindow hseen ⊢
  obtain ⟨now, stale, fileTime⟩ := last
  have hpolled := v.polled_look ⟨now, stale, fileTime⟩
  generalize v.look ⟨now, stale, fileTime⟩ = looked at h hpolled
  dsimp only at hpolled
  cases hpolled with
  | @reports m _ hlasted =>
      refine ⟨m, v.firstSeen m now, ⟨rfl, rfl⟩, hlasted, ?_⟩
      rcases v.firstSeen_or_pending m now with heq | hpending
      · -- a change that this look is the first to find has lasted for no time at all
        rw [heq, not_hasPassed_self hwindow] at hlasted
        cases hlasted
      · exact hseen _ hpending
  | _ => cases h

/-! ### A change that comes and goes -/

/-- A window of one second. -/
def second : Double where
  negative := false
  mantissa := 1
  exponent := 0
  mantissa_lt := by decide
  le_exponent := by decide
  exponent_le := by decide

/-- Of two changes the first is reported, the second waits, and the first is back. -/
def flicker : List Look :=
  [⟨0, true, some 1⟩, ⟨1, true, some 1⟩, ⟨2, true, some 2⟩, ⟨3, true, some 1⟩]

/-- The second change again. -/
def flare : Look := ⟨4, true, some 2⟩

theorem report_flicker :
    ((({ window := second } : Watcher).after flicker).look flare).2 = true := by
  decide +kernel

theorem seen_of_report_flicker : ({ window := second } : Watcher).pending = none
    ∧ 0 < second.toRat ∧ ((({ window := second } : Watcher).after flicker).look flare).2 = true
    ∧ ∃ m since, flare.Shows m ∧ hasPassed second since flare.now
      ∧ SeenSince flicker m since ((({ window := second } : Watcher).after flicker).Admits m) := by
  have hwindow : 0 < second.toRat := by decide +kernel
  exact ⟨rfl, hwindow, report_flicker, seen_of_report rfl hwindow report_flicker⟩

/-- The second change is reported two windows after it was first seen, though the file has shown
another one since. -/
theorem not_quiet_flicker : ((flicker ++ [flare]).map (·.now)).Pairwise (· ≤ ·)
    ∧ ((({ window := second } : Watcher).after flicker).look flare).2 = true
    ∧ ¬ ∃ m since, flare.Shows m ∧ 1 ≤ flare.now - since
      ∧ SeenSince flicker m since (·.Shows m) := by
  refine ⟨by decide +kernel, report_flicker, ?_⟩
  rintro ⟨m, since, hm, -, before, first, between, hsplit, -, hfirst, hbetween⟩
  -- the look before the report is not before the window, and finds the other change
  have hlast : (first :: between).getLast? = some ⟨3, true, some 1⟩ := by
    rw [← List.getLast?_append_cons before, ← hsplit]
    rfl
  have hall : ∀ k ∈ first :: between, k.Shows m := List.forall_mem_cons.mpr ⟨hfirst, hbetween⟩
  have hother := (hall _ (List.mem_of_getLast? hlast)).2
  exact absurd (hother.trans hm.2.symm) (by decide)

/-! ## A change that lasts -/

/-- What has been reported is not reported again. -/
theorem not_mem_answers {w : Watcher} {m : Int} {ks : List Look} (hks : ∀ k ∈ ks, k.Shows m)
    (hreported : w.reported = some m) : true ∉ w.answers ks := by
  induction ks with
  | nil => exact List.not_mem_nil
  | cons k ks ih =>
      obtain ⟨hk, hrest⟩ := List.forall_mem_cons.mp hks
      have hpolled := w.polled_look k
      rw [hk.1, hk.2] at hpolled
      rw [answers, List.mem_cons, not_or]
      generalize w.look k = looked at hpolled ⊢
      cases hpolled with
      | known => exact ⟨Bool.noConfusion, ih hrest⟩
      | waits hnot => exact absurd hreported hnot
      | reports hnot => exact absurd hreported hnot

/-- A change that lasts counts from the same moment at all looks, and the first that comes a window
after it reports. -/
theorem answers_of_firstSeen {w : Watcher} {m : Int} {ks : List Look} (hks : ∀ k ∈ ks, k.Shows m)
    (hreported : w.reported ≠ some m) {since : Rat}
    (hsince : ∀ k ∈ ks.head?, w.firstSeen m k.now = since) (i : Nat) :
    (w.answers ks)[i]? = some true ↔ ks.findIdx? (hasPassed w.window since ·.now) = some i := by
  induction ks generalizing w i with
  | nil => simp [answers]
  | cons k ks ih =>
      obtain ⟨hk, hrest⟩ := List.forall_mem_cons.mp hks
      have hfirst : w.firstSeen m k.now = since := hsince k rfl
      have hpolled := w.polled_look k
      rw [hk.1, hk.2] at hpolled
      rw [answers, List.findIdx?_cons]
      generalize w.look k = looked at hpolled ⊢
      cases hpolled with
      | known h => exact absurd h hreported
      | waits _ hwaits =>
          rw [hfirst] at hwaits ⊢
          rw [hwaits]
          cases i with
          | zero => simp
          | succ i =>
              have hlater := @ih { w with pending := some ⟨m, since⟩ } hrest hreported
                (fun k _ => firstSeen_of_pending rfl k.now) i
              simpa using hlater
      | reports _ hlasted =>
          rw [hfirst] at hlasted
          rw [hlasted]
          cases i with
          | zero => simp
          | succ i =>
              have hagain : true ∉ Watcher.answers
                  { w with pending := none, reported := some m } ks := not_mem_answers hrest rfl
              rw [List.getElem?_cons_succ]
              exact iff_of_false (fun h => hagain (List.mem_of_getElem? h)) (by simp)

/-- While all looks find the same change, the one that reports it is the first to come a window
after `since`, if there is such a look and the change is not the one that was reported last. It
counts from the moment it is pending from, or else from the first of these looks. -/
theorem answers_of_lasting {w : Watcher} {m : Int} {first : Look} {rest : List Look}
    (hlasts : ∀ k ∈ first :: rest, k.Shows m) {since : Rat}
    (hsince : w.pending = some ⟨m, since⟩
      ∨ (∀ p, w.pending = some p → p.fileTime ≠ m) ∧ since = first.now) (i : Nat) :
    (w.answers (first :: rest))[i]? = some true
      ↔ w.reported ≠ some m
        ∧ (first :: rest).findIdx? (hasPassed w.window since ·.now) = some i := by
  by_cases hreported : w.reported = some m
  · exact iff_of_false (fun h => not_mem_answers hlasts hreported (List.mem_of_getElem? h))
      fun h => h.1 hreported
  · have hfirst : w.firstSeen m first.now = since := by
      rcases hsince with hpending | ⟨hnew, rfl⟩
      · exact firstSeen_of_pending hpending first.now
      · refine firstSeen_of_new ?_ first.now
        unfold isNew
        split
        · next p hp => exact bne_iff_ne.mpr (hnew p hp)
        · rfl
    rw [answers_of_firstSeen hlasts hreported (by rintro k ⟨⟩; exact hfirst)]
    exact ⟨fun h => ⟨hreported, h⟩, And.right⟩

/-- A window of half a second. -/
def half : Double where
  negative := false
  mantissa := 1
  exponent := -1
  mantissa_lt := by decide
  le_exponent := by decide
  exponent_le := by decide

theorem toRat_half : half.toRat = 1 / 2 := by decide +kernel

/-- The doubles nearest to 0.1, 0.6 and 1.1. The first two are not quite half a second apart. -/
def draftTimes : Rat × Rat × Rat :=
  (3602879701896397 / 36028797018963968, 5404319552844595 / 9007199254740992,
    2476979795053773 / 2251799813685248)

/-- Looks at a change after that. -/
def draft : List Look :=
  [⟨1 / 4, true, some 7⟩, ⟨draftTimes.2.1, true, some 7⟩, ⟨draftTimes.2.2, true, some 7⟩]

/-- A change that was found before is reported at the second of three looks, as doubles tell that
half a second has passed. -/
theorem answers_of_lasting_draft : (∀ k ∈ draft, Look.Shows k 7)
    ∧ draftTimes.2.1 - draftTimes.1 < half.toRat
    ∧ (({ window := half, pending := some ⟨7, draftTimes.1⟩, reported := some 4 } : Watcher).answers
      draft)[1]? = some true := by
  have hlasts : ∀ k ∈ draft, Look.Shows k 7 := by
    simp [draft, Look.Shows]
  refine ⟨hlasts, by decide +kernel, ?_⟩
  exact (answers_of_lasting hlasts (.inl rfl) 1).mpr ⟨by decide, by decide +kernel⟩

end Roadmap.Watcher
