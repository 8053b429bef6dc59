import Roadmap.Proofs.Session.Reachable

/-!
# Loading that fails

Loading looks first and changes the session last, in one step: what there is to load (`Desk.filed`)
is found from the desk alone, and a desk on which there is nothing to load stays as it is.

Refreshes that were asked for are done one after the other, and a failed one is passed over. It
would seem that one of them could fail after another has loaded the file. But a desk that has just
loaded its file is not stale (`isStale_load`), and one on which a refresh has failed is as it was
before, so all but the first come to nothing (`Desk.renewed_renewed`).
-/

namespace Roadmap

namespace Desk

/-- What there is to load, or what is in the way. -/
def filed (d : Desk) : Except Fault Loaded :=
  match d.session.path with
  | none => .error .noFile
  | some path =>
    match d.disk.read path with
    | .error f => .error f
    | .ok (text, time) =>
      match Outline.read text d.session.today with
      | .error f => .error f
      | .ok o => .ok ⟨text, time, o, Plan.ofOutline o, d.session.stamp⟩

/-- The desk after that is loaded. -/
def load (d : Desk) (l : Loaded) : Desk := { d with session := { d.session with loaded := some l } }

/-- The desk with what the file says, if the file has changed and can be loaded. -/
def renewed (d : Desk) : Desk :=
  match d.isStale, d.filed with
  | true, .ok l => d.load l
  | _, _ => d

/-- The desk with no refresh to do. -/
def idle (d : Desk) : Desk := { d with session := { d.session with waiting := 0 } }

end Desk

section

variable {d : Desk} {l : Loaded}

theorem Desk.time?_of_filed (h : d.filed = .ok l) : d.disk.time? = some l.time := by
  unfold filed at h
  split at h
  · cases h
  · split at h
    · cases h
    · next hread =>
        split at h
        · cases h
        · cases h
          exact Disk.time?_of_read hread

/-- What has just been loaded is as new as the file. -/
theorem Desk.isStale_load (h : d.filed = .ok l) : (d.load l).isStale = false := by
  have htime : (d.load l).disk.time? = some l.time := time?_of_filed h
  have hloaded : (d.load l).session.time = l.time := rfl
  rw [isStale, htime, hloaded]
  simp only [Int.lt_irrefl, decide_false, Bool.and_false]

theorem Desk.renewed_renewed (d : Desk) : d.renewed.renewed = d.renewed := by
  cases hstale : d.isStale with
  | false =>
      have hsame : d.renewed = d := by rw [renewed, hstale]
      rw [hsame, hsame]
  | true =>
      cases hfiled : d.filed with
      | error f =>
          have hsame : d.renewed = d := by rw [renewed, hstale, hfiled]
          rw [hsame, hsame]
      | ok l =>
          have hload : d.renewed = d.load l := by rw [renewed, hstale, hfiled]
          rw [hload, renewed, isStale_load hfiled]

end

namespace Session

open Work

/-! ## What loading comes to -/

theorem on_reload_eq (d : Desk) : reload.on d = match d.filed with
    | .error f => (.error f, d)
    | .ok l => (.ok (), d.load l) := by
  rw [on_reload, Desk.filed]
  cases d.session.path with
  | none => rfl
  | some path =>
      simp only
      rcases d.disk.read path with f | ⟨text, time⟩
      · rfl
      · simp only
        cases Outline.read text d.session.today with
        | error f => rfl
        | ok o => rfl

theorem reload_eq_error_iff {d d' : Desk} {f : Fault} :
    reload.on d = (.error f, d') ↔ d.filed = .error f ∧ d' = d := by
  rw [on_reload_eq]
  cases d.filed with
  | error g => simp only [Prod.mk.injEq, Except.error.injEq, eq_comm]
  | ok l => simp

theorem on_refresh (d : Desk) : refresh.on d = match d.isStale, d.filed with
    | true, .error f => (.error f, d)
    | stale, _ => (.ok stale, d.renewed) := by
  simp only [refresh, on_bind, on_get]
  cases hstale : d.isStale with
  | false => simp only [Bool.false_eq_true, if_false, on_pure, Desk.renewed, hstale]
  | true =>
      simp only [if_true, on_bind, on_reload_eq]
      cases hfiled : d.filed with
      | error f => rfl
      | ok l => simp only [on_pure, Desk.renewed, hstale, hfiled]

theorem refresh_eq_error_iff {d d' : Desk} {f : Fault} :
    refresh.on d = (.error f, d') ↔ d.isStale = true ∧ d.filed = .error f ∧ d' = d := by
  rw [on_refresh]
  cases d.isStale with
  | false => simp
  | true =>
      cases d.filed with
      | error g => simp only [Prod.mk.injEq, Except.error.injEq, eq_comm, true_and]
      | ok l => simp

theorem snd_on_refresh (d : Desk) : (refresh.on d).2 = d.renewed := by
  rw [on_refresh]
  cases hstale : d.isStale with
  | false => rfl
  | true =>
      cases hfiled : d.filed with
      | error f => simp only [Desk.renewed, hstale, hfiled]
      | ok l => rfl

/-- All refreshes but the first come to nothing. -/
theorem on_refreshTimes (n : Nat) (d : Desk) :
    (refreshTimes n).on d = (.ok (), if n = 0 then d else d.renewed) := by
  induction n generalizing d with
  | zero => rfl
  | succ n ih =>
      have hattempt : refresh.attempt.on d = (.ok (refresh.on d).1, (refresh.on d).2) := rfl
      rw [refreshTimes, on_bind, hattempt]
      simp only [ih, snd_on_refresh, Desk.renewed_renewed, ite_self, Nat.succ_ne_zero, if_false]

theorem on_drain (d : Desk) :
    drain.on d = (.ok (), if d.session.waiting = 0 then d.idle else d.idle.renewed) := by
  simp only [drain, modifySession, on_bind, on_get, on_modify]
  exact on_refreshTimes d.session.waiting d.idle

/-! ## What no operation changes -/

/-- The session has that day for today, and has loaded something if it is to have. -/
def Standing (today : Date) (loaded : Bool) (d : Desk) : Prop :=
  d.session.today = today ∧ (loaded → d.session.loaded.isSome)

section

variable {today : Date} {loaded : Bool}

theorem standing_reload : Keeps (Standing today loaded) reload := by
  intro d h
  rw [on_reload_eq]
  cases d.filed with
  | error f => exact h
  | ok l => exact ⟨h.1, fun _ => rfl⟩

theorem standing_perform (o : Operation) : Keeps (Standing today loaded) o.perform := by
  have hstore := keeps_store (P := Standing today loaded) (fun _ _ h => h) standing_reload
  have hedit := fun ho => keeps_edit hstore (fun _ _ _ h => h) (o := o) ho
  cases o with
  | start path create =>
      exact keeps_start (fun _ _ h => h) (fun _ _ h => h) standing_reload path create
  | reload => exact standing_reload
  | refresh => exact (keeps_refresh standing_reload).quiet
  | askRefresh => exact keeps_modify fun _ h => h
  | drain => exact keeps_drain (fun _ _ h => h) standing_reload
  | commit drag => exact hedit (.inl trivial)
  | update id changes => exact hedit (.inl trivial)
  | edit call => exact hedit (.inl trivial)
  | undo => exact hedit (.inr (.inl rfl))
  | redo => exact hedit (.inr (.inr rfl))

end

end Session

/-- In a session that can be reached, what is loaded is the reading of its text as of today and the
plan made of it, which is there for good once something has been loaded. A reload or a refresh that
fails changes nothing at all, and a drain whose refreshes fail only leaves none to do. They fail if
there is nothing to load, and else end with the file loaded. -/
theorem Desk.Reachable.coherent {d : Desk} (h : d.Reachable) :
    (∀ l ∈ d.session.loaded, Outline.read l.text d.session.today = .ok l.outline
        ∧ l.plan = Plan.ofOutline l.outline)
      ∧ (∀ o : Session.Operation, (o.perform.on d).2.session.today = d.session.today
        ∧ (d.session.loaded.isSome → (o.perform.on d).2.session.loaded.isSome))
      ∧ (∀ f d', Session.reload.on d = (.error f, d') ↔ d.filed = .error f ∧ d' = d)
      ∧ (∀ f d', Session.refresh.on d = (.error f, d') ↔
        d.isStale = true ∧ d.filed = .error f ∧ d' = d)
      ∧ (∀ f d', Session.refresh.on d = (.error f, d') → Session.drain.on d = (.ok (), d.idle))
      ∧ Session.drain.on d
        = (.ok (), if d.session.waiting = 0 then d.idle else d.idle.renewed) := by
  have hdrain := Session.on_drain d
  refine ⟨fun l hl => ?_, fun o => ?_, fun f d' => Session.reload_eq_error_iff,
    fun f d' => Session.refresh_eq_error_iff, fun f d' hfails => ?_, hdrain⟩
  · have hsound := h.sound.loaded l hl
    exact ⟨hsound.outline, hsound.plan⟩
  · exact Session.standing_perform o d ⟨rfl, id⟩
  · obtain ⟨hstale, hfiled, -⟩ := Session.refresh_eq_error_iff.mp hfails
    -- Neither the file's time nor what it holds has to do with the refreshes to do.
    have hidle : d.idle.renewed = d.idle := by
      rw [renewed, show d.idle.isStale = true from hstale,
        show d.idle.filed = .error f from hfiled]
    rw [hdrain, hidle, ite_self]

namespace Session

/-- The small session, whose file holds bytes that are no text by now, with two refreshes to do. -/
def garbled : Desk where
  session := { (Sample.desk none 1000000 {}).session with waiting := 2 }
  disk := ⟨.file (.undecodable [255]) 1001000, 1000000⟩

theorem reachable_garbled : garbled.Reachable :=
  (.outside (.file (.undecodable [255]) 1001000)
    (.step .askRefresh (.step .askRefresh Sample.reachable_desk)))

end Session

theorem Desk.Reachable.coherent_garbled :
    Session.garbled.Reachable
      ∧ Outline.read (Session.Sample.text none) Session.Sample.monday
        = .ok (Session.Sample.outline none)
      ∧ Session.reload.on Session.garbled = (.error .undecodable, Session.garbled)
      ∧ Session.refresh.on Session.garbled = (.error .undecodable, Session.garbled)
      ∧ Session.drain.on Session.garbled = (.ok (), Session.garbled.idle) := by
  obtain ⟨hloaded, -, hreload, hrefresh, hdrain, -⟩ := Session.reachable_garbled.coherent
  have hstale := (hrefresh .undecodable Session.garbled).mpr ⟨rfl, rfl, rfl⟩
  exact ⟨Session.reachable_garbled, (hloaded _ rfl).1, (hreload _ _).mpr ⟨rfl, rfl⟩, hstale,
    hdrain _ _ hstale⟩

end Roadmap
