import Roadmap.Proofs.Session.Reachable
import Roadmap.Proofs.Watcher

/-!
# Changes that are noticed

A watcher looks at the file from time to time and asks for a refresh when it finds a change that has
lasted for its window. Meanwhile others change the file, the session works, and its worker drains
what was asked for.

While the same change is there to be seen at every look, the moment from which its window counts does
not move, and it is not after the first of these looks (`waiting_of_firstSeen`). So a look that comes
a window later reports the change, unless an earlier one has. There is one exception: a watcher
reports no time twice in a row. If the worker has drained the request for it without loading the
file, the change stays unnoticed until the file gets another time (`unnoticed_returned`).
-/

namespace Roadmap

/-! ## Runs -/

/-- A desk, and a watcher of its file. -/
structure Watched where
  desk : Desk
  watcher : Watcher

namespace Watched

open Session

inductive Event where
  /-- Others change the file. -/
  | outside (node : Node)
  /-- The session works, or its worker drains what was asked for. -/
  | operate (o : Operation)
  /-- The watcher looks at the file. -/
  | poll (now : Rat)

def Event.time? : Event → Option Rat
  | poll now => some now
  | _ => none

/-- The times of the looks among some events. -/
def times (es : List Event) : List Rat := es.filterMap Event.time?

/-- What the watcher finds at the time `now`. -/
def look (w : Watched) (now : Rat) : Watcher × Bool :=
  w.watcher.poll w.desk.isStale w.desk.disk.time? now

def step (w : Watched) : Event → Watched
  | .outside node => { w with desk := { w.desk with disk := { w.desk.disk with node := node } } }
  | .operate o => { w with desk := (o.perform.on w.desk).2 }
  | .poll now =>
    { desk := if (w.look now).2 then (askRefresh.on w.desk).2 else w.desk
      watcher := (w.look now).1 }

def run (w : Watched) (es : List Event) : Watched := es.foldl step w

/-- A session and a watcher that have done nothing yet. -/
def fresh (today : Date) (stamp : String) (disk : Disk) (window : Double) : Watched where
  desk := ⟨{ today := today, stamp := stamp }, disk⟩
  watcher := { window := window }

/-- The number of refreshes that were asked for. -/
def waiting (w : Watched) : Nat := w.desk.session.waiting

/-- There is a change to be seen, and the file has the time `m`. -/
def Sees (w : Watched) (m : Int) : Prop := w.desk.isStale ∧ w.desk.disk.time? = some m

/-- Through all of the events the worker drains nothing, and each look sees a change and the file
with the time `m`. -/
def Lasting (m : Int) : Watched → List Event → Prop
  | _, [] => True
  | w, e :: es => e ≠ .operate .drain ∧ (e.time?.isSome → w.Sees m) ∧ Lasting m (w.step e) es

/-! ## The queue -/

/-- Only the worker takes requests out of the queue. -/
theorem keeps_waiting {o : Operation} (ho : o ≠ .drain) :
    Work.Keeps (fun d => 0 < d.session.waiting) o.perform := by
  have hreload : Work.Keeps (fun d => 0 < d.session.waiting) reload := by
    intro d h
    rw [on_reload]
    split
    · exact h
    · split
      · exact h
      · split
        · exact h
        · exact h
  have hedit := fun h => keeps_edit (keeps_store (fun _ _ h => h) hreload) (fun _ _ _ h => h)
    (o := o) h
  cases o with
  | start path create => exact keeps_start (fun _ _ h => h) (fun _ _ h => h) hreload path create
  | reload => exact hreload
  | refresh => exact (keeps_refresh hreload).quiet
  | askRefresh => exact Work.keeps_modify fun d _ => Nat.succ_pos d.session.waiting
  | drain => exact absurd rfl ho
  | commit drag => exact hedit (.inl trivial)
  | update id changes => exact hedit (.inl trivial)
  | edit call => exact hedit (.inl trivial)
  | undo => exact hedit (.inr (.inl rfl))
  | redo => exact hedit (.inr (.inr rfl))

theorem waiting_step {w : Watched} {e : Event} (he : e ≠ .operate .drain) (h : 0 < w.waiting) :
    0 < (w.step e).waiting := by
  cases e with
  | outside node => exact h
  | operate o => exact keeps_waiting (fun ho => he (ho ▸ rfl)) w.desk h
  | poll now =>
      show 0 < (if (w.look now).2 then (askRefresh.on w.desk).2 else w.desk).session.waiting
      split
      · exact Nat.succ_pos _
      · exact h

theorem waiting_run {m : Int} {w : Watched} {es : List Event} (hlasting : Lasting m w es)
    (h : 0 < w.waiting) : 0 < (w.run es).waiting := by
  induction es generalizing w with
  | nil => exact h
  | cons e es ih => exact ih hlasting.2.2 (waiting_step hlasting.1 h)

/-! ## Looks -/

theorem polled_look (w : Watched) (now : Rat) :
    w.watcher.Polled now w.desk.isStale w.desk.disk.time? (w.look now) :=
  w.watcher.polled_poll w.desk.isStale w.desk.disk.time? now

theorem step_poll {w : Watched} {now : Rat} {watcher : Watcher} {reported : Bool}
    (h : w.look now = (watcher, reported)) : w.step (.poll now)
      = ⟨if reported then (askRefresh.on w.desk).2 else w.desk, watcher⟩ := by
  rw [step, h]

/-- The change that was reported last is not reported again. -/
theorem step_of_reported {w : Watched} {m : Int} (h : w.Sees m)
    (hreported : w.watcher.reported = some m) (now : Rat) : w.step (.poll now) = w := by
  have hpolled := polled_look w now
  rw [h.1, h.2] at hpolled
  rcases hlook : w.look now with ⟨watcher, reported⟩
  rw [hlook] at hpolled
  cases hpolled with
  | known => exact step_poll hlook
  | waits hnot => exact absurd hreported hnot
  | reports hnot => exact absurd hreported hnot

/-- A look that reports a change leaves a request in the queue. -/
theorem waiting_of_report {w : Watched} {now : Rat} (h : (w.look now).2 = true) :
    0 < (w.step (.poll now)).waiting := by
  show 0 < (if (w.look now).2 then (askRefresh.on w.desk).2 else w.desk).session.waiting
  rw [if_pos h]
  exact Nat.succ_pos _

/-- While a change lasts, its window counts from a moment not after `since`. So a look that comes a
window after `since` finds it reported. -/
theorem waiting_of_firstSeen {m : Int} {w : Watched} {es : List Event} (hlasting : Lasting m w es)
    (hreported : w.watcher.reported ≠ some m) {since last : Rat}
    (hsince : ∀ now ∈ (times es).head?, w.watcher.firstSeen m now ≤ since) (horder : since ≤ last)
    (hlast : (times es).getLast? = some last) (hwindow : w.watcher.window.toRat ≤ last - since) :
    0 < (w.run es).waiting := by
  induction es generalizing w with
  | nil => cases hlast
  | cons e es ih =>
      obtain ⟨-, hsees, hrest⟩ := hlasting
      cases e with
      | outside node => exact ih hrest hreported hsince hlast hwindow
      | operate o => exact ih hrest hreported hsince hlast hwindow
      | poll now =>
          have hpolled := polled_look w now
          rw [(hsees rfl).1, (hsees rfl).2] at hpolled
          have hnow : w.watcher.firstSeen m now ≤ since := hsince now rfl
          rcases hlook : w.look now with ⟨watcher, reported⟩
          have hstep := step_poll hlook
          rw [hlook] at hpolled
          cases hpolled with
          | known h => exact absurd h hreported
          | waits _ hwaits =>
              rw [hstep] at hrest
              show 0 < ((w.step (.poll now)).run es).waiting
              rw [hstep]
              have hlast : (now :: times es).getLast? = some last := hlast
              cases htimes : times es with
              | nil =>
                  rw [htimes] at hlast
                  obtain rfl : now = last := Option.some.inj hlast
                  have hpassed := Watcher.hasPassed_of_le (hnow.trans horder)
                    (hwindow.trans (sub_le_sub_left hnow now))
                  rw [hwaits] at hpassed
                  cases hpassed
              | cons next rest =>
                  rw [htimes, List.getLast?_cons_cons, ← htimes] at hlast
                  refine ih hrest hreported (fun next _ => ?_) hlast hwindow
                  rwa [Watcher.firstSeen_of_pending rfl]
          | reports =>
              show 0 < ((w.step (.poll now)).run es).waiting
              exact waiting_run hrest (waiting_of_report (by rw [hlook]))

/-! ## What a watcher remembers -/

theorem window_run (w : Watched) (es : List Event) :
    (w.run es).watcher.window = w.watcher.window := by
  induction es generalizing w with
  | nil => rfl
  | cons e es ih =>
      refine (ih (w.step e)).trans ?_
      cases e with
      | outside node => rfl
      | operate o => rfl
      | poll now => exact w.watcher.window_look ⟨now, w.desk.isStale, w.desk.disk.time?⟩

theorem run_concat (w : Watched) (es : List Event) (e : Event) :
    w.run (es ++ [e]) = (w.run es).step e := by
  rw [run, List.foldl_append]
  rfl

theorem times_concat (es : List Event) (e : Event) :
    times (es ++ [e]) = times es ++ e.time?.toList := by
  rw [times, List.filterMap_append]
  cases h : e.time? with
  | none => simp [times, h]
  | some now => simp [times, h]

section

variable (today : Date) (stamp : String) (disk : Disk) (window : Double)

/-- The window of a pending change counts from a look. -/
theorem since_mem_times {es : List Event} {p : Pending}
    (h : ((fresh today stamp disk window).run es).watcher.pending = some p) : p.since ∈ times es := by
  induction es using List.reverseRecOn generalizing p with
  | nil => cases h
  | append_singleton es e ih =>
      rw [run_concat] at h
      rw [times_concat]
      generalize hw : (fresh today stamp disk window).run es = w at h ih
      cases e with
      | outside node => exact List.mem_append_left _ (ih h)
      | operate o => exact List.mem_append_left _ (ih h)
      | poll now =>
          have hpolled := polled_look w now
          have h : (w.look now).1.pending = some p := h
          generalize w.desk.isStale = stale, w.desk.disk.time? = fileTime, w.look now = looked
            at hpolled h
          cases hpolled with
          | current => cases h
          | missing => cases h
          | known => exact List.mem_append_left _ (ih h)
          | reports => cases h
          | @waits m =>
              obtain rfl := Option.some.inj h
              dsimp only
              rcases w.watcher.firstSeen_cases m now with heq | ⟨q, hq, heq⟩
              · rw [heq]
                exact List.mem_append_right _ (List.mem_singleton_self now)
              · rw [heq]
                exact List.mem_append_left _ (ih hq)

/-- The look that reported the time `m`, with a request that is still in the queue or has been
drained since. -/
theorem exists_report {es : List Event} {m : Int}
    (h : ((fresh today stamp disk window).run es).watcher.reported = some m) :
    ∃ (before after : List Event) (now : Rat), es = before ++ .poll now :: after
      ∧ ((fresh today stamp disk window).run before).desk.disk.time? = some m
      ∧ (((fresh today stamp disk window).run before).look now).2 = true
      ∧ (.operate .drain ∈ after ∨ 0 < ((fresh today stamp disk window).run es).waiting) := by
  induction es using List.reverseRecOn with
  | nil => cases h
  | append_singleton es e ih =>
      rw [run_concat] at h ⊢
      -- whatever is not a report leaves what was reported before, and the queue to the worker
      have hback : ((fresh today stamp disk window).run es).watcher.reported = some m →
          ∃ (before after : List Event) (now : Rat), es ++ [e] = before ++ .poll now :: after
            ∧ ((fresh today stamp disk window).run before).desk.disk.time? = some m
            ∧ (((fresh today stamp disk window).run before).look now).2 = true
            ∧ (.operate .drain ∈ after
              ∨ 0 < (((fresh today stamp disk window).run es).step e).waiting) := by
        intro h
        obtain ⟨before, after, now, rfl, htime, hlook, hqueue⟩ := ih h
        refine ⟨before, after ++ [e], now, by simp, htime, hlook, ?_⟩
        by_cases hdrain : .operate .drain ∈ after ++ [e]
        · exact .inl hdrain
        · rw [List.mem_append, List.mem_singleton, not_or] at hdrain
          exact .inr (waiting_step (Ne.symm hdrain.2) (hqueue.resolve_left hdrain.1))
      cases e with
      | outside node => exact hback h
      | operate o => exact hback h
      | poll now =>
          generalize hw : (fresh today stamp disk window).run es = w at h hback ⊢
          have h : (w.look now).1.reported = some m := h
          have hquiet :=
            @Watcher.reported_of_quiet w.watcher ⟨now, w.desk.isStale, w.desk.disk.time?⟩
          have hshown :=
            @Watcher.reported_of_report w.watcher ⟨now, w.desk.isStale, w.desk.disk.time?⟩
          cases hreport : (w.look now).2 with
          | false => exact hback ((hquiet hreport).symm.trans h)
          | true =>
              have htime : w.desk.disk.time? = some m := (hshown hreport).symm.trans h
              exact ⟨es, [], now, rfl, hw ▸ htime, hw ▸ hreport, .inr (waiting_of_report hreport)⟩

/-- After looks that all see a change and the file with the same time, and of which the last comes a
window after the first, a request is in the queue. The one exception is that this time has been
reported before, as the last one, and the request for it has been drained since. -/
theorem waiting_of_looks {es fs : List Event} {m : Int} {first last : Rat}
    (htimes : (times (es ++ fs)).Pairwise (· ≤ ·))
    (hlasting : Lasting m ((fresh today stamp disk window).run es) fs)
    (hfirst : (times fs).head? = some first) (hlast : (times fs).getLast? = some last)
    (hwindow : window.toRat ≤ last - first) :
    0 < (((fresh today stamp disk window).run es).run fs).waiting
      ∨ ((fresh today stamp disk window).run es).watcher.reported = some m
        ∧ ∃ (before after : List Event) (now : Rat), es = before ++ .poll now :: after
          ∧ ((fresh today stamp disk window).run before).desk.disk.time? = some m
          ∧ (((fresh today stamp disk window).run before).look now).2 = true
          ∧ .operate .drain ∈ after := by
  by_cases hknown : ((fresh today stamp disk window).run es).watcher.reported = some m
  · by_cases hqueue : 0 < ((fresh today stamp disk window).run es).waiting
    · exact .inl (waiting_run hlasting hqueue)
    · obtain ⟨before, after, now, hes, htime, hlook, hdrained⟩ :=
        exists_report today stamp disk window hknown
      exact .inr ⟨hknown, before, after, now, hes, htime, hlook, hdrained.resolve_right hqueue⟩
  · rw [times, List.filterMap_append] at htimes
    obtain ⟨-, hrow, hpast⟩ := List.pairwise_append.mp htimes
    have hsince : ∀ now ∈ (times fs).head?,
        ((fresh today stamp disk window).run es).watcher.firstSeen m now ≤ first := by
      intro now hnow
      obtain rfl : first = now := Option.some.inj (hfirst.symm.trans hnow)
      rcases Watcher.firstSeen_cases _ m first with heq | ⟨p, hp, heq⟩
      · exact le_of_eq heq
      · rw [heq]
        exact hpast p.since (since_mem_times today stamp disk window hp) first
          (List.mem_of_head? hfirst)
    have horder : first ≤ last := by
      obtain ⟨rest, hrest⟩ := List.head?_eq_some_iff.mp hfirst
      have hmem := List.mem_of_getLast? hlast
      change (times fs).Pairwise (· ≤ ·) at hrow
      rw [hrest] at hrow hmem
      rcases List.mem_cons.mp hmem with rfl | hmem
      · exact le_rfl
      · exact List.rel_of_pairwise_cons hrow hmem
    refine .inl (waiting_of_firstSeen hlasting hknown hsince horder hlast ?_)
    rw [window_run]
    exact hwindow

end

end Watched

/-! ### A change that comes back -/

namespace Session.Sample

open Watched

/-- A session that does nothing yet, on the file of the small outline, and a watcher that waits for
half a second. -/
def idle : Watched := fresh monday "" (desk none 1000000 {}).disk Watcher.half

def change : Event := .outside (.file (.text (text none)) 1001000)

/-- The session starts, and others change the file. -/
def changed : List Event := [.operate (.start "roadmap.md" false), change]

/-- The change is reported, but the file is gone when the request is drained, and then comes back. -/
def returned : List Event :=
  changed ++ [.poll 0, .poll 1, .outside .missing, .operate .drain, change]

theorem run_changed : idle.run changed
    = ⟨{ desk none 1000000 {} with disk := ⟨.file (.text (text none)) 1001000, 1000000⟩ },
      { window := Watcher.half }⟩ := by
  have hstart : idle.step (.operate (.start "roadmap.md" false))
      = ⟨desk none 1000000 {}, { window := Watcher.half }⟩ := by
    show Watched.mk ((start "roadmap.md" false).on _).2 _ = _
    rw [show idle.desk = ⟨{ today := monday }, (desk none 1000000 {}).disk⟩ from rfl, start_desk]
    rfl
  show (idle.step _).step change = _
  rw [hstart]
  rfl

/-- The two looks at the change. -/
theorem look_changed :
    (idle.run changed).look 0 = ({ window := Watcher.half, pending := some ⟨1001000, 0⟩ }, false)
      ∧ ((idle.run changed).step (.poll 0)).look 1
        = ({ window := Watcher.half, reported := some 1001000 }, true) := by
  have hwaits : ({ window := Watcher.half } : Watcher).poll true (some 1001000) 0
      = ({ window := Watcher.half, pending := some ⟨1001000, 0⟩ }, false) := by decide +kernel
  have hreports : ({ window := Watcher.half, pending := some ⟨1001000, 0⟩ } : Watcher).poll true
      (some 1001000) 1 = ({ window := Watcher.half, reported := some 1001000 }, true) := by
    decide +kernel
  have hlook : (idle.run changed).look 0
      = ({ window := Watcher.half, pending := some ⟨1001000, 0⟩ }, false) := by
    rw [run_changed]
    exact hwaits
  refine ⟨hlook, ?_⟩
  rw [step_poll hlook, run_changed]
  exact hreports

theorem lasting_changed : Lasting 1001000 (idle.run changed) [.poll 0, .poll 1] := by
  have hfirst : (idle.run changed).Sees 1001000 := by
    rw [run_changed]
    exact ⟨rfl, rfl⟩
  refine ⟨nofun, fun _ => hfirst, nofun, fun _ => ?_, trivial⟩
  rw [step_poll look_changed.1]
  exact hfirst

theorem run_returned : idle.run returned
    = ⟨{ desk none 1000000 {} with disk := ⟨.file (.text (text none)) 1001000, 1000000⟩ },
      { window := Watcher.half, reported := some 1001000 }⟩ := by
  rw [returned, Watched.run, List.foldl_append]
  show Watched.run ((((idle.run changed).step (.poll 0)).step (.poll 1))) _ = _
  rw [step_poll look_changed.2, step_poll look_changed.1, run_changed]
  rfl

theorem step_returned (now : Rat) :
    (idle.run returned).Sees 1001000
      ∧ (idle.run returned).step (.poll now) = idle.run returned := by
  have hsees : (idle.run returned).Sees 1001000 := by
    rw [run_returned]
    exact ⟨rfl, rfl⟩
  refine ⟨hsees, step_of_reported hsees ?_ now⟩
  rw [run_returned]

end Session.Sample

namespace Watched

open Session.Sample

theorem waiting_of_looks_changed : (times (changed ++ [.poll 0, .poll 1])).Pairwise (· ≤ ·)
    ∧ Lasting 1001000 (idle.run changed) [.poll 0, .poll 1] ∧ Watcher.half.toRat ≤ 1 - 0
    ∧ 0 < ((idle.run changed).run [.poll 0, .poll 1]).waiting := by
  have htimes : (times (changed ++ [.poll 0, .poll 1])).Pairwise (· ≤ ·) := by
    show List.Pairwise (· ≤ ·) [(0 : Rat), 1]
    simp
  have hwindow : Watcher.half.toRat ≤ 1 - 0 := by
    rw [Watcher.toRat_half]
    norm_num
  have hfirst : (times [.poll 0, .poll 1]).head? = some 0 := rfl
  have hlast : (times [.poll 0, .poll 1]).getLast? = some 1 := rfl
  have hwaiting := waiting_of_looks monday "" (Session.Sample.desk none 1000000 {}).disk Watcher.half
    htimes lasting_changed hfirst hlast hwindow
  refine ⟨htimes, lasting_changed, hwindow, hwaiting.resolve_right fun h => ?_⟩
  have hnone : (idle.run changed).watcher.reported = some 1001000 := h.1
  rw [run_changed] at hnone
  cases hnone

/-- The file has come back with the time that was reported before it was gone, and the queue stays
empty. -/
theorem unnoticed_returned : (times (returned ++ [.poll 2, .poll 3])).Pairwise (· ≤ ·)
    ∧ Lasting 1001000 (idle.run returned) [.poll 2, .poll 3] ∧ Watcher.half.toRat ≤ 3 - 2
    ∧ ((idle.run returned).run [.poll 2, .poll 3]).waiting = 0 := by
  obtain ⟨hsees, hsecond⟩ := step_returned 2
  have hthird := (step_returned 3).2
  refine ⟨?_, ⟨nofun, fun _ => hsees, nofun, fun _ => ?_, trivial⟩, ?_, ?_⟩
  · show List.Pairwise (· ≤ ·) [(0 : Rat), 1, 2, 3]
    simp
    norm_num
  · rw [hsecond]
    exact hsees
  · rw [Watcher.toRat_half]
    norm_num
  · show (((idle.run returned).step (.poll 2)).step (.poll 3)).waiting = 0
    rw [hsecond, hthird, run_returned]
    rfl

end Watched

end Roadmap
