import Roadmap.Proofs.Json.Writer
import Roadmap.Proofs.Service.Mutation
import Roadmap.Proofs.Session.Failure

/-!
# What is said of a change

A change is answered by the same work whichever way it is asked for, so it leaves the same desk
behind. Whether both ways say the same of it is less plain: the web says by its status that
something went wrong, and a tool has only its text. So it matters that a text tells which value it
is (`Json.Plain.eq_of_indented_eq`) and that no answer to a change looks like an error
(`gives_answer`); that a message is written on one line or on several makes no difference then.

Undo and redo are the exception. Over the web they let a fault out where the tools report it
(`fault_escapes_blocked`).
-/

namespace Roadmap.Service

open Work

/-! ## The way out -/

theorem on_callTool (r : Request) (d : Desk) :
    (callTool r).on d = (.ok (toolText ((answer r).on d).1), ((answer r).on d).2) := rfl

/-- What a route makes of the answer to its request. -/
def Route.replyTo (r : Route) : Except Fault Answer → Except Fault Reply
  | .ok (.found body) => .ok ⟨200, body⟩
  | .ok (.noTask id) => .ok (detail 404 (Answer.noTaskMessage id))
  | .error f => if r.catchesFaults then .ok (detail 400 f.message) else .error f

theorem Route.on_reply (r : Route) (d : Desk) :
    r.reply.on d = (r.replyTo ((answer r.request).on d).1, ((answer r.request).on d).2) := by
  have hattempt : (answer r.request).attempt.on d
      = (.ok ((answer r.request).on d).1, ((answer r.request).on d).2) := rfl
  rw [reply, on_bind, hattempt]
  rcases ((answer r.request).on d).1 with f | body | id
  · simp only [replyTo]
    split
    · rfl
    · rfl
  · rfl
  · rfl

/-- The JSON of an error. -/
def errorJson (e : String) : Json := .object [("error", .text e)]

/-- The text of a tool is this value, which is no error. -/
structure Presents (text : String) (j : Json) : Prop where
  plain : j.Plain
  no_error : j.field? "error" = none
  text_eq : text = j.indented

/-- The text of a tool is this error, on one line or on several. -/
def Reports (text e : String) : Prop := text = (errorJson e).indented ∨ text = (errorJson e).line

theorem plain_errorJson (e : String) : (errorJson e).Plain := by
  refine .object ?_
  rw [List.forall_mem_singleton]
  exact .text e

/-- A text tells which value it is. -/
theorem presents_indented_iff {j k : Json} (hj : j.Plain) (hnone : j.field? "error" = none) :
    Presents j.indented k ↔ k = j := by
  constructor
  · intro h
    exact (hj.eq_of_indented_eq h.plain h.text_eq).symm
  · rintro rfl
    exact ⟨hj, hnone, rfl⟩

theorem not_reports_indented {j : Json} (hj : j.Plain) (hnone : j.field? "error" = none)
    (e : String) : ¬ Reports j.indented e := by
  rintro (h | h)
  · rw [hj.eq_of_indented_eq (plain_errorJson e) h] at hnone
    cases hnone
  · exact Json.line_ne_indented hj _ _ h.symm

theorem reports_indented_iff {e e' : String} : Reports (errorJson e).indented e' ↔ e' = e := by
  constructor
  · rintro (h | h)
    · cases (plain_errorJson e).eq_of_indented_eq (plain_errorJson e') h
      rfl
    · exact absurd h.symm (Json.line_ne_indented (plain_errorJson e) _ _)
  · rintro rfl
    exact .inl rfl

theorem reports_line_iff {e e' : String} : Reports (errorJson e).line e' ↔ e' = e := by
  constructor
  · rintro (h | h)
    · exact absurd h (Json.line_ne_indented (plain_errorJson e') _ _)
    · exact (Json.text_of_line_eq h).symm
  · rintro rfl
    exact .inr rfl

theorem not_presents_error {text e : String} (h : Reports text e) (j : Json) :
    ¬ Presents text j := by
  intro hj
  rw [hj.text_eq] at h
  exact not_reports_indented hj.plain hj.no_error e h

/-- Over the web the change is refused with this message. Undo and redo do not refuse: the fault
comes out as it is. -/
def Mutation.Refuses (m : Mutation) (reply : Except Fault Reply) (e : String) : Prop :=
  if m.isStep then ∃ f, reply = .error f ∧ f.message = e
  else reply = .ok (detail 404 e) ∨ reply = .ok (detail 400 e)

/-- The reply over the web and the text of the tool say the same. -/
structure Agree (m : Mutation) (reply : Except Fault Reply) (text : String) : Prop where
  found (j : Json) : reply = .ok ⟨200, j⟩ ↔ Presents text j
  failed (e : String) : m.Refuses reply e ↔ Reports text e
  total : (∃ j, reply = .ok ⟨200, j⟩) ∨ ∃ e, m.Refuses reply e

/-- What a change may be answered with. -/
inductive Mutation.Answers (m : Mutation) : Answer → Prop
  | found {j : Json} (hplain : j.Plain) (hnone : j.field? "error" = none) : m.Answers (.found j)
  | noTask (h : m.isStep = false) (id : String) : m.Answers (.noTask id)

theorem detail_inj {status status' : Nat} {e e' : String} :
    (Except.ok (detail status e) : Except Fault Reply) = .ok (detail status' e')
      ↔ status = status' ∧ e = e' := by
  constructor
  · intro h
    injection h with h
    injection h with hstatus hbody
    injection hbody with hfields
    simp only [List.cons.injEq, Prod.mk.injEq, Json.text.injEq, true_and, and_true] at hfields
    exact ⟨hstatus, hfields⟩
  · rintro ⟨rfl, rfl⟩
    rfl

theorem detail_ne_answer {status : Nat} (h : status ≠ 200) (e : String) (j : Json) :
    (Except.ok (detail status e) : Except Fault Reply) ≠ .ok ⟨200, j⟩ := by
  intro heq
  injection heq with heq
  injection heq with hstatus
  exact h hstatus

/-- A refusal with a status is one with its message. -/
theorem refuses_detail_iff {m : Mutation} (hm : m.isStep = false) {status : Nat}
    (h : status = 404 ∨ status = 400) {e e' : String} :
    m.Refuses (.ok (detail status e)) e' ↔ e' = e := by
  rw [Mutation.Refuses, hm, if_neg Bool.false_ne_true, detail_inj, detail_inj]
  constructor
  · rintro (h | h)
    · exact h.2.symm
    · exact h.2.symm
  · rintro rfl
    exact h.imp (⟨·, rfl⟩) (⟨·, rfl⟩)

theorem agree_of_refuses {m : Mutation} {reply : Except Fault Reply} {text e : String}
    (hreply : ∀ j, reply ≠ .ok ⟨200, j⟩) (hrefuses : ∀ e', m.Refuses reply e' ↔ e' = e)
    (hreports : ∀ e', Reports text e' ↔ e' = e) : Agree m reply text where
  found j := iff_of_false (hreply j) (not_presents_error ((hreports e).mpr rfl) j)
  failed e' := (hrefuses e').trans (hreports e').symm
  total := .inr ⟨e, (hrefuses e).mpr rfl⟩

theorem agree_of_answers {m : Mutation} {a : Except Fault Answer}
    (h : ∀ b, a = .ok b → m.Answers b) : Agree m (m.route.replyTo a) (toolText a) := by
  rcases a with f | b
  · -- The tool writes the message of a fault on one line, wherever the fault goes over the web.
    cases hm : m.isStep with
    | true =>
        refine agree_of_refuses (e := f.message) ?_ (fun e' => ?_) fun _ => reports_line_iff
        · rw [Route.replyTo, m.catchesFaults_route, hm]
          exact fun _ => nofun
        · rw [Route.replyTo, m.catchesFaults_route, hm, Bool.not_true, if_neg Bool.false_ne_true,
            Mutation.Refuses, hm, if_pos rfl]
          constructor
          · rintro ⟨_, ⟨⟩, rfl⟩
            rfl
          · rintro rfl
            exact ⟨f, rfl, rfl⟩
    | false =>
        rw [Route.replyTo, m.catchesFaults_route, hm, Bool.not_false, if_pos rfl]
        exact agree_of_refuses (detail_ne_answer (by decide) _)
          (fun _ => refuses_detail_iff hm (.inr rfl)) fun _ => reports_line_iff
  · cases h b rfl with
    | @found j hplain hnone =>
        refine ⟨fun k => ?_, fun e => ?_, .inl ⟨j, rfl⟩⟩
        · show Except.ok (Reply.mk 200 j) = .ok ⟨200, k⟩ ↔ Presents j.indented k
          rw [presents_indented_iff hplain hnone, Except.ok.injEq, Reply.mk.injEq, eq_comm (a := j)]
          exact and_iff_right rfl
        · refine iff_of_false ?_ (not_reports_indented hplain hnone e)
          rw [Route.replyTo, Mutation.Refuses]
          split
          · exact nofun
          · rintro (h | h)
            · exact detail_ne_answer (by decide) _ _ h.symm
            · exact detail_ne_answer (by decide) _ _ h.symm
    | noTask hm id =>
        exact agree_of_refuses (detail_ne_answer (by decide) _)
          (fun _ => refuses_detail_iff hm (.inl rfl)) fun _ => reports_indented_iff

/-! ## Answers to changes -/

theorem plain_ofOption {α : Type} {f : α → Json} (hf : ∀ a, (f a).Plain) (o : Option α) :
    (Json.ofOption f o).Plain := by
  cases o with
  | none => exact .null
  | some a => exact hf a

theorem plain_intsJson (ns : List Int) : (intsJson ns).Plain := by
  refine .list fun j hj => ?_
  obtain ⟨n, _, rfl⟩ := List.mem_map.mp hj
  exact .int n

theorem plain_taskFields (t : Plan.Task) : ∀ f ∈ taskFields t, f.2.Plain := by
  have htext := plain_ofOption Json.Plain.text
  have hdate := plain_ofOption (f := dateJson) fun d => .text d.iso
  simp only [taskFields, List.forall_mem_cons]
  exact ⟨.text _, .text _, .int _, .int _, .text _, .int _, .text _, .text _, plain_intsJson _,
    .bool _, .bool _, .text _, htext _, hdate _, .bool _, htext _, .int _, nofun⟩

mutual

theorem plain_treeFields (tree : Plan.Tree) : ∀ f ∈ treeFields tree, f.2.Plain := by
  cases tree with
  | node t children =>
      cases children with
      | nil => exact plain_taskFields t
      | cons child children =>
          rw [treeFields, List.forall_mem_append, List.forall_mem_singleton]
          refine ⟨plain_taskFields t, .list ?_⟩
          rw [List.forall_mem_cons]
          exact ⟨.object (plain_treeFields child), plain_treesJson children⟩

theorem plain_treesJson (trees : List Plan.Tree) : ∀ j ∈ treesJson trees, j.Plain := by
  cases trees with
  | nil => exact nofun
  | cons tree trees =>
      rw [treesJson, List.forall_mem_cons]
      exact ⟨.object (plain_treeFields tree), plain_treesJson trees⟩

end

theorem plain_actionJson (a : Action) : (actionJson a).Plain := by
  have hplacement : ∀ p : Placement, (placementJson p).Plain := by
    intro p
    refine .object ?_
    simp only [List.forall_mem_cons]
    exact ⟨.text _, .int _, nofun⟩
  refine .object ?_
  simp only [List.forall_mem_cons]
  exact ⟨.text _, .text _, .int _, hplacement _, hplacement _, nofun⟩

theorem lookup_error_treeFields (tree : Plan.Tree) (rest : List (String × Json)) :
    (treeFields tree ++ rest).lookup "error" = rest.lookup "error" := by
  cases tree with
  | node t children =>
      cases children with
      | nil => rfl
      | cons child children =>
          rw [treeFields]
          rfl

section

variable {m : Mutation}

theorem answers_taskAnswer (hm : m.isStep = false) (s : Session) (id : String) :
    m.Answers (taskAnswer s id) := by
  rw [taskAnswer]
  split
  · exact .noTask hm id
  · next t p _ =>
      refine .found (.object ?_) (lookup_error_treeFields (p.tree t) _)
      rw [List.forall_mem_append, List.forall_mem_singleton]
      exact ⟨plain_treeFields _, .text _⟩

/-- All outcomes of the work have `P`. -/
def Gives {α : Type} (P : α → Prop) (w : Work α) : Prop := ∀ d a, (w.on d).1 = .ok a → P a

theorem gives_pure {α : Type} {P : α → Prop} {a : α} (h : P a) : Gives P (pure a) := by
  rintro d _ ⟨⟩
  exact h

theorem gives_bind {α β : Type} {P : β → Prop} {w : Work α} {k : α → Work β}
    (h : ∀ a, Gives P (k a)) : Gives P (w >>= k) := by
  intro d b hb
  rw [on_bind] at hb
  split at hb
  · next a d' _ => exact h a d' b hb
  · cases hb

theorem gives_editedAnswer (hm : m.isStep = false) (id : String)
    (task : Option Plan.Task) : Gives m.Answers (editedAnswer id task) := by
  cases task with
  | none => exact gives_pure (.noTask hm id)
  | some t => exact gives_bind fun d => gives_pure (answers_taskAnswer hm d.session t.id)

theorem gives_stepAnswer (action : Option Action) : Gives m.Answers (stepAnswer action) := by
  refine gives_bind fun d => gives_pure (.found (.object ?_) rfl)
  simp only [List.forall_mem_cons]
  exact ⟨plain_ofOption plain_actionJson action, .bool _, .bool _, nofun⟩

end

theorem gives_answer (m : Mutation) : Gives m.Answers (answer m.route.request) := by
  cases m with
  | drag id body =>
      exact gives_bind fun _ => gives_bind fun _ => gives_bind fun _ => gives_bind fun task =>
        gives_editedAnswer rfl _ task
  | update id body =>
      exact gives_bind fun _ => gives_bind fun task => gives_editedAnswer rfl _ task
  | undo => exact gives_bind gives_stepAnswer
  | redo => exact gives_bind gives_stepAnswer
  | edit body =>
      refine gives_bind fun _ => gives_bind fun changed => gives_pure (.found (.object ?_) rfl)
      simp only [List.forall_mem_cons]
      exact ⟨.text _, .bool _, nofun⟩

/-- The tool and the route do the same to the desk and say the same, except that undo and redo over
the web let a fault out. -/
theorem surfaces_agree {m : Mutation} {arguments : Arguments} (hcalls : m.Calls arguments)
    (d : Desk) :
    ∃ r text, toolRequest? m.tool arguments = some r
      ∧ (callTool r).on d = (.ok text, (m.route.reply.on d).2)
      ∧ Agree m (m.route.reply.on d).1 text := by
  refine ⟨m.route.request, toolText ((answer m.route.request).on d).1,
    toolRequest?_of_calls hcalls, ?_, ?_⟩
  · rw [on_callTool, Route.on_reply]
  · rw [Route.on_reply]
    exact agree_of_answers (gives_answer m d)

/-- An update of the only task of a small session, which asks for three days. -/
def threeDays : Mutation := .update "project-0-task-0" { duration := some 3 }

def threeDaysArguments : Arguments := [("duration", .int 3), ("task_id", .text "project-0-task-0")]

theorem calls_threeDays : threeDays.Calls threeDaysArguments where
  fit := ⟨_, rfl, rfl⟩
  values := by
    simp only [threeDays, Mutation.values, Arguments.Have, List.forall_mem_cons]
    exact ⟨rfl, rfl, rfl, rfl, rfl, rfl, rfl, rfl, rfl, List.forall_mem_nil _⟩

theorem surfaces_agree_desk : threeDays.Calls threeDaysArguments
    ∧ ∃ r text, toolRequest? threeDays.tool threeDaysArguments = some r
      ∧ (callTool r).on (Session.Sample.desk none 1000000 {})
        = (.ok text, (threeDays.route.reply.on (Session.Sample.desk none 1000000 {})).2)
      ∧ Agree threeDays (threeDays.route.reply.on (Session.Sample.desk none 1000000 {})).1 text :=
  ⟨calls_threeDays, surfaces_agree calls_threeDays _⟩

/-! ### A fault that comes out -/

theorem calls_undo : Mutation.undo.Calls [] := ⟨⟨_, rfl, rfl⟩, nofun⟩

/-- An undo that cannot write lets the fault out over the web, and the tool reports it. -/
theorem fault_escapes_blocked : Session.blocked.Reachable ∧ Mutation.undo.Calls []
    ∧ ∃ f d' r text, Route.undo.reply.on Session.blocked = (.error f, d')
      ∧ toolRequest? "timeline_undo" [] = some r
      ∧ (callTool r).on Session.blocked = (.ok text, d') ∧ Reports text f.message := by
  have hanswer : (answer .undo).on Session.blocked = (.error (.isDirectory "roadmap.md"),
      Session.withHistory Session.blocked { redoable := [Session.Sample.action] }) := by
    rw [answer, on_bind, Session.undo_blocked]
  have htool := on_callTool .undo Session.blocked
  have hweb := Route.undo.on_reply Session.blocked
  rw [Route.request, hanswer] at hweb
  rw [hanswer] at htool
  exact ⟨Session.reachable_blocked, calls_undo, _, _, _, _, hweb, rfl, htool, .inr rfl⟩

end Roadmap.Service
