import Conveyor.Proofs.Server.Histories

/-!
# Shutting down drains the pipeline

When a call that stops the pipeline has returned from the server, nobody takes events from the queue
of the pipeline any more (`isDrained_of_returned`). What is so of a call to the pipeline is carried
over to the call to the server that it is a stage of.

The parts know a call by its number only, and a call returns from the server when its last stage has,
in whichever part that is. So it has to be shown that the call has been through the pipeline before.
It has, for the pipeline comes first in every order: no call that has begun comes to it again
(`Passage.rest`), and whatever call is found at the moderation service, or has returned, has passed
the pipeline or was never meant to (`Passage.passed`).
-/

namespace Conveyor.Server

open Moderation Time

variable {s t u : State} {id : Nat} {order : Order} {stages : List Stage} {b : PartAction}
  {ids : List Nat} {a : Action} {as bs : List Action} {news later : List Note} {new : List Entry}
  {past : List Note}

/-! ### Orders -/

/-- No order comes to the pipeline later than at its first stage. -/
theorem Order.pipeline_not_mem_tail (order : Order) (request : Request) :
    .pipeline request ∉ order.stages.tail := by
  cases order <;> simp [stages]

/-- An order comes to the pipeline at its first stage, or never. -/
theorem Order.head_or (order : Order) :
    (∃ request, order.stages.head? = some (.pipeline request)) ∨
      .pipeline .stop ∉ order.stages := by
  cases order <;> simp [stages]

/-- An order that stops the pipeline asks nothing else of it. -/
theorem Order.eq_stop_of_mem {request : Request} (hstop : .pipeline .stop ∈ order.stages)
    (h : .pipeline request ∈ order.stages) : request = .stop := by
  cases order <;> simp_all [stages]

/-! ### Calls pass the pipeline first -/

/-- The call with this number has returned from the pipeline, if it stops it. -/
def Passed (as : List Action) (past : List Note) (id : Nat) : Prop :=
  ∃ order, .issue id order ∈ as ∧
    (.pipeline .stop ∈ order.stages → .pipeline (.returned id) ∈ past)

/-- Calls pass the pipeline before they come to anything else. The calls in `ids` are known to have
returned from their parts, and have not gone on yet. -/
structure Passage (as : List Action) (s : State) (past : List Note) (ids : List Nat) : Prop where
  /-- No call comes to the pipeline again. -/
  rest : ∀ p ∈ s.pending, ∀ request, .pipeline request ∉ p.rest
  /-- The calls that are past their first stage have passed the pipeline. -/
  passed : ∀ id, s.moderation.Waits id ∨ .returned id ∈ past ∨ id ∈ ids → Passed as past id

/-- More is done, and more has happened. -/
theorem Passed.mono (h : Passed as past id) (hsub : as ⊆ bs) (later : List Note) :
    Passed bs (past ++ later) id := by
  obtain ⟨order, hissued, hreturned⟩ := h
  exact ⟨order, hsub hissued, fun hstop ↦ List.mem_append_left _ (hreturned hstop)⟩

/-- A part does not say that a call has returned from the server. -/
theorem Acts.returned_not_mem (h : Acts s b t news) (id : Nat) : .returned id ∉ news := by
  cases h <;> simp

/-- What returned from the pipeline is among what returned from the parts. -/
theorem mem_partReturns_of_pipeline (h : .pipeline (.returned id) ∈ news) :
    id ∈ partReturns news :=
  List.mem_filterMap.2 ⟨_, h, rfl⟩

namespace Passage

/-- Fewer calls are known to have returned from their parts. -/
theorem of_subset (h : Passage as s past ids) {fewer : List Nat} (hsub : fewer ⊆ ids) :
    Passage as s past fewer where
  rest := h.rest
  passed id hid := h.passed id (hid.imp_right (.imp_right (hsub ·)))

/-- More is done. -/
theorem concat (h : Passage as s past ids) (a : Action) : Passage (as ++ [a]) s past ids where
  rest := h.rest
  passed id hid := by
    have hpassed := (h.passed id hid).mono (List.subset_append_left as [a]) []
    rwa [List.append_nil] at hpassed

/-- A part acts. Whoever returns from the pipeline was issued, and whoever is issued to the moderation
service has passed the pipeline. -/
theorem of_acts (hs : Reached s) (h : Passage as s past ids) (hacts : Acts s b t news)
    (hpipeline : ∀ id, .pipeline (.returned id) ∈ news → ∃ order, .issue id order ∈ as)
    (hmoderation : ∀ id request, b = .moderation (.issue id request) → Passed as past id) :
    Passage as t (past ++ news) (ids ++ partReturns news) := by
  have hmono {id : Nat} (hid : Passed as past id) : Passed as (past ++ news) id :=
    hid.mono (List.Subset.refl as) news
  have hnow {id : Nat} (hid : t.moderation.Waits id ∨ id ∈ partReturns news) :
      Passed as (past ++ news) id := by
    cases hacts with
    | @pipeline a pipeline news acts =>
      rcases hid with hwaits | hreturned
      · exact hmono (h.passed id (.inl hwaits))
      · have hnoted : .pipeline (.returned id) ∈ news.map Note.pipeline :=
          List.mem_map_of_mem (mem_partReturns_pipeline.1 hreturned)
        obtain ⟨order, hissued⟩ := hpipeline id hnoted
        exact ⟨order, hissued, fun _ ↦ List.mem_append_right _ hnoted⟩
    | moderation acts =>
      have hchange := Service.State.change hs.sound.coupled acts
      rcases hchange.waited (hid.imp_right mem_partReturns_moderation.1) with hold | ⟨request, rfl⟩
      · exact hmono (h.passed id (.inl hold))
      · exact hmono (hmoderation id request rfl)
  refine ⟨fun p hp ↦ h.rest p (hacts.pending_eq ▸ hp), fun id hid ↦ ?_⟩
  rcases hid with hwaits | hreturned | hids
  · exact hnow (.inl hwaits)
  · have hbefore := (List.mem_append.1 hreturned).resolve_right (hacts.returned_not_mem id)
    exact hmono (h.passed id (.inr (.inl hbefore)))
  · rcases List.mem_append.1 hids with hold | hnew
    · exact hmono (h.passed id (.inr (.inr hold)))
    · exact hnow (.inr hnew)

/-- A call comes to a stage that is at the pipeline, or has passed the pipeline. -/
theorem of_stage {stage : Stage} (hs : Reached s) (h : Passage as s past ids)
    (hacts : Acts s (stage.action id) t news) (hissued : ∃ order, .issue id order ∈ as)
    (hid : (∃ request, stage = .pipeline request) ∨ Passed as past id) :
    Passage as t (past ++ news) (ids ++ partReturns news) := by
  refine h.of_acts hs hacts (fun k hk ↦ ?_) fun k request hk ↦ ?_
  · obtain rfl := hacts.eq_of_returned hs (mem_partReturns_of_pipeline hk)
    exact hissued
  · rcases hid with ⟨request, rfl⟩ | hpassed
    · simp [Stage.action] at hk
    · cases stage with
      | pipeline => simp [Stage.action] at hk
      | moderation =>
        obtain ⟨rfl, -⟩ := Service.Action.issue.inj (PartAction.moderation.inj hk)
        exact hpassed

/-- A call goes through stages of which only the first one may be at the pipeline. -/
theorem of_goes (hs : Reached s) (h : Passage as s past ids) (hissued : ∃ order, .issue id order ∈ as)
    (hstages : ∀ request, .pipeline request ∉ stages.tail)
    (hid : (∃ request, stages.head? = some (.pipeline request)) ∨ Passed as past id)
    (hgoes : Goes id s stages t news) : Passage as t (past ++ news) ids := by
  induction hgoes generalizing past with
  | @returns s =>
    have hpassed : Passed as past id := hid.resolve_left (by simp)
    refine ⟨h.rest, fun k hk ↦ ?_⟩
    by_cases hkid : k = id
    · rw [hkid]
      exact hpassed.mono (List.Subset.refl as) _
    · refine (h.passed k ?_).mono (List.Subset.refl as) _
      simpa [hkid] using hk
  | @waits s t stage rest news acts =>
    have hacted := h.of_stage hs acts hissued (by simpa using hid)
    refine ⟨fun p hp ↦ ?_, (hacted.of_subset (List.subset_append_left _ _)).passed⟩
    rcases List.mem_append.1 hp with hold | hnew
    · exact hacted.rest p hold
    · rw [List.mem_singleton.1 hnew]
      exact hstages
  | @passes s t u stage rest news later acts returned _ ih =>
    have hacted := h.of_stage hs acts hissued (by simpa using hid)
    have hpassed := hacted.passed id (.inr (.inr (List.mem_append_right _ returned)))
    rw [← List.append_assoc]
    refine ih (hs.of_acts acts) (hacted.of_subset (List.subset_append_left _ _)) ?_ (.inr hpassed)
    exact fun request hmem ↦ hstages request (List.mem_of_mem_tail hmem)

/-- Calls go on whose stages have returned. -/
theorem of_proceeds (hs : Reached s) (h : Passage as s past ids)
    (hproceeds : Proceeds s ids t news) : Passage as t (past ++ news) [] := by
  induction hproceeds generalizing past with
  | done => rwa [List.append_nil]
  | skip _ _ ih => exact ih hs (h.of_subset (List.subset_cons_self _ _))
  | @next s t u p ids news later waiting goes _ ih =>
    have hs' := hs.with_pending (s.others p.id)
    have hpassed := h.passed p.id (.inr (.inr List.mem_cons_self))
    have hothers : Passage as { s with pending := s.others p.id } past ids :=
      ⟨fun q hq ↦ h.rest q (State.mem_others.1 hq).1,
        (h.of_subset (List.subset_cons_self _ _)).passed⟩
    have hgone := hothers.of_goes hs' (hpassed.imp fun _ ↦ And.left)
      (fun request hmem ↦ h.rest p waiting request (List.mem_of_mem_tail hmem)) (.inr hpassed) goes
    rw [← List.append_assoc]
    exact ih (hs'.of_goes goes) hgone

/-- Something happens in the server. -/
theorem of_change (hs : Reached s) (h : Passage as s past [])
    (hcalls : ∀ c ∈ s.pipeline.turns.calls, ∃ order, .issue c.id order ∈ as)
    (hchange : Change s a t new) : Passage (as ++ [a]) t (past ++ happened new) [] := by
  replace h := h.concat a
  cases hchange with
  | @answer _ _ _ metrics news quiet =>
    rw [happened_answered]
    refine ⟨h.rest, fun id hid ↦ (h.passed id ?_).mono (List.Subset.refl _) _⟩
    refine hid.imp_right (.imp_left fun hreturned ↦ ?_)
    refine (List.mem_append.1 hreturned).resolve_right fun hmem ↦ ?_
    obtain ⟨failure, hfailed⟩ := quiet _ hmem
    simp at hfailed
  | ask acts quiet isRequest =>
    rw [happened_answered]
    have hasked := h.of_acts hs acts (fun id hid ↦ ?_) fun id request hb ↦ ?_
    · rwa [quiet] at hasked
    · have hid := mem_partReturns_of_pipeline hid
      simp [quiet] at hid
    · subst hb
      exact isRequest.elim
  | @issue id order t news goes =>
    rw [happened_note]
    have hissued : .issue id order ∈ as ++ [.issue id order] := by simp
    refine h.of_goes hs ⟨order, hissued⟩ order.pipeline_not_mem_tail ?_ goes
    exact order.head_or.imp_right fun hnever ↦ ⟨order, hissued, fun hstop ↦ absurd hstop hnever⟩
  | @step x now b t u news later isStep acts proceeds =>
    rw [happened_note, ← List.append_assoc]
    have hacted := h.of_acts hs acts (fun id hid ↦ ?_) fun id request hb ↦ ?_
    · exact hacted.of_proceeds (hs.of_acts acts) proceeds
    · cases acts with
      | @pipeline a pipeline notes acts =>
        obtain ⟨call, rfl, hwhence, -⟩ := (hs.coupled.move acts).of_returned hs.coupled
          (by simpa using hid)
        rcases hwhence with rfl | hcall
        · exact isStep.elim
        · exact (hcalls call hcall).imp fun _ ↦ List.mem_append_left _
      | moderation => simp at hid
    · subst hb
      exact isStep.elim

end Passage

/-! ### The pipeline of a new server -/

/-- A call is issued to the pipeline when the server comes to this stage of an order. -/
theorem Asked.of_issue {c : Call} (h : Asked as (.pipeline (.issue c))) :
    ∃ order, .issue c.id order ∈ as ∧ .pipeline c.request ∈ order.stages := by
  generalize hb : PartAction.pipeline (.issue c) = b at h
  cases h with
  | request _ isRequest | step isRequest =>
    subst hb
    exact isRequest.elim
  | @stage id order stage issued mem =>
    cases stage with
    | pipeline request =>
      obtain rfl := Pipeline.Action.issue.inj (PartAction.pipeline.inj hb)
      exact ⟨order, issued, mem⟩
    | moderation => simp [Stage.action] at hb

/-- The sinks of a server. -/
def outlets (settings : Settings.Server) : List Outlet :=
  [.recent, .stdout] ++ if settings.pipeline.forwardUrl.isSome then [.webhook] else []

/-- The pipeline of a new server has its sinks, and nothing else has happened to it. -/
theorem State.new_pipeline (settings : Settings.Server) :
    (State.new settings).1.pipeline =
      { Pipeline.State.new settings.pipeline.queueSize settings.pipeline.minLevel with
        sinks := outlets settings } := by
  rcases hurl : settings.pipeline.forwardUrl with - | url <;>
    simp [State.new, outlets, hurl] <;> rfl

/-- The pipeline of a new server is open. -/
theorem State.isOpen_new (settings : Settings.Server) :
    (State.new settings).1.pipeline.IsOpen := by
  rw [new_pipeline]
  exact ⟨Lifecycle.noConfusion, rfl, rfl⟩

/-- No call waits at the pipeline of a new server. -/
theorem State.calls_new (settings : Settings.Server) :
    (State.new settings).1.pipeline.turns.calls = [] := by
  rw [new_pipeline]
  rfl

section New

variable {settings : Settings.Server} {past : List Entry}

/-- The calls that the pipeline has not returned were issued to the server. -/
theorem issued_of_mem_calls (hruns : Runs State.act (State.new settings).1 as s past) :
    ∀ c ∈ s.pipeline.turns.calls, ∃ order, .issue c.id order ∈ as := by
  intro c hc
  obtain ⟨actions, hpipeline, hasked⟩ := (Follows.of_new hruns).pipeline
  have hissued := Pipeline.issue_mem_of_mem_calls (Reached.of_new settings).coupled
    (State.calls_new settings) hpipeline c hc
  exact (hasked _ hissued).2.of_issue.imp fun _ ↦ And.left

/-- Calls pass the pipeline of a new server before they come to anything else. -/
theorem Passage.of_runs (hruns : Runs State.act (State.new settings).1 as s past) :
    Passage as s (happened past) [] := by
  induction hruns with
  | refl =>
    refine ⟨List.forall_mem_nil _, fun id hid ↦ ?_⟩
    obtain ⟨p, hp, -⟩ := hid.resolve_right (by simp)
    exact absurd hp List.not_mem_nil
  | tail hruns act_eq ih =>
    rw [happened, extract_append]
    have hreached := (Reached.of_new settings).of_runs hruns
    exact ih.of_change hreached (issued_of_mem_calls hruns) (State.change act_eq)

/-- **Draining.** When a call that stops the pipeline has returned from the server, the pipeline is
stopped and nobody takes events from its queue any more. -/
theorem isDrained_of_returned (hruns : Runs State.act (State.new settings).1 as s past)
    (hids : (callIds as).Nodup) (hissued : .issue id order ∈ as)
    (hstops : .pipeline .stop ∈ order.stages) (hreturned : .note (.returned id) ∈ past) :
    s.pipeline.IsDrained := by
  obtain ⟨other, hother, hpassed⟩ :=
    (Passage.of_runs hruns).passed id (.inr (.inl (mem_happened.2 hreturned)))
  obtain rfl := order_unique hids hissued hother
  obtain ⟨actions, hpipeline, hasked⟩ := (Follows.of_new hruns).pipeline
  have hstop : Pipeline.IsStop actions id := by
    rintro call hcall rfl
    obtain ⟨other, hother, hstage⟩ := (hasked _ hcall).2.of_issue
    obtain rfl := order_unique hids hissued hother
    exact Order.eq_stop_of_mem hstops hstage
  have hnoted : .returned id ∈ inPipeline (happened past) :=
    List.mem_filterMap.2 ⟨_, hpassed hstops, rfl⟩
  exact (Reached.of_new settings).coupled.isDrained_of_returned (State.calls_new settings)
    hpipeline hstop hnoted

/-! ### A server that is started -/

/-- The server is started at some time, and its pipeline was not to be stopped before. -/
def StartsFirst (as : List Action) : Prop :=
  ∃ before id after, as = before ++ .issue id .start :: after ∧
    ∀ other order, .issue other order ∈ before → .pipeline .stop ∉ order.stages

/-- A call of `start` comes to an open pipeline, and the pipeline is started. -/
theorem Goes.born {rest : List Stage} (hs : Reached s) (hopen : s.pipeline.IsOpen)
    (h : Goes id s (.pipeline .start :: rest) t news) : t.pipeline.task ≠ .unborn := by
  have hfirst {t : State} {news : List Note}
      (hacts : Acts s (Stage.action id (.pipeline .start)) t news) :
      t.pipeline.task ≠ .unborn := by
    cases hacts with
    | pipeline acts => exact (hs.coupled.move acts).born_of_start hs.coupled hopen
  cases h with
  | waits acts =>
    have hborn := hfirst acts
    exact hborn
  | @passes _ u _ _ _ _ later acts _ goes =>
    have hfollows : Follows (fun _ ↦ True) u t later := .of_goes goes fun _ _ ↦ trivial
    obtain ⟨actions, hruns, -⟩ := hfollows.pipeline
    exact (hs.of_acts acts).coupled.born_of_runs hruns (hfirst acts)

/-- The pipeline of a server that was started has a task, or has had one. -/
theorem task_ne_unborn (hruns : Runs State.act (State.new settings).1 as s past)
    (hstarted : StartsFirst as) : s.pipeline.task ≠ .unborn := by
  obtain ⟨before, id, after, rfl, hnever⟩ := hstarted
  have hnew := Reached.of_new settings
  obtain ⟨t, early, late, hbefore, hlate, rfl⟩ := Runs.append_iff.1 hruns
  obtain ⟨u, now, later, hact, hafter, rfl⟩ := Runs.cons_iff.1 hlate
  have ht := hnew.of_runs hbefore
  have hopen : t.pipeline.IsOpen := by
    obtain ⟨actions, hpipeline, hasked⟩ := (Follows.of_new hbefore).pipeline
    refine hnew.coupled.open_of_runs hpipeline (State.isOpen_new settings) fun other hstop ↦ ?_
    obtain ⟨order, hissued, hstage⟩ := (hasked _ hstop).2.of_issue
    exact hnever other order hissued hstage
  have hu : u.pipeline.task ≠ .unborn := by
    cases State.change hact with
    | issue goes => exact goes.born ht hopen
  have hfollows : Follows (fun _ ↦ True) u s (happened later) :=
    (Follows.of_runs hafter (fun _ _ _ _ ↦ trivial) fun _ _ ↦ trivial).1
  obtain ⟨actions, hpipeline, -⟩ := hfollows.pipeline
  exact (ht.of_change (State.change hact)).coupled.born_of_runs hpipeline hu

end New

end Conveyor.Server
