import Conveyor.Proofs.Pool.Sequential
import Conveyor.Proofs.Server.Fetching
import Conveyor.Proofs.Server.Phases
import Conveyor.Proofs.Server.Recent
import Conveyor.Proofs.Server.Rest

/-!
# Health agrees with admission

The health check reads the lifecycles of the pipeline and the pool, but whether they take anything
is decided by the ends of their queues that are left. The main statement is `agreement_of_run`: both
tell the same story, which is that of the calls that have come to the parts. The health check says
that all is well if and only if both parts were started and neither was stopped, and a part is closed
if and only if it was stopped.

For a part on its own this need not be so, for its queue is closed as well when nobody is left to
take from it. But the sinks and the policy of a server kill nobody, so nobody goes before the part is
stopped (`Reached.closed_iff`).
-/

namespace Conveyor.Server

open Http Json Metrics Moderation Time

variable {settings : Settings.Server} {s t : State} {id : Nat} {order : Order} {stage : Stage}
  {ids : List Nat} {as : List Action} {past : List Note} {history : List Entry} {part : Part}
  {request : Conveyor.Request} {item : Item} {r : Http.Request} {now : Timestamp}

/-! ### What the calls have asked -/

/-- Both parts were started, and neither was stopped. -/
def Up (as : List Action) (s : State) : Prop :=
  ∀ part, WasAsked part as s.pending .start ∧ ¬WasAsked part as s.pending .stop

/-- Only a stage at the pipeline asks the pipeline for something. -/
theorem Stage.asks?_pipeline_eq_some_iff :
    stage.asks? .pipeline = some request ↔ stage = .pipeline request := by
  cases stage with
  | pipeline => simp [asks?]
  | moderation other => cases other <;> simp [asks?]

/-- A start asks for nothing but to start. -/
theorem Order.eq_start_of_asks (hstage : stage ∈ Order.start.stages)
    (hasks : stage.asks? part = some request) : request = .start := by
  rcases List.mem_cons.1 hstage with rfl | hstage
  · cases part <;> simp_all [Stage.asks?]
  · obtain rfl := List.mem_singleton.1 hstage
    cases part <;> simp_all [Stage.asks?]

/-- A call comes to its first stage at once. -/
theorem Accounts.wasAsked_of_head (h : Accounts as s history ids) (hids : (callIds as).Nodup)
    (hissued : .issue id order ∈ as) (hhead : order.stages.head? = some stage)
    (hasks : stage.asks? part = some request) : WasAsked part as s.pending request := by
  obtain ⟨rest, hstages⟩ := List.head?_eq_some_iff.1 hhead
  refine ⟨id, order, stage, hissued, List.mem_of_head? hhead, hasks, ?_⟩
  rintro ⟨p, hp, rfl, hmem⟩
  obtain ⟨other, hother, hrest, -⟩ := h.of_pending hp
  obtain rfl := order_unique hids hissued hother
  rw [hstages, List.tail_cons] at hrest
  exact (List.nodup_cons.1 (hstages ▸ order.nodup_stages)).1 (hrest.subset hmem)

/-- A call that has returned has come to all its stages. -/
theorem Phases.wasAsked_of_returned (h : Phases as s past s.pending)
    (hissued : .issue id order ∈ as) (hreturned : .returned id ∈ past)
    (hstage : stage ∈ order.stages) (hasks : stage.asks? part = some request) :
    WasAsked part as s.pending request :=
  ⟨id, order, stage, hissued, hstage, hasks,
    fun ⟨p, hp, hid, _⟩ ↦ (h.returned id hreturned).2 p hp hid⟩

/-- A start comes to the pool at once, as long as the pipeline is not stopped. -/
theorem Accounts.pool_wasAsked_of_start (hs : Reached s) (h : Accounts as s history [])
    (hissued : .issue id .start ∈ as) (hlife : s.pipeline.lifecycle ≠ .stopped) :
    WasAsked .pool as s.pending .start := by
  refine ⟨id, .start, .moderation .start, hissued, by simp [Order.stages], rfl, ?_⟩
  rintro ⟨p, hp, rfl, hmem⟩
  cases h.account p.id .start hissued with
  | returned gone => exact gone p hp rfl
  | @waits done rest current stages only begun has =>
    have hrest := congrArg Pending.rest ((only p).1 ⟨hp, rfl⟩)
    -- With a stage ahead the call is at the pipeline, and it waits only for one that stops it.
    obtain rfl : current = .pipeline .start := by
      rw [hrest] at hmem
      rcases done with - | ⟨first, - | ⟨second, done⟩⟩
      · exact (List.cons.inj stages).1.symm
      · simp_all [Order.stages]
      · simp_all [Order.stages]
    obtain ⟨c, hc, -⟩ := has.resolve_right List.not_mem_nil
    refine hlife (hs.inTurn.stopped fun hfree ↦ ?_)
    rw [hs.inTurn.order.calls_eq_nil hfree] at hc
    exact List.not_mem_nil hc

/-- The pipeline is stopped as soon as a call is issued that stops it. -/
theorem Accounts.pipeline_stopped_iff (h : Accounts as s history ids) (hids : (callIds as).Nodup) :
    WasAsked .pipeline as s.pending .stop ↔
      ∃ id order, .issue id order ∈ as ∧ .pipeline .stop ∈ order.stages := by
  constructor
  · rintro ⟨id, order, stage, hissued, hstage, hasks, -⟩
    exact ⟨id, order, hissued, Stage.asks?_pipeline_eq_some_iff.1 hasks ▸ hstage⟩
  · rintro ⟨id, order, hissued, hstop⟩
    obtain ⟨request, hhead⟩ := order.head_or.resolve_right fun hnever ↦ hnever hstop
    obtain rfl := order.eq_stop_of_mem hstop (List.mem_of_head? hhead)
    exact h.wasAsked_of_head hids hissued hhead rfl

/-- A server is up if and only if it was started and nothing else was called. -/
theorem Accounts.up_iff (hs : Reached s) (h : Accounts as s history []) (hids : (callIds as).Nodup)
    (hphases : Phases as s past s.pending) :
    Up as s ↔ (∃ id, .issue id .start ∈ as) ∧ ∀ id order, .issue id order ∈ as → order = .start := by
  constructor
  · intro hup
    refine ⟨?_, fun id order hissued ↦ ?_⟩
    · obtain ⟨id, order, stage, hissued, hstage, hasks, -⟩ := (hup .pipeline).1
      obtain rfl := Stage.asks?_pipeline_eq_some_iff.1 hasks
      obtain rfl : order = .start := by
        cases order <;> simp_all [Order.stages]
      exact ⟨id, hissued⟩
    · cases order with
      | start => rfl
      | shutdown | stopPipeline =>
        exact absurd (h.wasAsked_of_head hids hissued rfl rfl) (hup .pipeline).2
      | stopPool | stopModeration =>
        exact absurd (h.wasAsked_of_head hids hissued rfl rfl) (hup .pool).2
  · rintro ⟨⟨id, hissued⟩, hall⟩
    have hstop (part : Part) : ¬WasAsked part as s.pending .stop := by
      rintro ⟨id, order, stage, hissued, hstage, hasks, -⟩
      obtain rfl := hall id order hissued
      exact Request.noConfusion (Order.eq_start_of_asks hstage hasks)
    intro part
    refine ⟨?_, hstop part⟩
    cases part with
    | pipeline => exact h.wasAsked_of_head hids hissued rfl rfl
    | pool =>
      refine h.pool_wasAsked_of_start hs hissued fun hlife ↦ hstop .pipeline ?_
      exact (hphases.stopped_iff .pipeline).1 hlife

/-- A part is running if and only if it was started and not stopped. -/
theorem Phases.running_iff (h : Phases as s past s.pending) (part : Part) :
    s.lifecycle part = .running ↔
      WasAsked part as s.pending .start ∧ ¬WasAsked part as s.pending .stop := by
  rw [← h.stopped_iff]
  constructor
  · intro hlife
    have hstopped : s.lifecycle part ≠ .stopped := by simp [hlife]
    have hcreated : s.lifecycle part ≠ .created := by simp [hlife]
    rw [ne_eq, h.created_iff, not_forall_not] at hcreated
    obtain ⟨request, hasked⟩ := hcreated
    cases request with
    | start => exact ⟨hasked, hstopped⟩
    | stop => exact absurd ((h.stopped_iff part).2 hasked) hstopped
  · rintro ⟨hstart, hstopped⟩
    rcases hlife : s.lifecycle part with - | - | -
    · exact absurd hstart ((h.created_iff part).1 hlife .start)
    · rfl
    · exact absurd hlife hstopped

/-- A server is healthy if and only if its parts are running. -/
theorem State.isHealthy_iff (s : State) :
    s.isHealthy = true ↔ ∀ part, s.lifecycle part = .running := by
  rw [isHealthy, Bool.and_eq_true, beq_iff_eq, beq_iff_eq]
  constructor
  · rintro ⟨hpipeline, hpool⟩ (_ | _)
    · exact hpipeline
    · exact hpool
  · exact fun hall ↦ ⟨hall .pipeline, hall .pool⟩

/-- A server is healthy if and only if it is up. -/
theorem Phases.isHealthy_iff (h : Phases as s past s.pending) : s.isHealthy = true ↔ Up as s :=
  s.isHealthy_iff.trans (forall_congr' h.running_iff)

/-! ### What the parts answer -/

/-- The part that has to take an item, where events below `minLevel` are passed over. -/
def Item.part? (minLevel : Level) : Item → Option Part
  | event e => if e.level < minLevel then none else some .pipeline
  | job _ => some .pool
  | sample _ => none

/-- An item that no part has to take is taken. -/
theorem State.admission_of_part?_eq_none (h : item.part? s.pipeline.minLevel = none) :
    s.admission item = .ok () := by
  cases item with
  | event e =>
    rw [admission_event, if_pos]
    by_contra hlevel
    simp [Item.part?, hlevel] at h
  | job j => simp [Item.part?] at h
  | sample x => rfl

/-- A queue that is closed only when this is so. -/
theorem exists_closed_iff {p room : Prop} [Decidable p] [Decidable room] {queue : String}
    {capacity : Nat} :
    (∃ name, (if p then .error (.closed queue) else if room then .ok ()
      else .error (.full queue capacity) : Admission) = .error (.closed name)) ↔ p := by
  by_cases hp : p
  · simp [hp]
  · by_cases hroom : room <;> simp [hp, hroom]

/-- A part is closed if and only if it is stopped. -/
theorem Reached.closed_iff (hs : Reached s) (hpart : item.part? s.pipeline.minLevel = some part) :
    (∃ queue, s.admission item = .error (.closed queue)) ↔ s.lifecycle part = .stopped := by
  cases item with
  | event e =>
    obtain ⟨hlevel, rfl⟩ : ¬e.level < s.pipeline.minLevel ∧ .pipeline = part := by
      simpa [Item.part?] using hpart
    rw [State.admission_event, if_neg hlevel, hs.coupled.admission_eq hs.task_ne_failed]
    exact exists_closed_iff
  | job j =>
    obtain rfl : .pool = part := Option.some.inj hpart
    rw [State.admission_job, hs.sound.coupled.admission_eq hs.sound.dead]
    exact exists_closed_iff
  | sample x => simp [Item.part?] at hpart

/-! ### What the server answers -/

/-- What the health check says. -/
def report (status : String) : Response :=
  .ofJson 200 (.object [("status", .text status), ("version", .text version)])

/-- The request posts this item to an inbox, and nothing that the item needs is missing. -/
def Offers (r : Http.Request) (now : Timestamp) (item : Item) : Prop :=
  ∃ inbox : Inbox, r.method = .post ∧ r.path = inbox.path ∧
    Item.ofRequest now r inbox = .ok item ∧ ¬item.IsIncomplete

/-- The health check reports whether the server is healthy. -/
theorem State.respond_health (s : State) (now : Timestamp) (hget : r.method = .get)
    (hpath : r.path = Resource.health.path) :
    (s.respond now r).1 = report (if s.isHealthy then "ok" else "degraded") := by
  have hroute : r.route = .read .health true := Request.route_eq_read_iff.2 ⟨hpath, hget⟩
  simp only [respond, hroute, read, report, if_true]

/-- A server that is healthy says so, and no other. -/
theorem State.reports_ok_iff (s : State) (now : Timestamp) (hget : r.method = .get)
    (hpath : r.path = Resource.health.path) :
    ((s.respond now r).1 = report "ok" ↔ s.isHealthy = true) ∧
      ((s.respond now r).1 = report "degraded" ↔ ¬s.isHealthy = true) := by
  have hne : report "ok" ≠ report "degraded" := by simp [report, Response.ofJson]
  rw [s.respond_health now hget hpath]
  cases s.isHealthy with
  | true => simp [hne]
  | false => simp [hne.symm]

/-- An item that is taken is not answered with a code. -/
theorem State.code?_reply (s : State) (now : Timestamp) (item : Item) :
    (s.reply now item).code? = none := by
  cases item <;> rfl

/-- A complete item is answered as unavailable if and only if its part is closed. -/
theorem State.code?_eq_iff (s : State) (hoffers : Offers r now item) :
    (s.respond now r).1.code? = some "SERVICE_UNAVAILABLE" ↔
      ∃ queue, s.admission item = .error (.closed queue) := by
  obtain ⟨inbox, hpost, hpath, hread, hcomplete⟩ := hoffers
  rw [respond_of_complete s (Request.route_of_post hpost hpath) hread hcomplete]
  rcases s.admission item with (_ | _ | _) | ⟨⟩
  · simp [Failure.answer]
  · simp [Failure.answer]
  · simp [Failure.answer]
  · simp [code?_reply]

/-- A post to a server without a closed part is not answered as unavailable. -/
theorem Reached.code?_ne (hs : Reached s) (hopen : ∀ part, s.lifecycle part ≠ .stopped)
    (now : Timestamp) (hpost : r.method = .post) :
    (s.respond now r).1.code? ≠ some "SERVICE_UNAVAILABLE" := by
  rcases hroute : r.route with ⟨resource, withBody⟩ | inbox | allow | _
  · have hmethod := (Request.route_eq_read_iff.1 hroute).2
    cases withBody <;> simp [hpost] at hmethod
  · rcases hread : Item.ofRequest now r inbox with fault | item
    · simp [State.respond_of_unreadable s hroute hread, Failure.answer]
    · by_cases hincomplete : item.IsIncomplete
      · obtain ⟨text, hrespond⟩ := State.respond_of_incomplete s hroute hread hincomplete
        simp [hrespond, Failure.answer]
      · have hpath := (Request.route_eq_send_iff.1 hroute).2
        rw [ne_eq, s.code?_eq_iff ⟨inbox, hpost, hpath, hread, hincomplete⟩]
        rcases hpart : item.part? s.pipeline.minLevel with - | part
        · simp [State.admission_of_part?_eq_none hpart]
        · exact mt (hs.closed_iff hpart).1 (hopen part)
  · simp [State.respond, hroute, Response.code?]
  · simp [State.respond, hroute, Response.code?]

/-! ### The statement -/

/-- In a server with these settings, reached by the actions `as` with the history `past`, the health
check and the parts tell the same. -/
structure Agreement (settings : Settings.Server) (as : List Action) (s : State)
    (past : List Entry) : Prop where
  /-- The health check says that all is well if and only if the server is up. -/
  ok_iff : ∀ now r, r.method = .get → r.path = Resource.health.path →
    ((s.respond now r).1 = report "ok" ↔ Up as s)
  /-- Otherwise it says that the server is degraded. -/
  degraded_iff : ∀ now r, r.method = .get → r.path = Resource.health.path →
    ((s.respond now r).1 = report "degraded" ↔ ¬Up as s)
  /-- The server is up if and only if it was started and nothing else was called. -/
  up_iff : Up as s ↔
    (∃ id, .issue id .start ∈ as) ∧ ∀ id order, .issue id order ∈ as → order = .start
  /-- The pipeline is stopped as soon as a call is issued that stops it. -/
  pipeline_stopped_iff : WasAsked .pipeline as s.pending .stop ↔
    ∃ id order, .issue id order ∈ as ∧ .pipeline .stop ∈ order.stages
  /-- A part is closed to the items that it has to take if and only if it was stopped. -/
  closed_iff : ∀ item part, item.part? settings.pipeline.minLevel = some part →
    ((∃ queue, s.admission item = .error (.closed queue)) ↔ WasAsked part as s.pending .stop)
  /-- Only then such an item is answered as unavailable. -/
  unavailable_iff : ∀ now r item part, Offers r now item →
    item.part? settings.pipeline.minLevel = some part →
      ((s.respond now r).1.code? = some "SERVICE_UNAVAILABLE" ↔ WasAsked part as s.pending .stop)
  /-- While the server is up, nothing that is posted is answered as unavailable. -/
  available : Up as s → ∀ now r, r.method = .post →
    (s.respond now r).1.code? ≠ some "SERVICE_UNAVAILABLE"
  /-- When a shutdown has returned, every item that a part has to take is turned away for good. -/
  shut : ∀ id, .issue id .shutdown ∈ as → .note (.returned id) ∈ past →
    ∀ after t later, s.run after = some (t, later) → (callIds (as ++ after)).Nodup →
      ∀ now r item part, Offers r now item → item.part? settings.pipeline.minLevel = some part →
        (t.respond now r).1.status = 503 ∧
          (t.respond now r).1.code? = some "SERVICE_UNAVAILABLE" ∧ (t.respond now r).2.1 = t

/-- A shutdown that has returned has stopped every part. -/
theorem Phases.stopped_of_shutdown (h : Phases as s past s.pending)
    (hissued : .issue id .shutdown ∈ as) (hreturned : .returned id ∈ past) (part : Part) :
    WasAsked part as s.pending .stop := by
  cases part with
  | pipeline =>
    have hstage : Stage.pipeline .stop ∈ Order.stages .shutdown := by decide
    exact h.wasAsked_of_returned hissued hreturned hstage rfl
  | pool =>
    have hstage : Stage.moderation .stopPool ∈ Order.stages .shutdown := by decide
    exact h.wasAsked_of_returned hissued hreturned hstage rfl

/-- An item whose part is closed is turned away, and nothing changes. -/
theorem State.respond_of_closed (s : State) (hoffers : Offers r now item)
    (hclosed : ∃ queue, s.admission item = .error (.closed queue)) :
    (s.respond now r).1.status = 503 ∧ (s.respond now r).1.code? = some "SERVICE_UNAVAILABLE" ∧
      (s.respond now r).2.1 = s := by
  obtain ⟨inbox, hpost, hpath, hread, hcomplete⟩ := hoffers
  obtain ⟨queue, hclosed⟩ := hclosed
  rw [respond_of_complete s (Request.route_of_post hpost hpath) hread hcomplete, hclosed]
  exact ⟨rfl, rfl, rfl⟩

/-- In a run, a part is closed to the items that it has to take if and only if it was stopped. -/
theorem closed_iff_of_runs {past : List Entry}
    (hruns : Runs State.act (State.new settings).1 as s past) (hids : (callIds as).Nodup)
    (hpart : item.part? settings.pipeline.minLevel = some part) :
    (∃ queue, s.admission item = .error (.closed queue)) ↔ WasAsked part as s.pending .stop := by
  rw [← State.minLevel_eq hruns] at hpart
  rw [((Reached.of_new settings).of_runs hruns).closed_iff hpart,
    (Phases.of_runs hruns hids).stopped_iff]

/-- **Health agrees with admission.** After every run, whatever requests were answered, which calls
were issued and which steps have happened, the health check says that all is well if and only if both
parts were started and neither was stopped; and a part is closed if and only if it was stopped. So a
server that is up turns nothing away as unavailable, and one that was shut down everything that a
part has to take. -/
theorem agreement_of_run {past : List Entry}
    (hrun : (State.new settings).1.run as = some (s, past)) (hids : (callIds as).Nodup) :
    Agreement settings as s past := by
  have hnew := Reached.of_new settings
  have hruns := State.run_iff.1 hrun
  have hs := hnew.of_runs hruns
  have hphases := Phases.of_runs hruns hids
  have haccounts := Accounts.of_runs hnew rfl hruns hids
  exact {
    ok_iff := fun now r hget hpath ↦
      (s.reports_ok_iff now hget hpath).1.trans hphases.isHealthy_iff
    degraded_iff := fun now r hget hpath ↦
      (s.reports_ok_iff now hget hpath).2.trans (not_congr hphases.isHealthy_iff)
    up_iff := haccounts.up_iff hs hids hphases
    pipeline_stopped_iff := haccounts.pipeline_stopped_iff hids
    closed_iff := fun item part ↦ closed_iff_of_runs hruns hids
    unavailable_iff := fun now r item part hoffers hpart ↦
      (s.code?_eq_iff hoffers).trans (closed_iff_of_runs hruns hids hpart)
    available := fun hup now r hpost ↦ by
      refine hs.code?_ne (fun part hlife ↦ (hup part).2 ?_) now hpost
      exact (hphases.stopped_iff part).1 hlife
    shut := fun id hissued hreturned after t later hafter hids' now r item part hoffers hpart ↦ by
      have hall := hruns.trans (State.run_iff.1 hafter)
      have hstopped := (Phases.of_runs hall hids').stopped_of_shutdown
        (List.mem_append_left _ hissued) (mem_happened.2 (List.mem_append_left _ hreturned)) part
      exact t.respond_of_closed hoffers ((closed_iff_of_runs hall hids' hpart).2 hstopped) }

/-- While a shutdown waits for the pipeline, events are turned away and jobs are still taken; the
server is degraded already. -/
theorem agreement_of_run_sample : ∃ s past,
    (State.new smallSettings).1.run sampleShutdown = some (s, past) ∧
      (s.respond .epoch (postOfEvent "db" "info")).1.code? = some "SERVICE_UNAVAILABLE" ∧
      (s.respond .epoch (postOfJob "c")).1.status = 202 ∧ s.isHealthy = false ∧
      (callIds sampleShutdown).Nodup ∧ Agreement smallSettings sampleShutdown s past := by
  have hpossible : ((State.new smallSettings).1.run sampleShutdown).any (fun p ↦
      (p.1.respond .epoch (postOfEvent "db" "info")).1.code? = some "SERVICE_UNAVAILABLE" ∧
        (p.1.respond .epoch (postOfJob "c")).1.status = 202 ∧ p.1.isHealthy = false) = true := by
    decide +kernel
  have hids : (callIds sampleShutdown).Nodup := by decide
  obtain ⟨⟨s, past⟩, hrun, hends⟩ := (Option.any_eq_true _ _).1 hpossible
  obtain ⟨hevent, hjob, hhealthy⟩ := of_decide_eq_true hends
  exact ⟨s, past, hrun, hevent, hjob, hhealthy, hids, agreement_of_run hrun hids⟩

end Conveyor.Server
