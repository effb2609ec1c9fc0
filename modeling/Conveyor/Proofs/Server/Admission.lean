import Conveyor.Server.Respond

/-!
# Admission by stages

What becomes of a request that sends something. The main statement is `admission_of_post`: the body
is read, the item in it is checked, and the part it is meant for is asked, in this order; the first
stage that fails decides the answer, and then the server is exactly what it was. An item that is
taken adds itself and changes nothing else.

## One shape for three inboxes

Events, jobs and samples are decoded, checked and taken by parts of their own. `Item` is any of
them, and `State.send_eq` says that all three inboxes go through the same stages. What a stage
brings about is then said once for every item: `respond_of_unreadable`, `respond_of_incomplete` and
`respond_of_complete`. The last one leaves it to `State.admission`, the answer of the part, whether
the item is added (`State.withItem`) or turned away.
-/

namespace Conveyor

namespace Http

/-- The code for programs in a response that tells of a failure. -/
def Response.code? (r : Response) : Option String :=
  match r.body with
  | .json (.object members) =>
    match members.lookup "code" with
    | some (.text code) => some code
    | _ => none
  | _ => none

namespace Failure

/-- The status of the response to a failure. -/
@[simp]
theorem response_status (f : Failure) : f.response.status = f.answer.1 := rfl

/-- The code in the response to a failure. -/
@[simp]
theorem response_code? (f : Failure) : f.response.code? = some f.answer.2.1 := rfl

end Failure

/-- The path of an inbox. -/
def Inbox.path : Inbox → String
  | logs => "/logs"
  | jobs => "/jobs"
  | samples => "/metrics/ingest"

/-- Posting to the path of an inbox sends something there. -/
theorem Request.route_of_post {r : Request} {inbox : Inbox} (hpost : r.method = .post)
    (hpath : r.path = inbox.path) : r.route = .send inbox := by
  cases inbox <;> simp [route, hpost, hpath, Inbox.path, Endpoint.ofPath?]

end Http

namespace Server

open Http Json Metrics Moderation Time

/-! ### Items -/

/-- Something that a client sends. -/
inductive Item where
  /-- An event. -/
  | event (e : Event)
  /-- A job. -/
  | job (j : Job)
  /-- A sample of a metric. -/
  | sample (x : Sample)

namespace Item

/-- The item in the body of a request to an inbox. An event without a time happens now. -/
def ofRequest (now : Timestamp) (r : Http.Request) : Inbox → Except BodyFault Item
  | .logs => (readBody Event.Submission.decoder r).map fun x ↦ .event (x.event now)
  | .jobs => (readBody Job.Submission.decoder r).map fun x ↦ .job x.job
  | .samples => (readBody Sample.decoder r).map .sample

/-- What is posted to the inbox of samples is a sample. -/
theorem eq_sample_of_ofRequest {now : Timestamp} {r : Http.Request} {item : Item}
    (hread : ofRequest now r .samples = .ok item) : ∃ x, item = .sample x := by
  simp only [ofRequest] at hread
  rcases hbody : readBody Sample.decoder r with fault | x
  · simp [hbody, Except.map] at hread
  · exact ⟨x, by simpa [hbody, Except.map] using hread.symm⟩

/-- A text that the item needs is missing: nothing is left of it when it is trimmed, or in a job,
where blanks count, it is empty. -/
def IsIncomplete : Item → Prop
  | event e => Text.trim e.source = "" ∨ Text.trim e.message = ""
  | job j => j.contentId = "" ∨ j.authorId = "" ∨ j.body = ""
  | sample x => Text.trim x.namespaceName = "" ∨ Text.trim x.name = ""

/-- What the check of an item says. -/
def check : Item → Except ItemFault Unit
  | event e => e.check
  | job j => j.check
  | sample x => x.check

/-- The check finds fault with the incomplete items, and all its faults are of one kind. -/
theorem check_eq (item : Item) :
    item.IsIncomplete ∧ (∃ text, item.check = .error (.invalid text)) ∨
      ¬item.IsIncomplete ∧ item.check = .ok () := by
  cases item with
  | event e =>
    simp only [IsIncomplete, check, Event.check, Text.trim_eq_empty_iff, Bool.or_eq_true]
    split <;> simp_all
  | job j =>
    simp only [IsIncomplete, check, Job.check, String.isEmpty_iff, Bool.or_eq_true, or_assoc]
    split <;> simp_all
  | sample x =>
    simp only [IsIncomplete, check, Sample.check, Text.trim_eq_empty_iff, Bool.or_eq_true]
    split <;> simp_all

end Item

/-- Reading is decoding and then checking. -/
theorem readItem_eq {α β : Type} (d : Decoder α) (item : α → β) (check : β → Except ItemFault Unit)
    (r : Http.Request) :
    readItem d item check r =
      match readBody d r with
      | .error fault => .error (.badRequest fault.message)
      | .ok a =>
        match check (item a) with
        | .error fault => .error (.item fault)
        | .ok () => .ok (item a) := by
  unfold readItem
  rcases readBody d r with fault | a
  · rfl
  · dsimp only [Except.mapError, bind, Except.bind]
    rcases check (item a) with fault | ⟨⟩ <;> rfl

/-! ### What becomes of an item -/

namespace State

/-- What the part that an item is meant for says to it. -/
def admission (s : State) : Item → Admission
  | .event e => (s.pipeline.enqueue e).1
  | .job j => (s.moderation.submit j).1
  | .sample _ => .ok ()

/-- The server with one item more: an event behind the others in the queue of the pipeline, unless
its level is too low, a job behind the others in the queue of the pool, or a sample in the summary
of its metric. -/
def withItem (s : State) (now : Timestamp) : Item → State
  | .event e =>
    if e.level < s.pipeline.minLevel then s
    else { s with pipeline := { s.pipeline with queue := s.pipeline.queue ++ [e] } }
  | .job j =>
    { s with
      moderation := { s.moderation with
        pool := { s.moderation.pool with queue := s.moderation.pool.queue ++ [j] } } }
  | .sample x => { s with metrics := (s.metrics.ingest x now).2 }

/-- What the client is told about an item that is taken: that it was, or the summary it is in. -/
def reply (s : State) (now : Timestamp) : Item → Response
  | .sample x => .ofData 202 (s.metrics.ingest x now).1.json
  | _ => accepted

/-- What happens when an item is taken. -/
def taking (s : State) : Item → List Note
  | .event e => [.pipeline (if e.level < s.pipeline.minLevel then .passedOver e else .admitted e)]
  | .job j => [.moderation (.pool (.admitted j))]
  | .sample _ => []

/-- What becomes of an item that has passed its check. -/
def offer (s : State) (now : Timestamp) (item : Item) :
    Except Failure (Response × State × List Note) :=
  match s.admission item with
  | .ok () => .ok (s.reply now item, s.withItem now item, s.taking item)
  | .error why => .error (.queue why)

/-- An event that is enqueued is left out or stands behind the others. -/
theorem offer_event (s : State) (now : Timestamp) (e : Event) :
    (match s.pipeline.enqueue e with
      | (.ok (), pipeline, notes) =>
        .ok (accepted, s.withPipeline pipeline notes, notes.map .pipeline)
      | (.error why, _, _) => .error (.queue why)) = s.offer now (.event e) := by
  by_cases hlow : e.level < s.pipeline.minLevel
  · simp [offer, admission, Pipeline.State.enqueue, withPipeline, keepRecent, reply, withItem,
      taking, hlow]
  · rcases htaken : s.pipeline.admission with why | ⟨⟩ <;>
      simp [offer, admission, Pipeline.State.enqueue, withPipeline, keepRecent, reply, withItem,
        taking, hlow, htaken]

/-- A job that is submitted stands behind the others. -/
theorem offer_job (s : State) (now : Timestamp) (j : Job) :
    (match s.moderation.submit j with
      | (.ok (), moderation, notes) =>
        .ok (accepted, { s with moderation }, notes.map .moderation)
      | (.error why, _, _) => .error (.queue why)) = s.offer now (.job j) := by
  rcases htaken : s.moderation.pool.admission with why | ⟨⟩ <;>
    simp [offer, admission, Service.State.submit, Pool.State.enqueue, reply, withItem, taking,
      htaken]

/-- The stages of a request that sends something, whichever inbox it goes to. -/
theorem send_eq (s : State) (now : Timestamp) (r : Http.Request) (inbox : Inbox) :
    s.send now r inbox =
      match Item.ofRequest now r inbox with
      | .error fault => .error (.badRequest fault.message)
      | .ok item =>
        match item.check with
        | .error fault => .error (.item fault)
        | .ok () => s.offer now item := by
  cases inbox with
  | logs =>
    simp only [send, sendEvent, readItem_eq, Item.ofRequest]
    rcases readBody Event.Submission.decoder r with fault | x
    · rfl
    · dsimp only [Except.map, bind, Except.bind, Item.check]
      rcases (x.event now).check with fault | ⟨⟩
      · rfl
      · exact offer_event s now (x.event now)
  | jobs =>
    simp only [send, sendJob, readItem_eq, Item.ofRequest]
    rcases readBody Job.Submission.decoder r with fault | x
    · rfl
    · dsimp only [Except.map, bind, Except.bind, Item.check]
      rcases x.job.check with fault | ⟨⟩
      · rfl
      · exact offer_job s now x.job
  | samples =>
    simp only [send, sendSample, readItem_eq, Item.ofRequest, id_eq]
    rcases readBody Sample.decoder r with fault | x
    · rfl
    · dsimp only [Except.map, bind, Except.bind, Item.check]
      rcases x.check with fault | ⟨⟩
      · rfl
      · rfl

/-- The pipeline looks at the level first. -/
theorem admission_event (s : State) (e : Event) :
    s.admission (.event e) =
      if e.level < s.pipeline.minLevel then .ok () else s.pipeline.admission := by
  by_cases hlow : e.level < s.pipeline.minLevel
  · simp [admission, Pipeline.State.enqueue, hlow]
  · rcases htaken : s.pipeline.admission with why | ⟨⟩ <;>
      simp [admission, Pipeline.State.enqueue, hlow, htaken]

/-- The pool says what its queue says. -/
theorem admission_job (s : State) (j : Job) :
    s.admission (.job j) = s.moderation.pool.admission := by
  rcases htaken : s.moderation.pool.admission with why | ⟨⟩ <;>
    simp [admission, Service.State.submit, Pool.State.enqueue, htaken]

/-- A part that turns an item away is full or closed: it never says that it has already started. -/
theorem admission_ne_alreadyStarted (s : State) (item : Item) (queue : String) :
    s.admission item ≠ .error (.alreadyStarted queue) := by
  cases item with
  | event e =>
    rw [admission_event]
    split
    · simp
    · unfold Pipeline.State.admission Pipeline.State.admissionAt
      split
      · simp
      · split <;> simp
  | job j =>
    rw [admission_job]
    unfold Pool.State.admission
    split
    · simp
    · split <;> simp
  | sample x => simp [admission]

/-- Whatever is taken is answered with the same status. -/
@[simp]
theorem reply_status (s : State) (now : Timestamp) (item : Item) :
    (s.reply now item).status = 202 := by
  cases item <;> rfl

/-! ### The answer -/

/-- The answer to a request that sends something, and the server after it, by the first stage that
fails. -/
structure Staged (s : State) (now : Timestamp) (r : Http.Request) (inbox : Inbox)
    (answer : Response) (t : State) : Prop where
  /-- A body that cannot be read is a bad request. -/
  unreadable : ∀ fault, Item.ofRequest now r inbox = .error fault →
    answer.status = 400 ∧ answer.code? = some "BAD_REQUEST"
  /-- An incomplete item is invalid, whatever the part that it is meant for would say. -/
  incomplete : ∀ item, Item.ofRequest now r inbox = .ok item → item.IsIncomplete →
    answer.status = 400 ∧ answer.code? = some "VALIDATION_ERROR"
  /-- A complete item is taken if the part takes it, and then it is all that changes. -/
  taken : ∀ item, Item.ofRequest now r inbox = .ok item → ¬item.IsIncomplete →
    s.admission item = .ok () → answer.status = 202 ∧ t = s.withItem now item
  /-- A full queue is busy. -/
  busy : ∀ item queue capacity, Item.ofRequest now r inbox = .ok item → ¬item.IsIncomplete →
    s.admission item = .error (.full queue capacity) →
      answer.status = 503 ∧ answer.code? = some "SERVICE_BUSY"
  /-- A closed queue is unavailable. -/
  unavailable : ∀ item queue, Item.ofRequest now r inbox = .ok item → ¬item.IsIncomplete →
    s.admission item = .error (.closed queue) →
      answer.status = 503 ∧ answer.code? = some "SERVICE_UNAVAILABLE"
  /-- A complete sample is always taken. -/
  sampled : ∀ item, Item.ofRequest now r inbox = .ok item → ¬item.IsIncomplete →
    inbox = .samples → answer.status = 202
  /-- A complete event whose level is too low is taken and changes nothing, even if the pipeline is
  full or closed. -/
  passedOver : ∀ e, Item.ofRequest now r inbox = .ok (.event e) → ¬(Item.event e).IsIncomplete →
    e.level < s.pipeline.minLevel → answer.status = 202 ∧ t = s
  /-- Whatever else is answered changes nothing. -/
  unchanged : answer.status ≠ 202 → t = s
  /-- What is taken is the item in the body. -/
  added : answer.status = 202 →
    ∃ item, Item.ofRequest now r inbox = .ok item ∧ ¬item.IsIncomplete ∧
      s.admission item = .ok () ∧ t = s.withItem now item

section Route

variable {s : State} {now : Timestamp} {r : Http.Request} {inbox : Inbox}

variable (s) in
/-- What a request that sends something brings about, stage by stage. -/
theorem respond_of_route (hroute : r.route = .send inbox) :
    s.respond now r =
      match s.send now r inbox with
      | .ok result => result
      | .error failure => (failure.response, s, [.failed failure]) := by
  cases hsend : s.send now r inbox with
  | ok result => simp only [respond, hroute, hsend]
  | error failure => simp only [respond, hroute, hsend]

variable (s) in
/-- A body that cannot be read is a bad request. -/
theorem respond_of_unreadable {fault : BodyFault} (hroute : r.route = .send inbox)
    (hread : Item.ofRequest now r inbox = .error fault) :
    s.respond now r =
      ((Failure.badRequest fault.message).response, s, [.failed (.badRequest fault.message)]) := by
  rw [respond_of_route s hroute, send_eq, hread]

variable (s) in
/-- An incomplete item is invalid. -/
theorem respond_of_incomplete {item : Item} (hroute : r.route = .send inbox)
    (hread : Item.ofRequest now r inbox = .ok item) (hincomplete : item.IsIncomplete) :
    ∃ text, s.respond now r =
      ((Failure.item (.invalid text)).response, s, [.failed (.item (.invalid text))]) := by
  obtain ⟨-, text, hcheck⟩ | ⟨hcomplete, -⟩ := item.check_eq
  · exact ⟨text, by rw [respond_of_route s hroute, send_eq, hread]; simp only [hcheck]⟩
  · exact absurd hincomplete hcomplete

variable (s) in
/-- A complete item is offered. -/
theorem respond_of_complete {item : Item} (hroute : r.route = .send inbox)
    (hread : Item.ofRequest now r inbox = .ok item) (hcomplete : ¬item.IsIncomplete) :
    s.respond now r =
      match s.admission item with
      | .ok () => (s.reply now item, s.withItem now item, s.taking item)
      | .error why => ((Failure.queue why).response, s, [.failed (.queue why)]) := by
  obtain ⟨hincomplete, -⟩ | ⟨-, hcheck⟩ := item.check_eq
  · exact absurd hincomplete hcomplete
  · rw [respond_of_route s hroute, send_eq, hread]
    simp only [hcheck, offer]
    rcases s.admission item with why | ⟨⟩ <;> rfl

variable (s now) in
/-- Either a request fails for a reason that the client can be told, and then nothing changes, or
the item in its body is taken. -/
theorem respond_cases (hroute : r.route = .send inbox) :
    (∃ failure, (failure.answer.1 = 400 ∨ failure.answer.1 = 503) ∧
      s.respond now r = (failure.response, s, [.failed failure])) ∨
    ∃ item, Item.ofRequest now r inbox = .ok item ∧ ¬item.IsIncomplete ∧
      s.admission item = .ok () ∧
      s.respond now r = (s.reply now item, s.withItem now item, s.taking item) := by
  rcases hread : Item.ofRequest now r inbox with fault | item
  · exact .inl ⟨_, .inl rfl, respond_of_unreadable s hroute hread⟩
  by_cases hincomplete : item.IsIncomplete
  · obtain ⟨text, hrespond⟩ := respond_of_incomplete s hroute hread hincomplete
    exact .inl ⟨_, .inl rfl, hrespond⟩
  have hrespond := respond_of_complete s hroute hread hincomplete
  rcases htaken : s.admission item with (_ | _ | queue) | ⟨⟩
  · exact .inl ⟨_, .inr rfl, by simpa only [htaken] using hrespond⟩
  · exact .inl ⟨_, .inr rfl, by simpa only [htaken] using hrespond⟩
  · exact absurd htaken (admission_ne_alreadyStarted s item queue)
  · exact .inr ⟨item, rfl, hincomplete, htaken, by simpa only [htaken] using hrespond⟩

/-- Every request that sends something goes through the stages. -/
theorem staged_of_route (hroute : r.route = .send inbox) :
    s.Staged now r inbox (s.respond now r).1 (s.respond now r).2.1 where
  unreadable fault hread := by
    simp [respond_of_unreadable s hroute hread, Failure.answer]
  incomplete item hread hincomplete := by
    obtain ⟨text, hrespond⟩ := respond_of_incomplete s hroute hread hincomplete
    simp [hrespond, Failure.answer]
  taken item hread hcomplete htaken := by
    simp [respond_of_complete s hroute hread hcomplete, htaken]
  busy item queue capacity hread hcomplete hfull := by
    simp [respond_of_complete s hroute hread hcomplete, hfull, Failure.answer]
  unavailable item queue hread hcomplete hclosed := by
    simp [respond_of_complete s hroute hread hcomplete, hclosed, Failure.answer]
  sampled item hread hcomplete hinbox := by
    obtain ⟨x, rfl⟩ := Item.eq_sample_of_ofRequest (hinbox ▸ hread)
    simp [respond_of_complete s hroute hread hcomplete, admission]
  passedOver e hread hcomplete hlow := by
    simp [respond_of_complete s hroute hread hcomplete, admission_event, hlow, withItem]
  unchanged := by
    obtain ⟨failure, -, hrespond⟩ | ⟨item, -, -, -, hrespond⟩ := respond_cases s now hroute
    · simp [hrespond]
    · simp [hrespond]
  added := by
    obtain ⟨failure, hstatus, hrespond⟩ | ⟨item, hread, hcomplete, htaken, hrespond⟩ :=
      respond_cases s now hroute
    · rw [hrespond, Failure.response_status]
      omega
    · exact fun _ ↦ ⟨item, hread, hcomplete, htaken, by rw [hrespond]⟩

/-- A request that sends something never ends with a fault inside. -/
theorem respond_status_ne_of_route (hroute : r.route = .send inbox) :
    (s.respond now r).1.status ≠ 500 := by
  obtain ⟨failure, hstatus, hrespond⟩ | ⟨item, -, -, -, hrespond⟩ := respond_cases s now hroute
  · rw [hrespond, Failure.response_status]
    omega
  · simp [hrespond]

end Route

/-- A request that reads never ends with a fault inside. -/
theorem read_status_ne (s : State) (resource : Resource) : (s.read resource).1.status ≠ 500 := by
  cases resource with
  | health => simp [read, Response.ofJson]
  | recentLogs => simp [read, Response.ofData, Response.ofJson]
  | nextVerdict =>
    unfold read
    rcases s.moderation.pop with ⟨_ | v, moderation, notes⟩ <;>
      simp [Response.ofData, Response.ofJson]
  | summaries => simp [read, Response.ofData, Response.ofJson]

/-- No request ever ends with a fault inside. -/
theorem respond_status_ne (s : State) (now : Timestamp) (r : Http.Request) :
    (s.respond now r).1.status ≠ 500 := by
  rcases hroute : r.route with ⟨resource, withBody⟩ | inbox | allow | _
  · have hread := s.read_status_ne resource
    simp only [respond, hroute]
    split <;> simpa [Response.withoutBody] using hread
  · exact respond_status_ne_of_route hroute
  · simp [respond, hroute]
  · simp [respond, hroute]

/-- Admission goes by stages and is atomic. Whatever the server and the request: no request ends
with a fault inside, and one that posts to an inbox is read, checked and offered to the part it is
meant for; the first stage that fails decides the answer and changes nothing, and an item that
passes all of them is the one that is added. -/
theorem admission_of_post (s : State) (now : Timestamp) (r : Http.Request) :
    (s.respond now r).1.status ≠ 500 ∧
      ∀ inbox : Inbox, r.method = .post → r.path = inbox.path →
        s.Staged now r inbox (s.respond now r).1 (s.respond now r).2.1 :=
  ⟨s.respond_status_ne now r, fun _ hpost hpath ↦
    staged_of_route (Request.route_of_post hpost hpath)⟩

end State

/-! ### An example -/

/-- The settings of a small server: its queues have room for one item. -/
def smallSettings : Settings.Server where
  host := "0.0.0.0"
  port := 3000
  requestTimeout := 30
  shutdownTimeout := 5
  pipeline := { queueSize := 1, minLevel := .info, recentCapacity := 1, forwardUrl := none }
  moderation := { queueSize := 1, workers := 1, bannedTerms := ["spam"] }

/-- A request that posts an event with the given source and level. -/
def postOfEvent (source level : String) : Http.Request where
  method := .post
  target := "/logs?from=agent"
  contentType := some "application/json"
  body := ("\x7b\"source\":\"" ++ source ++ "\",\"level\":\"" ++ level ++
    "\",\"message\":\"up\"\x7d").toUTF8

/-- A small server whose pipeline is full. -/
def fullServer : State :=
  ((State.new smallSettings).1.respond .epoch (postOfEvent "db" "info")).2.1

/-- A full pipeline turns an event away, but finds fault with an event without a source and takes
one whose level is too low. -/
theorem admission_of_post_full :
    (postOfEvent "db" "info").path = Inbox.logs.path ∧
      (fullServer.respond .epoch (postOfEvent "db" "info")).1.code? = some "SERVICE_BUSY" ∧
      (fullServer.respond .epoch (postOfEvent " " "info")).1.code? = some "VALIDATION_ERROR" ∧
      (fullServer.respond .epoch (postOfEvent "db" "debug")).1.status = 202 ∧
      (fullServer.respond .epoch (postOfEvent "db" "info")).1.status ≠ 500 ∧
      fullServer.Staged .epoch (postOfEvent "db" "info") .logs
        (fullServer.respond .epoch (postOfEvent "db" "info")).1
        (fullServer.respond .epoch (postOfEvent "db" "info")).2.1 := by
  have hpath : (postOfEvent "db" "info").path = Inbox.logs.path := by decide
  obtain ⟨hstatus, hstaged⟩ := State.admission_of_post fullServer .epoch (postOfEvent "db" "info")
  exact ⟨hpath, by decide +kernel, by decide +kernel, by decide +kernel, hstatus,
    hstaged .logs rfl hpath⟩

end Server

end Conveyor
