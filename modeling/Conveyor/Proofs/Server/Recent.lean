import Conveyor.Proofs.Pipeline.Occupancy
import Conveyor.Proofs.Pipeline.Sinks
import Conveyor.Proofs.Server.Draining
import Conveyor.Proofs.Sink.Ring
import Mathlib.Data.List.DropRight
import Mathlib.Data.List.Forall2

/-!
# The recent events

What a client reads when it asks for the recent events. The main statement is `recent_of_run`: at
any moment of any run it is a window of the events that were posted and taken so far, with nothing
left out, repeated or out of order. The window ends where the pipeline has got to, it never moves
back, and once a call that stops the pipeline of a started server has returned, it ends with the last
event that was taken.

An event comes there in three steps. It is taken and admitted to the queue of the pipeline
(`posted_eq`); the pipeline gives it to its sinks, of which the ring is one (`givenToRing_isPrefix`);
and the ring keeps the latest of what it is given (`State.recent_eq`).

Which events were taken is read off the answers (`posted`). How far the pipeline has got is counted
in the history (`dispatched`), for no answer tells it.
-/

namespace Conveyor.Server

open Http Json Time

variable {settings : Settings.Server} {s t : State} {a : Action} {as bs : List Action} {id : Nat}
  {order : Order} {past new : List Entry}

/-! ### What is posted and taken -/

/-- An event that was taken, as the client submitted it, with the time at which it was taken. -/
structure Posting where
  /-- What the client submitted. -/
  submission : Event.Submission
  /-- When it was taken. -/
  now : Timestamp

/-- The event that was taken. -/
def Posting.event (p : Posting) : Event := p.submission.event p.now

/-- The event has what the client submitted, with the time that it gave, if it gave one. -/
structure Keeps (x : Event.Submission) (e : Event) : Prop where
  /-- The source is the one that was submitted. -/
  source : e.source = x.source
  /-- The level is the one that was submitted. -/
  level : e.level = x.level
  /-- The message is the one that was submitted. -/
  message : e.message = x.message
  /-- The fields are those that were submitted. -/
  fields : e.fields = x.fields
  /-- The time is the one that was submitted, if one was. -/
  timestamp : ∀ time, x.timestamp = some time → e.timestamp = time

theorem Posting.keeps (p : Posting) : Keeps p.submission p.event where
  source := rfl
  level := rfl
  message := rfl
  fields := rfl
  timestamp time htime := by
    show p.submission.timestamp.getD p.now = time
    rw [htime, Option.getD_some]

namespace State

/-- The event of at least the given level that is posted and taken in an action. -/
def postedBy (minLevel : Level) (s : State) : Action → List Posting
  | .request r now =>
    if r.method = .post ∧ r.path = Inbox.logs.path ∧ (s.respond now r).1.status = 202 then
      match readBody Event.Submission.decoder r with
      | .ok x => if x.level < minLevel then [] else [⟨x, now⟩]
      | .error _ => []
    else []
  | _ => []

/-- The events of at least the given level that were posted and taken in a run, in order. -/
def posted (minLevel : Level) (s : State) (as : List Action) : List Posting :=
  collect act (postedBy minLevel) s as

end State

section Posted

variable {now : Timestamp} {r : Http.Request} {response : Response} {news : List Note}

/-- Nothing is posted where something else is asked for, or where it is not taken. -/
theorem State.postedBy_eq_nil (hrespond : s.respond now r = (response, t, news))
    (h : r.route ≠ .send .logs ∨ response.status ≠ 202) (minLevel : Level) :
    s.postedBy minLevel (.request r now) = [] := by
  rw [postedBy, hrespond]
  refine if_neg fun ⟨hpost, hpath, hstatus⟩ ↦ ?_
  exact h.elim (· (Request.route_eq_send_iff.2 ⟨hpost, hpath⟩)) (· hstatus)

/-- The item in what is sent to the inbox of events is an event. -/
theorem Item.exists_of_logs {item : Item} (hread : ofRequest now r .logs = .ok item) :
    ∃ x, readBody Event.Submission.decoder r = .ok x ∧ item = .event (x.event now) := by
  rcases hbody : readBody Event.Submission.decoder r with fault | x
  · simp [ofRequest, hbody, Except.map] at hread
  · exact ⟨x, rfl, by simpa [ofRequest, hbody, Except.map] using hread.symm⟩

/-- Events come to their own inbox only. -/
theorem Item.eq_logs_of_event {inbox : Inbox} {e : Event}
    (hread : ofRequest now r inbox = .ok (.event e)) : inbox = .logs := by
  cases inbox with
  | logs => rfl
  | jobs =>
    rcases hbody : readBody Moderation.Job.Submission.decoder r with fault | x <;>
      simp [ofRequest, hbody, Except.map] at hread
  | samples =>
    rcases hbody : readBody Metrics.Sample.decoder r with fault | x <;>
      simp [ofRequest, hbody, Except.map] at hread

/-- What is posted in a request is what the pipeline admits. -/
theorem State.postedBy_eq (hrespond : s.respond now r = (response, t, news)) :
    (s.postedBy s.pipeline.minLevel (.request r now)).map Posting.event =
      Pipeline.admitted (inPipeline news) := by
  cases answers hrespond with
  | rejects status =>
    rw [postedBy_eq_nil hrespond (.inr (by omega))]
    rfl
  | reads route | fetches route | discards route | lacks route =>
    rw [postedBy_eq_nil hrespond (.inl (by simp [route]))]
    rfl
  | refuses route status =>
    rw [postedBy_eq_nil hrespond (.inr ?_)]
    · rfl
    · rw [Failure.response_status]
      omega
  | @takes inbox item route read taken =>
    by_cases hinbox : inbox = .logs
    · subst hinbox
      obtain ⟨hpost, hpath⟩ := Request.route_eq_send_iff.1 route
      obtain ⟨x, hbody, rfl⟩ := Item.exists_of_logs read
      have hlevel : (x.event now).level = x.level := rfl
      rw [postedBy, hrespond, if_pos ⟨hpost, hpath, reply_status s now _⟩, hbody]
      simp only [taking, hlevel]
      split <;> rfl
    · rw [postedBy_eq_nil hrespond (.inl (by simp [route, hinbox]))]
      cases item with
      | event e => exact absurd (Item.eq_logs_of_event read) hinbox
      | _ => rfl

/-- Who does not ask posts nothing, and the pipeline admits nothing. -/
theorem Reached.admitted_eq_nil (hs : Reached s) (hact : s.act a = some (t, new))
    (ha : ∀ r now, a ≠ .request r now) : Pipeline.admitted (inPipeline (happened new)) = [] := by
  obtain ⟨actions, hruns, hquiet⟩ := (Follows.of_background hact ha).pipeline
  rw [← Pipeline.accepted_eq hs.coupled hruns]
  refine collect_eq_nil (fun p x hx ↦ ?_) _
  cases x with
  | enqueue e => exact absurd trivial (hquiet _ hx).2
  | _ => rfl

/-- The minimum level is settled from the start. -/
theorem State.minLevel_eq (hruns : Runs State.act (State.new settings).1 as s past) :
    s.pipeline.minLevel = settings.pipeline.minLevel := by
  obtain ⟨actions, hpipeline, -⟩ := (Follows.of_new hruns).pipeline
  rw [(Pipeline.bounds_of_runs (Reached.of_new settings).coupled hpipeline).2, new_pipeline]
  rfl

/-- What was posted and taken in a run is what the pipeline admitted. -/
theorem posted_eq (hruns : Runs State.act (State.new settings).1 as s past) :
    ((State.new settings).1.posted settings.pipeline.minLevel as).map Posting.event =
      Pipeline.admitted (inPipeline (happened past)) := by
  refine hruns.map_collect_eq (f := fun past ↦ Pipeline.admitted (inPipeline (happened past))) rfl
    (fun past new ↦ ?_) fun {as t past a u new} hruns hact ↦ ?_
  · simp only [extract_append]
  · have ht := (Reached.of_new settings).of_runs hruns
    rw [← State.minLevel_eq hruns]
    cases a with
    | request r now =>
      obtain ⟨response, hrespond⟩ := State.respond_of_act hact
      exact State.postedBy_eq hrespond
    | _ => exact (ht.admitted_eq_nil hact fun _ _ ↦ Action.noConfusion).symm

end Posted

/-! ### What the ring keeps -/

/-- The events that the ring was given in a run, in order. -/
abbrev givenToRing (past : List Entry) : List Event :=
  Pipeline.given .recent (inPipeline (happened past))

/-- How many events the pipeline has given to the ring. -/
def dispatched (past : List Entry) : Nat := (givenToRing past).length

theorem givenToRing_append (past later : List Entry) :
    givenToRing (past ++ later) = givenToRing past ++ givenToRing later := by
  simp only [givenToRing, extract_append, Pipeline.given_append]

/-- The ring is given events one after the other. -/
theorem State.keepRecent_eq (ring : Sink.Ring) (notes : List (Pipeline.Note Outlet)) :
    keepRecent ring notes = (Pipeline.given .recent notes).foldl .push ring := by
  induction notes generalizing ring with
  | nil => rfl
  | cons n notes ih =>
    have hcons : keepRecent ring (n :: notes) = keepRecent (keepRecent ring [n]) notes := rfl
    have hgiven : Pipeline.given .recent (n :: notes) =
        Pipeline.given .recent [n] ++ Pipeline.given .recent notes :=
      Pipeline.given_append _ [n] notes
    rw [hcons, ih, hgiven, List.foldl_append]
    cases n with
    | called sink e => cases sink <;> rfl
    | _ => rfl

/-- How many events the ring of a server keeps at most. -/
def ringCapacity (settings : Settings.Server) : Nat :=
  (Sink.Ring.ofCapacity settings.pipeline.recentCapacity).capacity

/-- The ring holds the latest of the events that it was given. -/
theorem State.recent_eq (hruns : Runs State.act (State.new settings).1 as s past) :
    s.recent.recent = (givenToRing past).rtake (ringCapacity settings) := by
  have hnew : (State.new settings).1.recent = .ofCapacity settings.pipeline.recentCapacity := rfl
  rw [(Follows.of_new hruns).recent_eq, hnew, keepRecent_eq]
  exact Sink.Ring.recent_foldl_push settings.pipeline.recentCapacity _

/-- Nobody is asked to register a sink. -/
theorem Asked.ne_register {sink : Outlet} : ¬Asked as (.pipeline (.register sink)) := by
  intro h
  generalize hb : PartAction.pipeline (.register sink) = b at h
  cases h with
  | request _ isRequest | step isRequest =>
    subst hb
    exact isRequest
  | @stage id order stage => cases stage <;> simp [Stage.action] at hb

/-- The calls of the sinks of a server are in balance with what its pipeline admitted. -/
theorem State.ledger (hruns : Runs State.act (State.new settings).1 as s past) :
    Pipeline.Ledger s.pipeline
      ((outlets settings).map .registered ++ inPipeline (happened past)) := by
  obtain ⟨actions, hpipeline, -⟩ := (Follows.of_new hruns).pipeline
  have hnew : Pipeline.Ledger (State.new settings).1.pipeline
      ((outlets settings).map .registered) := by
    rw [new_pipeline]
    exact .of_registered _ _ _
  exact hnew.after_runs (Reached.of_new settings).coupled hpipeline

/-- The ring is there once among the sinks. -/
theorem State.count_recent (hruns : Runs State.act (State.new settings).1 as s past) :
    s.pipeline.sinks.count .recent = 1 := by
  obtain ⟨actions, hpipeline, hasked⟩ := (Follows.of_new hruns).pipeline
  have hnone : Pipeline.registered (inPipeline (happened past)) = [] := by
    rw [← Pipeline.enlisted_eq (Reached.of_new settings).coupled hpipeline]
    refine collect_eq_nil (fun p x hx ↦ ?_) _
    cases x with
    | register sink => exact absurd (hasked _ hx).2 Asked.ne_register
    | _ => rfl
  have hsinks := (State.ledger hruns).sinks
  simp only [extract_append, hnone, Pipeline.registered_map, List.append_nil] at hsinks
  rw [← hsinks, outlets]
  split <;> rfl

/-- The ring was given the first of the events that the pipeline admitted. -/
theorem givenToRing_isPrefix (hruns : Runs State.act (State.new settings).1 as s past) :
    givenToRing past <+: Pipeline.admitted (inPipeline (happened past)) := by
  simpa [Pipeline.given] using (State.ledger hruns).given_isPrefix (State.count_recent hruns)

/-- When the pipeline of a server that was started is drained, the ring was given all events that the
pipeline admitted. -/
theorem givenToRing_eq (hruns : Runs State.act (State.new settings).1 as s past)
    (hstarts : StartsFirst as) (hdrained : s.pipeline.IsDrained) :
    givenToRing past = Pipeline.admitted (inPipeline (happened past)) := by
  have hfailed := ((Reached.of_new settings).of_runs hruns).task_ne_failed
  have hborn := task_ne_unborn hruns hstarts
  simpa [Pipeline.given] using
    (State.ledger hruns).given_eq (State.count_recent hruns) hdrained hborn hfailed

/-! ### The statement -/

/-- The events that were posted and taken in a run of a new server, in order. -/
def postings (settings : Settings.Server) (as : List Action) : List Posting :=
  (State.new settings).1.posted settings.pipeline.minLevel as

/-- The latest of the events that were posted, taken and given to the ring, as many as it keeps. -/
def window (settings : Settings.Server) (as : List Action) (past : List Entry) : List Posting :=
  ((postings settings as).take (dispatched past)).rtake (ringCapacity settings)

/-- What the ring of a server holds after a run. -/
structure Recent (settings : Settings.Server) (as : List Action) (s : State)
    (past : List Entry) : Prop where
  /-- The ring was given no more events than were posted and taken. -/
  dispatched_le : dispatched past ≤ (postings settings as).length
  /-- The ring holds the latest of those that it was given, the oldest first. -/
  recent_eq : s.recent.recent = (window settings as past).map Posting.event
  /-- It holds as many of them as it keeps, or all of them. -/
  length_eq : s.recent.recent.length = min (ringCapacity settings) (dispatched past)
  /-- Each of them has what its client submitted. -/
  keeps : List.Forall₂ (fun p e ↦ Keeps p.submission e) (window settings as past) s.recent.recent
  /-- They are what a client reads, and reading changes nothing. -/
  read : ∀ r now, r.path = Resource.recentLogs.path → r.method = .get →
    s.respond now r = (.ofData 200 (.array (s.recent.recent.map Event.json)), s, [])
  /-- The window does not move back, and what was posted stays in its place. -/
  grows : ∀ bs t later, s.run bs = some (t, later) →
    dispatched past ≤ dispatched (past ++ later) ∧
      postings settings as <+: postings settings (as ++ bs)
  /-- Once a call that stops the pipeline has returned from a server that was started before, the
  ring was given all events that were posted and taken. -/
  complete : ∀ id order, StartsFirst as → (callIds as).Nodup → .issue id order ∈ as →
    .pipeline .stop ∈ order.stages → .note (.returned id) ∈ past →
      dispatched past = (postings settings as).length

/-- **Recent events.** After every run, whatever requests were answered, which calls were issued and
which steps have happened, the ring holds a window of the events that were posted and taken. -/
theorem recent_of_run (hrun : (State.new settings).1.run as = some (s, past)) :
    Recent settings as s past := by
  have hruns := State.run_iff.1 hrun
  have hposted : (postings settings as).map Posting.event =
      Pipeline.admitted (inPipeline (happened past)) := posted_eq hruns
  have hlength : (postings settings as).length =
      (Pipeline.admitted (inPipeline (happened past))).length := by
    rw [← hposted, List.length_map]
  have hprefix := givenToRing_isPrefix hruns
  have hwindow : s.recent.recent = (window settings as past).map Posting.event := by
    have hgiven : givenToRing past =
        ((postings settings as).take (dispatched past)).map Posting.event := by
      rw [List.map_take, hposted]
      exact List.prefix_iff_eq_take.1 hprefix
    rw [State.recent_eq hruns, hgiven, window, List.rtake, List.rtake, List.map_drop,
      List.length_map]
  have hle : dispatched past ≤ (postings settings as).length := hlength ▸ hprefix.length_le
  exact {
    dispatched_le := hle
    recent_eq := hwindow
    length_eq := by
      rw [hwindow, List.length_map, window, List.rtake, List.length_drop, List.length_take]
      omega
    keeps := by
      rw [hwindow, List.forall₂_map_right_iff, List.forall₂_same]
      exact fun p _ ↦ p.keeps
    read := fun r now hpath hget ↦ by
      have hroute : r.route = .read .recentLogs true :=
        Request.route_eq_read_iff.2 ⟨hpath, hget⟩
      simp only [State.respond, hroute, State.read, if_true]
    grows := fun bs t later _ ↦ by
      refine ⟨?_, collect_isPrefix _ _ _ as bs⟩
      rw [dispatched, dispatched, givenToRing_append, List.length_append]
      exact Nat.le_add_right _ _
    complete := fun id order hstarts hids hissued hstops hreturned ↦ by
      have hdrained := isDrained_of_returned hruns hids hissued hstops hreturned
      rw [hlength, ← givenToRing_eq hruns hstarts hdrained]
      rfl }

/-- The task takes an event and gives it to the ring and to the log. -/
def givenToAll : List Action :=
  [.step .pull .epoch, .step (.answer .unbuildable) .epoch, .step (.answer .unbuildable) .epoch]

/-- Two events are taken and a third one is left out, and then the server is shut down. -/
def sampleWindow : List Action :=
  [.issue 0 .start, .request (postOfEvent "db" "info") .epoch] ++ givenToAll ++
    [.request (postOfEvent "web" "debug") .epoch, .request (postOfEvent "web" "warn") .epoch,
      .issue 1 .shutdown] ++ givenToAll ++ [.step .finish .epoch, .step .resume .epoch] ++
    ([.pool (.arrive 0), .pool (.leave 0), .pool .resume, .pool .resume, .finish, .join 1] :
      List Moderation.Service.Step).map fun x ↦ .step (.moderation x) .epoch

theorem recent_of_run_sample : ∃ s past,
    (State.new smallSettings).1.run sampleWindow = some (s, past) ∧
      (postings smallSettings sampleWindow).map (·.submission.source) = ["db", "web"] ∧
      s.recent.recent.map Event.source = ["web"] ∧ .note (.returned 1) ∈ past ∧
      StartsFirst sampleWindow ∧ (callIds sampleWindow).Nodup ∧ dispatched past = 2 ∧
      Recent smallSettings sampleWindow s past := by
  have hpossible : ((State.new smallSettings).1.run sampleWindow).any (fun p ↦
      p.1.recent.recent.map Event.source = ["web"] ∧ .returned 1 ∈ happened p.2) = true := by
    decide +kernel
  have hposted : (postings smallSettings sampleWindow).map (·.submission.source) =
      ["db", "web"] := by
    decide +kernel
  have hlength := congrArg List.length hposted
  rw [List.length_map] at hlength
  have hstarts : StartsFirst sampleWindow := ⟨[], 0, _, rfl, fun _ _ h ↦ absurd h List.not_mem_nil⟩
  have hids : (callIds sampleWindow).Nodup := by decide
  obtain ⟨⟨s, past⟩, hrun, hends⟩ := (Option.any_eq_true _ _).1 hpossible
  obtain ⟨hrecent, hnoted⟩ := of_decide_eq_true hends
  have hreturned := mem_happened.1 hnoted
  have hwindow := recent_of_run hrun
  have hall := hwindow.complete 1 .shutdown hstarts hids (by simp [sampleWindow])
    (by simp [Order.stages]) hreturned
  exact ⟨s, past, hrun, hposted, hrecent, hreturned, hstarts, hids, hall.trans hlength, hwindow⟩

end Conveyor.Server
