import Conveyor.Proofs.Server.Admission

/-!
# What becomes of a request

`Answers s now r response t news` lists everything that can become of a request: the response to it,
the server after it and what happened. What is said about requests of every kind goes by cases on it,
so that answering is opened only here (`State.answers`).

Most requests leave the server as it was. Only three kinds do not: an item that is taken is added
(`Answers.takes`), and whoever asks for the next verdict takes it from the store, whether the verdict
is sent to the client (`Answers.fetches`) or was not wanted (`Answers.discards`).
-/

namespace Conveyor

namespace Http

/-- The path of something that is read. -/
def Resource.path : Resource → String
  | health => "/health"
  | recentLogs => "/logs/recent"
  | nextVerdict => "/jobs/next"
  | summaries => "/metrics/summary"

/-- Each resource stands behind its own path only. -/
theorem Endpoint.ofPath?_eq_resource_iff {path : String} {x : Resource} :
    ofPath? path = some (.resource x) ↔ path = x.path := by
  constructor
  · intro h
    unfold ofPath? at h
    grind [Resource.path]
  · rintro rfl
    cases x <;> rfl

/-- Each inbox stands behind its own path only. -/
theorem Endpoint.ofPath?_eq_inbox_iff {path : String} {inbox : Inbox} :
    ofPath? path = some (.inbox inbox) ↔ path = inbox.path := by
  constructor
  · intro h
    unfold ofPath? at h
    grind [Inbox.path]
  · rintro rfl
    cases inbox <;> rfl

/-- Resources are told apart by their paths. -/
theorem Resource.path_injective : Function.Injective path := by
  intro x y hpath
  have hx := (Endpoint.ofPath?_eq_resource_iff (x := x)).2 rfl
  rw [Endpoint.ofPath?_eq_resource_iff.2 hpath, Option.some.injEq, Endpoint.resource.injEq] at hx
  exact hx.symm

/-- What is read is asked for at its path, with or without a body. -/
theorem Request.route_eq_read_iff {r : Request} {x : Resource} {withBody : Bool} :
    r.route = .read x withBody ↔ r.path = x.path ∧ r.method = if withBody then .get else .head := by
  rw [← Endpoint.ofPath?_eq_resource_iff]
  constructor
  · intro h
    unfold route at h
    split at h
    · simp at h
    · split at h <;> simp_all
  · rintro ⟨hpath, hmethod⟩
    cases withBody <;> simp [route, hpath, hmethod]

/-- What is sent is posted to the path of its inbox. -/
theorem Request.route_eq_send_iff {r : Request} {inbox : Inbox} :
    r.route = .send inbox ↔ r.method = .post ∧ r.path = inbox.path := by
  constructor
  · intro h
    rw [← Endpoint.ofPath?_eq_inbox_iff]
    unfold route at h
    split at h
    · simp at h
    · split at h <;> simp_all
  · exact fun ⟨hpost, hpath⟩ ↦ route_of_post hpost hpath

end Http

namespace Server

open Http Json Metrics Moderation Time

/-- The service without the verdicts that were fetched, when these are left. -/
def State.withStore (s : State) (rest : List Verdict) : State :=
  { s with moderation := { s.moderation with store := ⟨rest⟩ } }

/-- Everything that can become of a request. -/
inductive Answers (s : State) (now : Timestamp) (r : Http.Request) :
    Response → State → List Note → Prop where
  /-- There is nothing at the path, or not for this method. -/
  | rejects {response : Response} (status : response.status = 404 ∨ response.status = 405) :
      Answers s now r response s []
  /-- Something is read that stays where it is. -/
  | reads {resource : Resource} {withBody : Bool} {response : Response}
      (route : r.route = .read resource withBody) (stays : resource ≠ .nextVerdict)
      (answer : response =
        if withBody then (s.read resource).1 else (s.read resource).1.withoutBody) :
      Answers s now r response s []
  /-- The oldest verdict leaves the store and is sent to the client. -/
  | fetches {v : Verdict} {rest : List Verdict} (route : r.route = .read .nextVerdict true)
      (next : s.moderation.store.waiting = v :: rest) :
      Answers s now r (.ofData 200 v.json) (s.withStore rest) [.moderation (.popped v)]
  /-- The oldest verdict leaves the store, and its body is left out of the answer. -/
  | discards {v : Verdict} {rest : List Verdict} (route : r.route = .read .nextVerdict false)
      (next : s.moderation.store.waiting = v :: rest) :
      Answers s now r (Response.ofData 200 v.json).withoutBody (s.withStore rest)
        [.moderation (.popped v)]
  /-- No verdict waits in the store. -/
  | lacks {withBody : Bool} (route : r.route = .read .nextVerdict withBody)
      (empty : s.moderation.store.waiting = []) : Answers s now r { status := 204 } s []
  /-- What is sent cannot be taken, and the client is told why. -/
  | refuses {inbox : Inbox} {failure : Failure} (route : r.route = .send inbox)
      (status : failure.answer.1 = 400 ∨ failure.answer.1 = 503) :
      Answers s now r failure.response s [.failed failure]
  /-- The item that is sent is taken. -/
  | takes {inbox : Inbox} {item : Item} (route : r.route = .send inbox)
      (read : Item.ofRequest now r inbox = .ok item) (taken : s.admission item = .ok ()) :
      Answers s now r (s.reply now item) (s.withItem now item) (s.taking item)

namespace State

/-- Who asks for the next verdict takes it from the store. -/
theorem respond_of_nextVerdict (s : State) (now : Timestamp) {r : Http.Request} {withBody : Bool}
    (hroute : r.route = .read .nextVerdict withBody) :
    s.respond now r =
      match s.moderation.store.waiting with
      | [] => ({ status := 204 }, s, [])
      | v :: rest =>
        (if withBody then .ofData 200 v.json else (Response.ofData 200 v.json).withoutBody,
          s.withStore rest, [.moderation (.popped v)]) := by
  rcases hwaiting : s.moderation.store.waiting with - | ⟨v, rest⟩
  · cases withBody <;>
      simp [respond, hroute, read, Service.State.pop, Store.pop, hwaiting, Response.withoutBody]
  · simp [respond, hroute, read, Service.State.pop, Store.pop, hwaiting, withStore]

/-- **Inversion.** Every request is answered in one of these ways. -/
theorem answers {s t : State} {now : Timestamp} {r : Http.Request} {response : Response}
    {news : List Note} (h : s.respond now r = (response, t, news)) :
    Answers s now r response t news := by
  rcases hroute : r.route with ⟨resource, withBody⟩ | inbox | allow | _
  · by_cases hnext : resource = .nextVerdict
    · subst hnext
      rw [respond_of_nextVerdict s now hroute] at h
      split at h
      case h_1 hempty =>
        obtain ⟨rfl, rfl, rfl⟩ := Prod.mk.inj h |>.imp_right Prod.mk.inj
        exact .lacks hroute hempty
      case h_2 hnext =>
        obtain ⟨rfl, rfl, rfl⟩ := Prod.mk.inj h |>.imp_right Prod.mk.inj
        cases withBody with
        | true => exact .fetches hroute hnext
        | false => exact .discards hroute hnext
    · have hkept : (s.read resource).2 = (s, []) := by
        cases resource with
        | nextVerdict => exact absurd rfl hnext
        | _ => rfl
      simp only [respond, hroute, hkept, Prod.mk.injEq] at h
      obtain ⟨hresponse, rfl, rfl⟩ := h
      exact .reads hroute hnext hresponse.symm
  · obtain ⟨failure, hstatus, hrespond⟩ | ⟨item, hread, -, htaken, hrespond⟩ :=
      respond_cases s now hroute
    · obtain ⟨rfl, rfl, rfl⟩ := Prod.mk.inj (h.symm.trans hrespond) |>.imp_right Prod.mk.inj
      exact .refuses hroute hstatus
    · obtain ⟨rfl, rfl, rfl⟩ := Prod.mk.inj (h.symm.trans hrespond) |>.imp_right Prod.mk.inj
      exact .takes hroute hread htaken
  · simp only [respond, hroute, Prod.mk.injEq] at h
    obtain ⟨rfl, rfl, rfl⟩ := h
    exact .rejects (.inr rfl)
  · simp only [respond, hroute, Prod.mk.injEq] at h
    obtain ⟨rfl, rfl, rfl⟩ := h
    exact .rejects (.inl rfl)

end State

end Server

end Conveyor
