import Conveyor.Proofs.Server.Histories

/-!
# Fetching verdicts

Where the verdicts of the store go. The main statement is `fetching_of_run`: every verdict that came
to the store was taken by exactly one request or still waits there, the oldest first; and a request
that takes a verdict gets it in the body of its own answer, unless its method says that it wants no
body.

That exception is real. Asking for the next verdict takes it away, and the question is also put by
those who want only the head of the answer. A verdict that is taken by them is in no answer at all
(`lost_to_head`). So what is delivered is exactly what was taken by the others, and nothing is lost
if and only if no verdict was taken by a request for the head (`Fetching.delivered_iff`).

Which verdicts were taken is read off the store before and after each request, and which were
delivered off the answers; the history of the service tells what came to the store.
-/

namespace Conveyor.Server

open Http Json Metrics Moderation Time

/-! ### What is taken and what is delivered -/

namespace State

/-- The verdicts that wait in the store. -/
abbrev verdicts (s : State) : List Verdict := s.moderation.store.waiting

/-- The verdicts that are gone from the front of the store when the server has become `t`. -/
def missing (s t : State) : List Verdict := s.verdicts.take (s.verdicts.length - t.verdicts.length)

/-- The verdicts that a request takes from the store. -/
def takenBy (s : State) : Action → List (Http.Request × Verdict)
  | .request r now => (s.missing (s.respond now r).2.1).map (r, ·)
  | _ => []

/-- The verdicts that requests took from the store in a run, each with its request, in order. -/
def taken (s : State) (as : List Action) : List (Http.Request × Verdict) := collect act takenBy s as

/-- What is in the body of the answer to a request for the next verdict. -/
def deliveredBy (s : State) : Action → List (Http.Request × Value)
  | .request r now =>
    if r.path = Resource.nextVerdict.path ∧ (s.respond now r).1.status = 200 then
      match (s.respond now r).1.body with
      | .json v => [(r, v)]
      | .none => []
    else []
  | _ => []

/-- What was in the bodies of the answers to requests for the next verdict in a run, each with its
request, in order. -/
def delivered (s : State) (as : List Action) : List (Http.Request × Value) :=
  collect act deliveredBy s as

end State

/-- What the body of an answer with a verdict is. -/
def delivery (p : Http.Request × Verdict) : Http.Request × Value :=
  (p.1, .object [("data", p.2.json)])

/-- The request wants the body of the answer. -/
def wantsBody (r : Http.Request) : Bool := r.method != .head

section Requests

variable {s t : State} {now : Timestamp} {r : Http.Request} {response : Response}
  {news : List Note} {a : Action} {new : List Entry}

/-! ### One request -/

namespace State

/-- Nothing is missing from a store that is as it was. -/
theorem missing_eq_nil (h : t.verdicts = s.verdicts) : s.missing t = [] := by
  rw [missing, h, Nat.sub_self, List.take_zero]

/-- The oldest verdict is missing when the others are left. -/
theorem missing_withStore {v : Verdict} {rest : List Verdict} (h : s.verdicts = v :: rest) :
    s.missing (s.withStore rest) = [v] := by
  have hrest : (s.withStore rest).verdicts = rest := rfl
  rw [missing, hrest, h, List.length_cons, Nat.add_sub_cancel_left, List.take_succ_cons,
    List.take_zero]

/-- An item that is added leaves the store as it was. -/
theorem verdicts_withItem (s : State) (now : Timestamp) (item : Item) :
    (s.withItem now item).verdicts = s.verdicts := by
  cases item with
  | event e =>
    rw [withItem]
    split <;> rfl
  | _ => rfl

/-- A request that leaves the store as it was takes nothing. -/
theorem takenBy_eq_nil (hrespond : s.respond now r = (response, t, news))
    (h : t.verdicts = s.verdicts) : s.takenBy (.request r now) = [] := by
  rw [takenBy, hrespond, missing_eq_nil h, List.map_nil]

/-- A request that leaves the others in the store takes the oldest verdict. -/
theorem takenBy_eq_singleton {v : Verdict} {rest : List Verdict}
    (hrespond : s.respond now r = (response, s.withStore rest, news))
    (h : s.verdicts = v :: rest) : s.takenBy (.request r now) = [(r, v)] := by
  rw [takenBy, hrespond, missing_withStore h]
  rfl

/-- Nothing is delivered where something else than the next verdict is asked for, or with another
status. -/
theorem deliveredBy_eq_nil (hrespond : s.respond now r = (response, t, news))
    (h : r.path ≠ Resource.nextVerdict.path ∨ response.status ≠ 200) :
    s.deliveredBy (.request r now) = [] := by
  rw [deliveredBy, hrespond]
  exact if_neg fun ⟨hpath, hstatus⟩ ↦ h.elim (· hpath) (· hstatus)

end State

/-- What a request does to the store and gets from it. -/
inductive Effect (s : State) (r : Http.Request) (t : State) :
    List (Http.Request × Verdict) → List (Http.Request × Value) → Prop where
  /-- The store is as it was, and nothing is delivered. -/
  | none (same : t.verdicts = s.verdicts) : Effect s r t [] []
  /-- The oldest verdict is taken and delivered. -/
  | delivers {v : Verdict} (next : s.verdicts = v :: t.verdicts) (wants : wantsBody r = true) :
      Effect s r t [(r, v)] [delivery (r, v)]
  /-- The oldest verdict is taken and not delivered. -/
  | loses {v : Verdict} (next : s.verdicts = v :: t.verdicts) (head : r.method = .head)
      (path : r.path = Resource.nextVerdict.path) : Effect s r t [(r, v)] []

/-- Every request has one of these effects. -/
theorem State.effect (hrespond : s.respond now r = (response, t, news)) :
    Effect s r t (s.takenBy (.request r now)) (s.deliveredBy (.request r now)) := by
  cases answers hrespond with
  | rejects status =>
    rw [takenBy_eq_nil hrespond rfl, deliveredBy_eq_nil hrespond (.inr (by omega))]
    exact .none rfl
  | reads route stays =>
    have hpath := (Request.route_eq_read_iff.1 route).1
    rw [takenBy_eq_nil hrespond rfl, deliveredBy_eq_nil hrespond (.inl ?_)]
    · exact .none rfl
    · rw [hpath]
      exact Resource.path_injective.ne stays
  | @fetches v rest route next =>
    obtain ⟨hpath, hmethod⟩ := Request.route_eq_read_iff.1 route
    have hdelivered : s.deliveredBy (.request r now) = [delivery (r, v)] := by
      rw [deliveredBy, hrespond]
      exact if_pos ⟨hpath, rfl⟩
    rw [takenBy_eq_singleton hrespond next, hdelivered]
    exact .delivers next (by simp [wantsBody, hmethod])
  | @discards v rest route next =>
    obtain ⟨hpath, hmethod⟩ := Request.route_eq_read_iff.1 route
    have hdelivered : s.deliveredBy (.request r now) = [] := by
      rw [deliveredBy, hrespond]
      exact ite_self _
    rw [takenBy_eq_singleton hrespond next, hdelivered]
    exact .loses next hmethod hpath
  | lacks =>
    rw [takenBy_eq_nil hrespond rfl, deliveredBy_eq_nil hrespond (.inr (by decide))]
    exact .none rfl
  | refuses route status =>
    rw [takenBy_eq_nil hrespond rfl, deliveredBy_eq_nil hrespond (.inr ?_)]
    · exact .none rfl
    · rw [Failure.response_status]
      omega
  | @takes inbox item =>
    have hsame := s.verdicts_withItem now item
    rw [takenBy_eq_nil hrespond hsame, deliveredBy_eq_nil hrespond (.inr ?_)]
    · exact .none hsame
    · rw [reply_status]
      decide

/-- What is delivered in an action is what was taken by a request that wants a body. -/
theorem State.deliveredBy_eq (s : State) (a : Action) :
    s.deliveredBy a = ((s.takenBy a).filter (wantsBody ·.1)).map delivery := by
  cases a with
  | request r now =>
    rcases hrespond : s.respond now r with ⟨response, t, news⟩
    generalize htaken : s.takenBy (.request r now) = taken
    generalize hdelivered : s.deliveredBy (.request r now) = delivered
    cases htaken ▸ hdelivered ▸ effect hrespond with
    | none => rfl
    | delivers next wants => simp [wants]
    | loses next head => simp [wantsBody, head]
  | _ => rfl

/-- What is missing from the store after a request is what the history says was fetched. -/
theorem State.missing_eq (hrespond : s.respond now r = (response, t, news)) :
    s.missing t = Service.popped (inModeration news) := by
  cases answers hrespond with
  | fetches route next | discards route next => exact missing_withStore next
  | @takes inbox item =>
    rw [missing_eq_nil (s.verdicts_withItem now item)]
    cases item <;> rfl
  | _ => exact missing_eq_nil rfl

/-- The verdicts that are taken in an action are those that the history says were fetched. -/
theorem Reached.takenBy_eq (hs : Reached s) (hact : s.act a = some (t, new)) :
    (s.takenBy a).map (·.2) = Service.popped (inModeration (happened new)) := by
  cases a with
  | request r now =>
    obtain ⟨response, hrespond⟩ := State.respond_of_act hact
    rw [← State.missing_eq hrespond, State.takenBy, hrespond, List.map_map]
    exact List.map_id _
  | _ =>
    obtain ⟨as, hruns, has⟩ := (Follows.of_background hact fun _ _ ↦ Action.noConfusion).moderation
    exact (Service.popped_eq_nil hs.sound.coupled hs.reader hruns fun hpop ↦ has _ hpop trivial).symm

/-- The verdicts that were taken in a run are those that its history says were fetched. -/
theorem Reached.taken_eq (hs : Reached s) {as : List Action} {past : List Entry}
    (hruns : Runs State.act s as t past) :
    (s.taken as).map (·.2) = Service.popped (inModeration (happened past)) := by
  refine hruns.map_collect_eq (f := fun past ↦ Service.popped (inModeration (happened past))) rfl
    (fun past new ↦ ?_) fun hruns hact ↦ (hs.of_runs hruns).takenBy_eq hact
  simp only [extract_append]

/-- What was delivered in a run is what was taken by requests that want a body. -/
theorem State.delivered_eq (s : State) (as : List Action) :
    s.delivered as = ((s.taken as).filter (wantsBody ·.1)).map delivery := by
  have hcomp := collect_comp act takenBy
    (f := fun taken ↦ (taken.filter (wantsBody ·.1)).map delivery) rfl (by simp) s as
  rw [delivered, taken, ← hcomp]
  exact congrArg (collect act · s as) (funext fun t ↦ funext t.deliveredBy_eq)

end Requests

/-! ### The statement -/

/-- How the verdicts that came to the store of the server `start` were dealt with in a run. -/
structure Fetching (start : State) (as : List Action) (s : State) (past : List Entry) :
    Prop where
  /-- Each verdict that came to the store was taken by one request or waits, the oldest first. -/
  taken : Service.stored (inModeration (happened past)) =
    (start.taken as).map (·.2) ++ s.verdicts
  /-- What was delivered is what was taken by requests that want a body, each in the answer to the
  request that took it. -/
  delivered : start.delivered as = ((start.taken as).filter (wantsBody ·.1)).map delivery
  /-- Everything that was taken was delivered if and only if no request for the head took any. -/
  delivered_iff : start.delivered as = (start.taken as).map delivery ↔
    ∀ p ∈ start.taken as, p.1.method ≠ .head
  /-- Who asks for the next verdict gets the oldest one, if there is one, and takes it away. -/
  get : ∀ r now, r.path = Resource.nextVerdict.path → r.method = .get →
    (s.respond now r).2.1.verdicts = s.verdicts.tail ∧
      (s.respond now r).1 =
        match s.verdicts with
        | v :: _ => .ofData 200 v.json
        | [] => { status := 204 }
  /-- Who asks for the head alone takes it away as well, and gets no body. -/
  head : ∀ r now, r.path = Resource.nextVerdict.path → r.method = .head →
    (s.respond now r).2.1.verdicts = s.verdicts.tail ∧ (s.respond now r).1.body = .none
  /-- Every other request that delivers no verdict leaves the store as it was. -/
  idle : ∀ r now, ¬(r.path = Resource.nextVerdict.path ∧ r.method = .head) →
    s.deliveredBy (.request r now) = [] → (s.respond now r).2.1.verdicts = s.verdicts

/-- **Fetching.** After every run of a server, whatever requests were answered, which calls were
issued and which steps have happened, each verdict that came to the store was taken by one request
or is still there, in order; it was delivered in the answer to that request, unless the request
wanted only the head. -/
theorem fetching_of_run {settings : Settings.Server} {as : List Action} {s : State}
    {past : List Entry} (hrun : (State.new settings).1.run as = some (s, past)) :
    Fetching (State.new settings).1 as s past := by
  have hnew := Reached.of_new settings
  have hruns := State.run_iff.1 hrun
  have hdelivered := (State.new settings).1.delivered_eq as
  obtain ⟨ms, hmoderates, -⟩ := (Follows.of_new hruns).moderation
  have hstored := Service.stored_eq hnew.sound.coupled hnew.reader rfl hmoderates
  exact {
    taken := by rw [hstored, hnew.taken_eq hruns]
    delivered := hdelivered
    delivered_iff := by
      rw [hdelivered]
      constructor
      · intro hall p hp
        have hlength := congrArg List.length hall
        rw [List.length_map, List.length_map, List.length_filter_eq_length_iff] at hlength
        simpa [wantsBody] using hlength p hp
      · intro hwanted
        rw [List.filter_eq_self.2]
        simpa [wantsBody] using hwanted
    get := fun r now hpath hget ↦ by
      have hroute : r.route = .read .nextVerdict true :=
        Request.route_eq_read_iff.2 ⟨hpath, hget⟩
      rw [State.respond_of_nextVerdict s now hroute]
      rcases hnext : s.moderation.store.waiting with - | ⟨v, rest⟩ <;>
        simp [State.verdicts, State.withStore, hnext]
    head := fun r now hpath hhead ↦ by
      have hroute : r.route = .read .nextVerdict false :=
        Request.route_eq_read_iff.2 ⟨hpath, hhead⟩
      rw [State.respond_of_nextVerdict s now hroute]
      rcases hnext : s.moderation.store.waiting with - | ⟨v, rest⟩ <;>
        simp [State.verdicts, State.withStore, Response.withoutBody, hnext]
    idle := fun r now hother hnothing ↦ by
      rcases hrespond : s.respond now r with ⟨response, t, news⟩
      generalize htaken : s.takenBy (.request r now) = taken
      cases htaken ▸ hnothing ▸ State.effect hrespond with
      | none same => exact same
      | loses next head path => exact absurd ⟨path, head⟩ hother }

/-- A request that posts a job for the given content. -/
def postOfJob (contentId : String) : Http.Request where
  method := .post
  target := "/jobs"
  contentType := some "application/json"
  body := ("\x7b\"content_id\":\"" ++ contentId ++
    "\",\"author_id\":\"a\",\"body\":\"b\"\x7d").toUTF8

/-- A request for the next verdict. -/
def requestOfNext (method : Http.Method) : Http.Request where
  method := method
  target := "/jobs/next"

/-- What is done to bring the verdict about a job into the store. -/
def judged (contentId : String) : List Action :=
  .request (postOfJob contentId) .epoch ::
    ([.pool (.arrive 0), .pool (.pull 0), .pool (.judge 0), .collect, .store] : List Service.Step).map
      fun x ↦ .step (.moderation x) .epoch

/-- The verdict about the job for the given content. -/
def verdictOf (contentId : String) : Verdict :=
  ⟨⟨contentId, "a", "b", some .epoch⟩, .approved, "passed automated moderation", .epoch⟩

/-- Two verdicts come to the store; the first is taken by a request for the head and the second by a
request that wants it. -/
def sampleFetches : List Action :=
  .issue 0 .start :: judged "c" ++ judged "d" ++
    [.request (requestOfNext .head) .epoch, .request (requestOfNext .get) .epoch]

theorem fetching_of_run_sample : ∃ s past,
    (State.new smallSettings).1.run sampleFetches = some (s, past) ∧
      Service.stored (inModeration (happened past)) = [verdictOf "c", verdictOf "d"] ∧
      ((State.new smallSettings).1.taken sampleFetches).map (·.1.method) = [.head, .get] ∧
      Fetching (State.new smallSettings).1 sampleFetches s past := by
  have hpossible : ((State.new smallSettings).1.run sampleFetches).any (fun p ↦
      Service.stored (inModeration (happened p.2)) = [verdictOf "c", verdictOf "d"]) = true := by
    decide +kernel
  obtain ⟨⟨s, past⟩, hrun, hstored⟩ := (Option.any_eq_true _ _).1 hpossible
  exact ⟨s, past, hrun, of_decide_eq_true hstored, by decide +kernel, fetching_of_run hrun⟩

/-- A verdict comes to the store and is taken by a request for the head. -/
def sampleLoss : List Action :=
  .issue 0 .start :: judged "c" ++ [.request (requestOfNext .head) .epoch]

/-- A verdict is lost when only the head of the answer is asked for: the request takes it from the
store and is answered as if it were given it, but no answer has it in its body. -/
theorem lost_to_head : ∃ s past,
    (State.new smallSettings).1.run sampleLoss = some (s, past) ∧
      Service.stored (inModeration (happened past)) = [verdictOf "c"] ∧ s.verdicts = [] ∧
      ((State.new smallSettings).1.taken sampleLoss).map (·.2) = [verdictOf "c"] ∧
      (State.new smallSettings).1.delivered sampleLoss = [] := by
  have hpossible : ((State.new smallSettings).1.run sampleLoss).any (fun p ↦
      Service.stored (inModeration (happened p.2)) = [verdictOf "c"] ∧ p.1.verdicts = []) =
        true := by
    decide +kernel
  obtain ⟨⟨s, past⟩, hrun, hlost⟩ := (Option.any_eq_true _ _).1 hpossible
  obtain ⟨hstored, hempty⟩ := of_decide_eq_true hlost
  exact ⟨s, past, hrun, hstored, hempty, by decide +kernel, List.isEmpty_iff.1 (by decide +kernel)⟩

end Conveyor.Server
