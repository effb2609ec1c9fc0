import Conveyor.Proofs.Json.Submissions
import Conveyor.Proofs.Server.Admission

/-!
# Sending an item again

An item that a server has given out can be sent to it as it is. Whatever reads as an event or as a job
reads as a submission of it, and an event that comes back as the very text that is written for it is
treated as the event itself would be: checked, and offered to the pipeline. The main statement is
`submissions_extend_items`.

The text comes as bytes with the request, and the body is read in the same two steps as any other, so
what is added here is only that nothing is lost on the way (`readBody_of_posts`).
-/

namespace Conveyor.Server

open Http Json Moderation Time

/-- The request posts this text to an inbox, as JSON that is not too long. -/
structure Posts (r : Http.Request) (inbox : Inbox) (text : String) : Prop where
  /-- The request sends something. -/
  method_eq : r.method = .post
  /-- It sends it to the inbox. -/
  path_eq : r.path = inbox.path
  /-- The body is said to be JSON. -/
  isJson : r.contentType.any isJsonType = true
  /-- The body is the text. -/
  body_eq : r.body = text.toUTF8
  /-- The body is not too long. -/
  size_le : text.toUTF8.size ≤ bodyLimit

section Posts

variable {r : Http.Request} {inbox : Inbox} {text : String}

/-- The body of a request that posts a text is decoded as the text is. -/
theorem readBody_of_posts (h : Posts r inbox text) {α : Type} {d : Decoder α} {a : α}
    (hdecode : (Document.ofText text).decode d = .ok a) : readBody d r = .ok a := by
  obtain ⟨c, hc, hjson⟩ := (Option.any_eq_true _ _).1 h.isJson
  have hshort : ¬bodyLimit < text.toUTF8.size := Nat.not_lt.2 h.size_le
  simp only [readBody, hc, hjson, h.body_eq, Option.map_some, Option.getD_some, Bool.not_true,
    Bool.false_eq_true, if_false, if_neg hshort, Document.ofBytes_toUTF8, hdecode]

/-- The text that is written for an event is read as that event, whatever the time. -/
theorem ofRequest_of_posts {e : Event} (h : Posts r .logs e.json.render) (now : Timestamp) :
    Item.ofRequest now r .logs = .ok (.event e) := by
  obtain ⟨x, hx, hevent⟩ := Event.submission_of_decode e.decodes_json.decode_render
  simp only [Item.ofRequest, readBody_of_posts h hx, Except.map, hevent]

end Posts

/-- What a server does with an event: it checks it and offers it to the pipeline. -/
def State.takeEvent (s : State) (e : Event) : Response × State × List Note :=
  match e.check with
  | .error fault => ((Failure.item fault).response, s, [.failed (.item fault)])
  | .ok () =>
    match s.pipeline.enqueue e with
    | (.ok (), pipeline, notes) =>
      (accepted, s.withPipeline pipeline notes, notes.map .pipeline)
    | (.error why, _, _) => ((Failure.queue why).response, s, [.failed (.queue why)])

/-- An event that comes back as it was written is treated as the event itself. -/
theorem State.respond_of_posts (s : State) (now : Timestamp) {r : Http.Request} {e : Event}
    (h : Posts r .logs e.json.render) : s.respond now r = s.takeEvent e := by
  have hroute := Request.route_of_post h.method_eq h.path_eq
  rw [respond_of_route s hroute, send_eq, ofRequest_of_posts h now]
  simp only [takeEvent, Item.check, ← offer_event]
  rcases e.check with fault | ⟨⟩
  · rfl
  · rcases s.pipeline.enqueue e with ⟨why | ⟨⟩, pipeline, notes⟩ <;> rfl

/-- **Submissions extend items.** Every text that reads as an event or a job reads as a submission
of the same event or job; so an event that is posted as it was written enters the pipeline as it is,
or is answered with what its own check or the pipeline says. -/
theorem submissions_extend_items :
    (∀ (doc : Document) (e : Event), doc.decode Event.decoder = .ok e →
      ∃ x, doc.decode Event.Submission.decoder = .ok x ∧ ∀ now, x.event now = e) ∧
    (∀ (doc : Document) (j : Job), doc.decode Job.decoder = .ok j →
      ∃ x, doc.decode Job.Submission.decoder = .ok x ∧ x.job = j) ∧
    (∀ (s : State) (now : Timestamp) (r : Http.Request) (e : Event),
      Posts r .logs e.json.render → s.respond now r = s.takeEvent e) :=
  ⟨fun _ _ ↦ Event.submission_of_decode, fun _ _ ↦ Job.submission_of_decode,
    fun s now _ _ ↦ s.respond_of_posts now⟩

/-- An event whose texts need escapes, in a leap second. -/
def quotedEvent : Event where
  source := "db \"main\"\n"
  level := .warn
  message := "disk low"
  fields := .ofList [("mount", "/var"), ("", "\\")]
  timestamp := (Timestamp.ofText? "-0001-06-30T23:59:60.5Z").getD .epoch

/-- A request that posts an event as it is written. -/
def postOfItself (e : Event) : Http.Request where
  method := .post
  target := "/logs"
  contentType := some "application/json"
  body := e.json.render.toUTF8

/-- A document with an event in the form of an array. -/
def eventInArray : Document :=
  .ofText "[\"db\",\"warn\",\"up\",\x7b\x7d,\"1970-01-01T00:00:00Z\"]"

/-- A document with a job in the form of an object, out of order and with a key more. -/
def jobInObject : Document :=
  .ofText "\x7b\"body\":\"b\",\"x\":[1],\"author_id\":\"a\",\"content_id\":\"c\"\x7d"

/-- An event and a job that read as submissions, and an event that is posted to a full server. -/
theorem submissions_extend_items_sample :
    eventInArray.decode Event.decoder = .ok (.new "db" .warn "up" .epoch) ∧
      (∃ x, eventInArray.decode Event.Submission.decoder = .ok x ∧
        ∀ now, x.event now = .new "db" .warn "up" .epoch) ∧
      jobInObject.decode Job.decoder = .ok ⟨"c", "a", "b", none⟩ ∧
      (∃ x, jobInObject.decode Job.Submission.decoder = .ok x ∧ x.job = ⟨"c", "a", "b", none⟩) ∧
      Posts (postOfItself quotedEvent) .logs quotedEvent.json.render ∧
      (fullServer.takeEvent quotedEvent).1.code? = some "SERVICE_BUSY" ∧
      fullServer.respond .epoch (postOfItself quotedEvent) = fullServer.takeEvent quotedEvent := by
  obtain ⟨hevents, hjobs, hposts⟩ := submissions_extend_items
  have hevent : eventInArray.decode Event.decoder = .ok (.new "db" .warn "up" .epoch) := by
    decide +kernel
  have hjob : jobInObject.decode Job.decoder = .ok ⟨"c", "a", "b", none⟩ := by decide +kernel
  have hposted : Posts (postOfItself quotedEvent) .logs quotedEvent.json.render :=
    ⟨rfl, by decide, by decide +kernel, by rw [postOfItself], by decide +kernel⟩
  exact ⟨hevent, hevents _ _ hevent, hjob, hjobs _ _ hjob, hposted, by decide +kernel,
    hposts fullServer .epoch _ quotedEvent hposted⟩

end Conveyor.Server
