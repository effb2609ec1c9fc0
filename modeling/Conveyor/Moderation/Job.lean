import Conveyor.Fault
import Conveyor.Json.Decoder
import Conveyor.Json.Value
import Conveyor.Event.Codec

/-!
# Moderation jobs and verdicts

A `Job` asks whether a piece of content may be published; a `Verdict` is the answer and carries the
job it answers. Both are exchanged as JSON. A job sent by a client, a `Job.Submission`, may lack any
of its parts, and both are read through the same draft. Their times are `Timestamp`s unless another
form of points in time is named.
-/

namespace Conveyor.Moderation

open Json Time

/-- A piece of content to be judged, with its time in the form `τ`. -/
structure Job (τ : Type := Timestamp) where
  /-- Which content it is. -/
  contentId : String
  /-- Who wrote it. -/
  authorId : String
  /-- The content. -/
  body : String
  /-- When it was submitted, if that is known. -/
  submitted : Option τ
  deriving DecidableEq

/-- What a policy decides. -/
inductive Decision where
  /-- The content may be published. -/
  | approved
  /-- The content is held back. -/
  | flagged
  deriving DecidableEq, Repr

/-- The answer to a job, with its times in the form `τ`. -/
structure Verdict (τ : Type := Timestamp) where
  /-- The job that is answered. -/
  job : Job τ
  /-- What was decided. -/
  decision : Decision
  /-- Why. -/
  reason : String
  /-- When it was decided. -/
  processedAt : τ
  deriving DecidableEq

namespace Job

/-- None of the three texts is empty. -/
def check (j : Job) : Except ItemFault Unit :=
  if j.contentId.isEmpty || j.authorId.isEmpty || j.body.isEmpty then
    .error (.invalid "content_id, author_id, and body required")
  else .ok ()

/-- The job with the time given, if its own is not known. -/
def stamp (j : Job) (now : Timestamp) : Job :=
  { j with submitted := some (j.submitted.getD now) }

/-- What a text says about a job so far. The time is `some none` where it is given as `null`. -/
structure Draft where
  /-- Which content it is. -/
  contentId : Option String := none
  /-- Who wrote it. -/
  authorId : Option String := none
  /-- The content. -/
  body : Option String := none
  /-- When it was submitted. -/
  submitted : Option (Option Timestamp) := none

namespace Draft

/-- The fields of a job in order. -/
def table : List (Decoder.Field Draft) :=
  [.of "content_id" Draft.contentId (fun d v ↦ { d with contentId := some v }) .text,
   .of "author_id" Draft.authorId (fun d v ↦ { d with authorId := some v }) .text,
   .of "body" Draft.body (fun d v ↦ { d with body := some v }) .text,
   .of "submitted" Draft.submitted (fun d v ↦ { d with submitted := some v })
     (.optional .timestamp)]

/-- The decoder of a draft. -/
def decoder : Decoder Draft :=
  Decoder.record table {}

/-- The job of a draft. Every part but the time is required. -/
def job (d : Draft) : Except Refusal Job := do
  let contentId ← Decoder.required d.contentId
  let authorId ← Decoder.required d.authorId
  let body ← Decoder.required d.body
  return { contentId, authorId, body, submitted := d.submitted.join }

end Draft

/-- The decoder of a job. -/
def decoder : Decoder Job := fun n ↦ do
  Draft.job (← Draft.decoder n)

/-- A job as JSON. -/
def json (j : Job) : Value :=
  .object
    [("content_id", .text j.contentId),
     ("author_id", .text j.authorId),
     ("body", .text j.body),
     ("submitted", .ofOption .ofTimestamp j.submitted)]

/-- A job as a client sends it. -/
structure Submission where
  /-- Which content it is. -/
  contentId : String := ""
  /-- Who wrote it. -/
  authorId : String := ""
  /-- The content. -/
  body : String := ""
  /-- When it was submitted, if the client says so. -/
  submitted : Option Timestamp := none

namespace Submission

/-- The submission of a draft, with the empty text for each missing part. -/
def ofDraft (d : Draft) : Submission where
  contentId := d.contentId.getD ""
  authorId := d.authorId.getD ""
  body := d.body.getD ""
  submitted := d.submitted.join

/-- The decoder of a submission. -/
def decoder : Decoder Submission := fun n ↦ do
  return ofDraft (← Draft.decoder n)

/-- The job that was submitted. -/
def job (s : Submission) : Job where
  contentId := s.contentId
  authorId := s.authorId
  body := s.body
  submitted := s.submitted

end Submission

end Job

namespace Decision

/-- The name of a decision. -/
def name : Decision → String
  | approved => "approved"
  | flagged => "flagged"

/-- The decision of a name. -/
def ofName? (s : String) : Option Decision :=
  if s = "approved" then some approved
  else if s = "flagged" then some flagged
  else none

/-- The decoder of a decision. -/
def decoder : Decoder Decision :=
  .name ofName?

/-- A decision as JSON. -/
def json (d : Decision) : Value :=
  .text d.name

end Decision

namespace Verdict

/-- What a text says about a verdict so far. -/
structure Draft where
  /-- The job. -/
  job : Option Job := none
  /-- The decision. -/
  decision : Option Decision := none
  /-- The reason. -/
  reason : Option String := none
  /-- When it was decided. -/
  processedAt : Option Timestamp := none

namespace Draft

/-- The fields of a verdict in order. -/
def table : List (Decoder.Field Draft) :=
  [.of "job" Draft.job (fun d v ↦ { d with job := some v }) Job.decoder,
   .of "decision" Draft.decision (fun d v ↦ { d with decision := some v }) Decision.decoder,
   .of "reason" Draft.reason (fun d v ↦ { d with reason := some v }) .text,
   .of "processed_at" Draft.processedAt (fun d v ↦ { d with processedAt := some v }) .timestamp]

/-- The verdict of a draft. Every part is required. -/
def verdict (d : Draft) : Except Refusal Verdict := do
  let job ← Decoder.required d.job
  let decision ← Decoder.required d.decision
  let reason ← Decoder.required d.reason
  let processedAt ← Decoder.required d.processedAt
  return { job, decision, reason, processedAt }

end Draft

/-- The decoder of a verdict. -/
def decoder : Decoder Verdict := fun n ↦ do
  Draft.verdict (← Decoder.record Draft.table {} n)

/-- A verdict as JSON. -/
def json (v : Verdict) : Value :=
  .object
    [("job", v.job.json),
     ("decision", v.decision.json),
     ("reason", .text v.reason),
     ("processed_at", .ofTimestamp v.processedAt)]

end Verdict

end Conveyor.Moderation
