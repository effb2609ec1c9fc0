import Conveyor.Proofs.Metrics.ReadBack
import Conveyor.Proofs.Server.Histories

/-!
# The summaries that a client reads

A client sees summaries in two places: in the answer to a sample that it sends, and when it asks for
all of them. The main statement is `summaries_of_run`: at any moment of any run, whatever requests
were answered before, both are JSON in which each summary stands as its decoder wants it, and it is
accepted just when its sum is finite.

Only samples change the aggregator (`State.metrics_of_act`), and every sample that was read is
finite. So all summaries are those of finite samples (`State.isSound_metrics`).
-/

namespace Conveyor.Server

open Http Json Metrics Time

variable {settings : Settings.Server} {s t u : State} {a : Action} {as : List Action} {id : Nat}
  {past new : List Entry} {news : List Note} {now : Timestamp} {r : Http.Request}

/-! ### What changes the aggregator -/

theorem Acts.metrics_eq {b : PartAction} (h : Acts s b t news) : t.metrics = s.metrics := by
  cases h <;> rfl

theorem Goes.metrics_eq {stages : List Stage} (h : Goes id s stages t news) :
    t.metrics = s.metrics := by
  induction h with
  | returns => rfl
  | waits acts => exact acts.metrics_eq
  | passes acts _ _ ih => exact ih.trans acts.metrics_eq

theorem Proceeds.metrics_eq {ids : List Nat} (h : Proceeds s ids t news) :
    t.metrics = s.metrics := by
  induction h with
  | done => rfl
  | skip _ _ ih => exact ih
  | next _ goes _ ih => exact ih.trans goes.metrics_eq

/-- What is posted to the inbox of samples is decoded. -/
theorem Item.readBody_of_sample {inbox : Inbox} {x : Sample}
    (h : ofRequest now r inbox = .ok (.sample x)) : readBody Sample.decoder r = .ok x := by
  cases inbox with
  | logs =>
    rcases hbody : readBody Event.Submission.decoder r with fault | y <;>
      simp [ofRequest, hbody, Except.map] at h
  | jobs =>
    rcases hbody : readBody Moderation.Job.Submission.decoder r with fault | y <;>
      simp [ofRequest, hbody, Except.map] at h
  | samples =>
    rcases hbody : readBody Sample.decoder r with fault | y
    · simp [ofRequest, hbody, Except.map] at h
    · simpa [ofRequest, hbody, Except.map] using h

/-- The aggregator stays as it is, or a sample in the body of a request is taken into it. -/
theorem State.metrics_of_act (h : s.act a = some (t, new)) :
    t.metrics = s.metrics ∨
      ∃ r now x, readBody Sample.decoder r = .ok x ∧ t.metrics = (s.metrics.ingest x now).2 := by
  cases a with
  | request r now =>
    obtain ⟨response, hrespond⟩ := respond_of_act h
    generalize happened new = news at hrespond
    cases answers hrespond with
    | @takes inbox item route read taken =>
      cases item with
      | event e =>
        refine .inl ?_
        rw [withItem]
        split <;> rfl
      | job j => exact .inl rfl
      | sample x => exact .inr ⟨r, now, x, Item.readBody_of_sample read, rfl⟩
    | _ => exact .inl rfl
  | issue id order =>
    cases change h with
    | issue goes => exact .inl goes.metrics_eq
  | step x now =>
    cases change h with
    | step _ acts proceeds => exact .inl (proceeds.metrics_eq.trans acts.metrics_eq)

/-- The value of a sample in the body of a request is finite. -/
theorem isFinite_of_readBody {x : Sample} (h : readBody Sample.decoder r = .ok x) :
    x.value.isFinite = true := by
  rw [readBody] at h
  split_ifs at h
  cases hdecode : (Document.ofBytes r.body).decode Sample.decoder with
  | error why =>
    rw [hdecode] at h
    cases h
  | ok y =>
    rw [hdecode] at h
    obtain rfl := Except.ok.inj h
    obtain ⟨hroot, -⟩ := Document.decode_eq_ok_iff.1 hdecode
    exact Sample.isFinite_of_decoder (Document.isFinite_ofBytes r.body) hroot

/-- In every run all summaries are of finite samples. -/
theorem State.isSound_metrics (hruns : Runs State.act (State.new settings).1 as s past) :
    s.metrics.IsSound := by
  induction hruns with
  | refl => exact Aggregator.isSound_empty
  | tail run act_eq ih =>
    obtain hsame | ⟨r, now, x, hread, hingest⟩ := metrics_of_act act_eq
    · exact hsame ▸ ih
    · exact hingest ▸ ih.ingest (isFinite_of_readBody hread) now

/-! ### What a client reads -/

/-- The data in a response as it is read: the body is the text of an object with nothing else. -/
def data? (response : Response) : Option Node :=
  match response.body with
  | .none => none
  | .json v =>
    match Document.ofText v.render with
    | ⟨.object [(some key, n)] true, true⟩ => if key = "data" then some n else none
    | _ => none

theorem data?_ofData {v : Value} {n : Node} (h : v.ReadsAs n) (status : Nat) :
    data? (.ofData status v) = some n := by
  have hread := (Value.readsAs_object (.cons ⟨rfl, h⟩ .nil) :
    (Value.object [("data", v)]).ReadsAs (.object [(some "data", n)] true)).ofText_render
  simp only [data?, Response.ofData, Response.ofJson, hread, if_true]

/-- What clients read of the summaries that a server holds. -/
structure Summaries (s : State) : Prop where
  /-- The answer to a sample that is taken has the summary as the aggregator then holds it. -/
  sent : ∀ now r, r.method = .post → r.path = Inbox.samples.path →
    (s.respond now r).1.status = 202 → ∃ x summary n, readBody Sample.decoder r = .ok x ∧
      (s.respond now r).2.1.metrics.snapshot.get? x.key = some summary ∧
      data? (s.respond now r).1 = some n ∧ summary.IsReadAs n
  /-- Who asks for the summaries gets all that the aggregator holds, by their keys. -/
  all : ∀ now r, r.method = .get → r.path = Resource.summaries.path →
    ∃ members, data? (s.respond now r).1 = some (.object members true) ∧
      List.Forall₂ (fun entry member ↦ member.1 = some entry.1 ∧ entry.2.IsReadAs member.2)
        s.metrics.snapshot.toList members

/-- The text of sound summaries has all of them as they are read. -/
theorem exists_members {entries : List (String × Summary)} (h : ∀ e ∈ entries, e.2.IsSound) :
    ∃ members : List (Option String × Node), List.Forall₂
      (fun entry member ↦ member.1 = some entry.1 ∧ entry.2.IsReadAs member.2) entries members := by
  induction entries with
  | nil => exact ⟨[], .nil⟩
  | cons e entries ih =>
    obtain ⟨he, hentries⟩ := List.forall_mem_cons.1 h
    obtain ⟨n, hn⟩ := he.exists_isReadAs
    obtain ⟨members, hmembers⟩ := ih hentries
    exact ⟨(some e.1, n) :: members, .cons ⟨rfl, hn⟩ hmembers⟩

/-- **Summaries are read back.** After every run of a server, whatever was sent to it, the summary
in the answer to a sample and every summary in the answer to who asks for all of them stand there as
JSON. A summary with a finite sum is accepted by its decoder: the count and the time are the same,
and so is each value whose decimal is short, while the other values are close. A summary with an
infinite sum is refused. -/
theorem summaries_of_run (hrun : (State.new settings).1.run as = some (s, past)) : Summaries s := by
  have hsound := State.isSound_metrics (State.run_iff.1 hrun)
  refine ⟨fun now r hpost hpath hstatus ↦ ?_, fun now r hget hpath ↦ ?_⟩
  · have hroute := Request.route_of_post hpost hpath
    obtain ⟨failure, hfailed, hrespond⟩ | ⟨item, hread, -, -, hrespond⟩ :=
      State.respond_cases s now hroute
    · rw [hrespond, Failure.response_status] at hstatus
      omega
    · obtain ⟨x, rfl⟩ := Item.eq_sample_of_ofRequest hread
      have hbody := Item.readBody_of_sample hread
      have hafter := hsound.ingest (isFinite_of_readBody hbody) now
      have hget : (s.metrics.ingest x now).2.snapshot.get? x.key =
          some (s.metrics.ingest x now).1 := by
        rw [Aggregator.get?_ingest, if_pos rfl]
      obtain ⟨n, hn⟩ := (hafter _ _ hget).exists_isReadAs
      rw [hrespond]
      exact ⟨x, _, n, hbody, hget, data?_ofData hn.reads 202, hn⟩
  · obtain ⟨members, hmembers⟩ := exists_members fun e he ↦
      hsound e.1 e.2 (Dict.mem_entries_iff.1 he)
    have hreads : s.metrics.json.ReadsAs (.object members true) :=
      Value.readsAs_object (List.forall₂_map_left_iff.2
        (hmembers.imp fun _ _ hmember ↦ ⟨hmember.1, hmember.2.reads⟩))
    have hroute : r.route = .read .summaries true := Request.route_eq_read_iff.2 ⟨hpath, hget⟩
    have hrespond : (s.respond now r).1 = .ofData 200 s.metrics.json := by
      simp only [State.respond, hroute, State.read, if_true]
    rw [hrespond]
    exact ⟨members, data?_ofData hreads 200, hmembers⟩

/-- A request that posts a sample with the given value. -/
def postOfSample (value : String) : Http.Request where
  method := .post
  target := "/metrics/ingest"
  contentType := some "application/json"
  body := ("\x7b\"namespace\":\"host\",\"name\":\"load\",\"value\":" ++ value ++ "\x7d").toUTF8

/-- A small server that has taken a sample with the given value. -/
def afterSample (value : String) : State :=
  ((State.new smallSettings).1.respond .epoch (postOfSample value)).2.1

/-- The bits of the sum in the summary that is the data of a response, if it is accepted. -/
def readSum? (response : Response) : Option UInt64 := do
  let summary ← (Summary.decoder (← data? response)).toOption
  return summary.sum.toBits

/-- The run of a small server in which it takes such a sample. -/
theorem run_afterSample (value : String) : ∃ past, (State.new smallSettings).1.run
    [.request (postOfSample value) .epoch] = some (afterSample value, past) :=
  ⟨_, rfl⟩

/-- After two samples with the sum `4` a client reads a summary with this sum. -/
theorem summaries_of_run_sample : ∃ past,
    (State.new smallSettings).1.run [.request (postOfSample "1.5") .epoch] =
      some (afterSample "1.5", past) ∧
    (postOfSample "2.5").path = Inbox.samples.path ∧
    ((afterSample "1.5").respond .epoch (postOfSample "2.5")).1.status = 202 ∧
    readSum? ((afterSample "1.5").respond .epoch (postOfSample "2.5")).1 =
      some 0x4010000000000000 ∧
    Summaries (afterSample "1.5") := by
  obtain ⟨past, hrun⟩ := run_afterSample "1.5"
  exact ⟨past, hrun, by decide +kernel, by decide +kernel, by decide +kernel,
    summaries_of_run hrun⟩

/-- Two great samples have an infinite sum, and their summary is refused. Two small ones have a sum
with seventeen digits, and another sum is read. -/
theorem summary_not_read_back :
    (∃ past, (State.new smallSettings).1.run [.request (postOfSample "1e308") .epoch] =
      some (afterSample "1e308", past)) ∧
    ((afterSample "1e308").respond .epoch (postOfSample "1e308")).1.status = 202 ∧
    (((afterSample "1e308").respond .epoch (postOfSample "1e308")).2.1.metrics.snapshot.get?
      "host.load\x7b\x7d").map (·.sum.isInf) = some true ∧
    ((data? ((afterSample "1e308").respond .epoch (postOfSample "1e308")).1).any fun n ↦
      !(Summary.decoder n).isOk) = true ∧
    (∃ past, (State.new smallSettings).1.run [.request (postOfSample "0.1") .epoch] =
      some (afterSample "0.1", past)) ∧
    (((afterSample "0.1").respond .epoch (postOfSample "1.3")).2.1.metrics.snapshot.get?
      "host.load\x7b\x7d").map (·.sum.toBits) = some 0x3ff6666666666667 ∧
    readSum? ((afterSample "0.1").respond .epoch (postOfSample "1.3")).1 =
      some 0x3ff6666666666666 := by
  refine ⟨run_afterSample _, ?_, ?_, ?_, run_afterSample _, ?_, ?_⟩ <;> decide +kernel

end Conveyor.Server
