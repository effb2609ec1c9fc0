import Conveyor.Proofs.Pipeline.Drain
import Conveyor.Proofs.Server.Requests
import Conveyor.Proofs.Service.Changes

/-!
# What a server can do

A server changes only when one of its parts acts, a call goes on or a sample is ingested. `Acts` is
what a part does, `Goes` how a call goes through its stages until one of them does not return at
once, and `Proceeds` how calls go on whose stages have returned. `Change` puts them together to
everything that can happen in an action of the server; the operations of the server are opened only
here (`State.change`).

So each statement about servers comes down to what it means for one part that acts, and is carried
from there through the stages of a call and the calls that go on.
-/

namespace Conveyor.Server

open Http Metrics Moderation Time

/-! ### Parts -/

/-- An action of a part of the server. -/
inductive PartAction where
  /-- An action of the pipeline. -/
  | pipeline (a : Pipeline.Action Outlet)
  /-- An action of the moderation service. -/
  | moderation (a : Service.Action)

namespace PartAction

/-- It is a step. -/
def IsStep : PartAction → Prop
  | pipeline (.step _) => True
  | moderation (.step _ _) => True
  | _ => False

/-- A client asks for it. -/
def IsRequest : PartAction → Prop
  | pipeline (.enqueue _) => True
  | moderation (.submit _) => True
  | moderation .pop => True
  | _ => False

end PartAction

/-- What a call asks of a part, when it has come to this stage. -/
def Stage.action (id : Nat) : Stage → PartAction
  | pipeline request => .pipeline (.issue ⟨id, request⟩)
  | moderation request => .moderation (.issue id request)

/-- The number of the call that returned from a part. -/
def Note.partReturn? : Note → Option Nat
  | pipeline (.returned id) => some id
  | moderation (.returned id) => some id
  | _ => none

/-- The numbers of the calls that returned from parts. -/
abbrev partReturns (notes : List Note) : List Nat := extract Note.partReturn? notes

/-- What a part does when it acts. -/
inductive Acts (s : State) : PartAction → State → List Note → Prop where
  /-- The pipeline acts, and no sink dies. -/
  | pipeline {a : Pipeline.Action Outlet} {pipeline : Pipeline.State Outlet}
      {news : List (Pipeline.Note Outlet)} (acts : s.pipeline.act a = some (pipeline, news))
      (harmless : a.isHarmless = true) :
      Acts s (.pipeline a) (s.withPipeline pipeline news) (news.map .pipeline)
  /-- The moderation service acts. -/
  | moderation {a : Service.Action} {moderation : Service.State} {news : List Service.Note}
      (acts : s.moderation.act s.banned.policy a = some (moderation, news)) :
      Acts s (.moderation a) { s with moderation } (news.map .moderation)

section Returns

variable {id : Nat}

theorem mem_partReturns_pipeline {news : List (Pipeline.Note Outlet)} :
    id ∈ partReturns (news.map .pipeline) ↔ .returned id ∈ news := by
  simp only [partReturns, extract, List.mem_filterMap, List.mem_map]
  constructor
  · rintro ⟨_, ⟨n, hn, rfl⟩, hid⟩
    cases n <;> simp_all [Note.partReturn?]
  · exact fun h ↦ ⟨_, ⟨_, h, rfl⟩, rfl⟩

theorem mem_partReturns_moderation {news : List Service.Note} :
    id ∈ partReturns (news.map .moderation) ↔ .returned id ∈ news := by
  simp only [partReturns, extract, List.mem_filterMap, List.mem_map]
  constructor
  · rintro ⟨_, ⟨n, hn, rfl⟩, hid⟩
    cases n <;> simp_all [Note.partReturn?]
  · exact fun h ↦ ⟨_, ⟨_, h, rfl⟩, rfl⟩

theorem pipelineReturns_eq (news : List (Pipeline.Note Outlet)) :
    State.pipelineReturns news = partReturns (news.map .pipeline) := by
  rw [State.pipelineReturns, partReturns, extract, List.filterMap_map]
  congr 1
  funext n
  cases n <;> rfl

theorem moderationReturns_eq (news : List Service.Note) :
    State.moderationReturns news = partReturns (news.map .moderation) := by
  rw [State.moderationReturns, partReturns, extract, List.filterMap_map]
  congr 1
  funext n
  cases n <;> rfl

end Returns

/-! ### Calls -/

/-- The calls that have not returned, but for the one with this number. -/
def State.others (s : State) (id : Nat) : List Pending := s.pending.filter (·.id != id)

theorem State.mem_others {s : State} {id : Nat} {p : Pending} :
    p ∈ s.others id ↔ p ∈ s.pending ∧ p.id ≠ id := by
  simp [State.others]

/-- A call goes through its stages as far as they return at once. -/
inductive Goes (id : Nat) : State → List Stage → State → List Note → Prop where
  /-- No stage is left, and the call returns. -/
  | returns {s : State} : Goes id s [] s [.returned id]
  /-- A stage does not return at once. -/
  | waits {s t : State} {stage : Stage} {rest : List Stage} {news : List Note}
      (acts : Acts s (stage.action id) t news) (stays : id ∉ partReturns news) :
      Goes id s (stage :: rest) { t with pending := t.pending ++ [⟨id, rest⟩] } news
  /-- A stage returns at once, and the call goes on. -/
  | passes {s t u : State} {stage : Stage} {rest : List Stage} {news later : List Note}
      (acts : Acts s (stage.action id) t news) (returned : id ∈ partReturns news)
      (goes : Goes id t rest u later) : Goes id s (stage :: rest) u (news ++ later)

/-- Calls whose stages have returned go on, one after the other. -/
inductive Proceeds : State → List Nat → State → List Note → Prop where
  /-- No call is left. -/
  | done {s : State} : Proceeds s [] s []
  /-- The call is not known here. -/
  | skip {s t : State} {id : Nat} {ids : List Nat} {notes : List Note}
      (unknown : ∀ p ∈ s.pending, p.id ≠ id) (later : Proceeds s ids t notes) :
      Proceeds s (id :: ids) t notes
  /-- The call goes on. -/
  | next {s t u : State} {p : Pending} {ids : List Nat} {notes later : List Note}
      (waiting : p ∈ s.pending)
      (goes : Goes p.id { s with pending := s.others p.id } p.rest t notes)
      (proceeds : Proceeds t ids u later) : Proceeds s (p.id :: ids) u (notes ++ later)

/-- Everything that can happen in an action. -/
inductive Change (s : State) : Action → State → List Entry → Prop where
  /-- A request is answered, and no part acts. -/
  | answer {r : Http.Request} {now : Timestamp} {response : Response} {metrics : Aggregator}
      {news : List Note} (quiet : ∀ n ∈ news, ∃ failure, n = .failed failure) :
      Change s (.request r now) { s with metrics } (news.map .note ++ [.answered r response])
  /-- A request is answered, and a part acts. -/
  | ask {r : Http.Request} {now : Timestamp} {response : Response} {b : PartAction} {t : State}
      {news : List Note} (acts : Acts s b t news) (quiet : partReturns news = [])
      (isRequest : b.IsRequest) :
      Change s (.request r now) t (news.map .note ++ [.answered r response])
  /-- A call is issued. -/
  | issue {id : Nat} {order : Order} {t : State} {news : List Note}
      (goes : Goes id s order.stages t news) : Change s (.issue id order) t (news.map .note)
  /-- A part makes a step, and the calls that return from it go on. -/
  | step {x : Step} {now : Timestamp} {b : PartAction} {t u : State} {news later : List Note}
      (isStep : b.IsStep) (acts : Acts s b t news)
      (proceeds : Proceeds t (partReturns news) u later) :
      Change s (.step x now) u ((news ++ later).map .note)

namespace State

variable {s t : State} {a : Action} {entries : List Entry}

/-! ### Inversion -/

/-- A call goes through its stages. -/
theorem goes_advance (s : State) (id : Nat) (stages : List Stage) :
    Goes id s stages (s.advance id stages).1 (s.advance id stages).2 := by
  induction stages generalizing s with
  | nil => exact .returns
  | cons stage rest ih =>
    cases stage with
    | pipeline request =>
      rcases hissue : s.pipeline.issue ⟨id, request⟩ with ⟨pipeline, news⟩
      have hacts : Acts s (Stage.action id (.pipeline request)) (s.withPipeline pipeline news)
          (news.map .pipeline) := .pipeline (by rw [Pipeline.State.act, hissue]) rfl
      simp only [advance, hissue]
      split
      case isTrue hreturned =>
        exact .passes hacts (mem_partReturns_pipeline.2 (by simpa using hreturned)) (ih _)
      case isFalse hstays =>
        exact .waits hacts (mt mem_partReturns_pipeline.1 (by simpa using hstays))
    | moderation request =>
      rcases hissue : s.moderation.issue id request with ⟨moderation, news⟩
      have hacts : Acts s (Stage.action id (.moderation request)) { s with moderation }
          (news.map .moderation) := .moderation (by rw [Service.State.act, hissue])
      simp only [advance, hissue]
      split
      case isTrue hreturned =>
        exact .passes hacts (mem_partReturns_moderation.2 (by simpa using hreturned)) (ih _)
      case isFalse hstays =>
        exact .waits hacts (mt mem_partReturns_moderation.1 (by simpa using hstays))

/-- The calls whose stages have returned go on. -/
theorem proceeds_proceedAll (s : State) (ids : List Nat) :
    Proceeds s ids (s.proceedAll ids).1 (s.proceedAll ids).2 := by
  induction ids generalizing s with
  | nil => exact .done
  | cons id ids ih =>
    rcases hfind : s.pending.find? (·.id == id) with - | p
    · simp only [proceedAll, proceed, hfind]
      refine .skip (fun p hp ↦ ?_) (ih s)
      simpa using List.find?_eq_none.1 hfind p hp
    · simp only [proceedAll, proceed, hfind]
      obtain rfl : p.id = id := by simpa using List.find?_some hfind
      exact .next (List.mem_of_find?_eq_some hfind) (goes_advance _ p.id p.rest) (ih _)

/-- A step of the pipeline in which no sink dies. -/
theorem change_stepPipeline {x : Pipeline.Step} (hharmless : Pipeline.Action.isHarmless
    (.step x : Pipeline.Action Outlet) = true) {y : Step} {now : Timestamp} {news : List Note}
    (h : s.stepPipeline x = some (t, news)) : Change s (.step y now) t (news.map .note) := by
  simp only [stepPipeline, bind, Option.bind_eq_some_iff] at h
  obtain ⟨⟨pipeline, notes⟩, hstep, h⟩ := h
  obtain ⟨rfl, rfl⟩ := Prod.mk.inj (Option.some.inj h)
  refine .step (b := .pipeline (.step x)) trivial (.pipeline hstep hharmless) ?_
  rw [← pipelineReturns_eq]
  exact proceeds_proceedAll _ _

/-- A step of the moderation service. -/
theorem change_stepModeration {x : Service.Step} {y : Step} {now : Timestamp} {news : List Note}
    (h : s.stepModeration now x = some (t, news)) : Change s (.step y now) t (news.map .note) := by
  simp only [stepModeration, bind, Option.bind_eq_some_iff] at h
  obtain ⟨⟨moderation, notes⟩, hstep, h⟩ := h
  obtain ⟨rfl, rfl⟩ := Prod.mk.inj (Option.some.inj h)
  refine .step (b := .moderation (.step x now)) trivial (.moderation hstep) ?_
  rw [← moderationReturns_eq]
  exact proceeds_proceedAll _ _

/-- The pipeline acts when an event is taken. -/
theorem acts_event (s : State) (now : Timestamp) {e : Event}
    (htaken : s.admission (.event e) = .ok ()) :
    Acts s (.pipeline (.enqueue e)) (s.withItem now (.event e)) (s.taking (.event e)) := by
  by_cases hlow : e.level < s.pipeline.minLevel
  · have hact : s.pipeline.act (.enqueue e) = some (s.pipeline, [.passedOver e]) := by
      simp [Pipeline.State.act, Pipeline.State.enqueue, hlow]
    simpa [withItem, taking, hlow, withPipeline, keepRecent] using Acts.pipeline (s := s) hact rfl
  · have htaken : s.pipeline.admission = .ok () := by simpa [admission_event, hlow] using htaken
    have hact : s.pipeline.act (.enqueue e) =
        some ({ s.pipeline with queue := s.pipeline.queue ++ [e] }, [.admitted e]) := by
      simp [Pipeline.State.act, Pipeline.State.enqueue, hlow, htaken]
    simpa [withItem, taking, hlow, withPipeline, keepRecent] using Acts.pipeline (s := s) hact rfl

/-- The moderation service acts when a job is taken. -/
theorem acts_job (s : State) (now : Timestamp) {j : Job} (htaken : s.admission (.job j) = .ok ()) :
    Acts s (.moderation (.submit j)) (s.withItem now (.job j)) (s.taking (.job j)) := by
  have htaken : s.moderation.pool.admission = .ok () := by simpa [admission_job] using htaken
  have hact : s.moderation.act s.banned.policy (.submit j) =
      some ((s.withItem now (.job j)).moderation, [.pool (.admitted j)]) := by
    simp [Service.State.act, Service.State.submit, Pool.State.enqueue, htaken, withItem]
  exact .moderation hact

/-- The moderation service acts when a verdict is fetched. -/
theorem acts_fetched (s : State) {v : Verdict} {rest : List Verdict}
    (hnext : s.moderation.store.waiting = v :: rest) :
    Acts s (.moderation .pop) (s.withStore rest) [.moderation (.popped v)] := by
  have hact : s.moderation.act s.banned.policy .pop =
      some ((s.withStore rest).moderation, [.popped v]) := by
    simp [Service.State.act, Service.State.pop, Store.pop, hnext, withStore]
  exact .moderation hact

/-- A request is answered. -/
theorem change_respond {now : Timestamp} {r : Http.Request} {response : Response}
    {news : List Note} (h : s.respond now r = (response, t, news)) :
    Change s (.request r now) t (news.map .note ++ [.answered r response]) := by
  cases answers h with
  | rejects | reads | lacks => exact .answer (by simp)
  | fetches route next | discards route next => exact .ask (acts_fetched s next) rfl trivial
  | refuses => exact .answer (by simp)
  | @takes inbox item route read taken =>
    cases item with
    | event e =>
      refine .ask (acts_event s now taken) ?_ trivial
      rw [taking]
      split <;> rfl
    | job j => exact .ask (acts_job s now taken) rfl trivial
    | sample x => exact .answer (List.forall_mem_nil _)

/-- No sink of the server dies of an event. -/
theorem isHarmless_answer (o : Outlet) (delivery : Sink.Delivery) :
    Pipeline.Action.isHarmless (.step (.reply (o.answer delivery)) : Pipeline.Action Outlet) =
      true := by
  cases o with
  | webhook =>
    cases delivery with
    | answered status =>
      simp only [Outlet.answer, Sink.Webhook.reply]
      split <;> rfl
    | _ => rfl
  | _ => rfl

/-- **Inversion.** Every action that is possible is one of the changes. -/
theorem change (h : s.act a = some (t, entries)) : Change s a t entries := by
  cases a with
  | request r now =>
    rcases hrespond : s.respond now r with ⟨response, u, news⟩
    rw [act, hrespond] at h
    obtain ⟨rfl, rfl⟩ := Prod.mk.inj (Option.some.inj h)
    exact change_respond hrespond
  | issue id order =>
    obtain ⟨rfl, rfl⟩ := Prod.mk.inj (Option.some.inj h)
    exact .issue (goes_advance s id order.stages)
  | step x now =>
    simp only [act, bind, Option.bind_eq_some_iff] at h
    obtain ⟨⟨u, news⟩, hstep, h⟩ := h
    obtain ⟨rfl, rfl⟩ := Prod.mk.inj (Option.some.inj h)
    cases x with
    | pull | finish | resume => exact change_stepPipeline rfl hstep
    | answer delivery =>
      simp only [step] at hstep
      split at hstep
      case h_1 => exact change_stepPipeline (isHarmless_answer _ delivery) hstep
      case h_2 => simp at hstep
    | moderation x => exact change_stepModeration hstep

/-- The runs of a server. -/
theorem run_iff {as : List Action} : s.run as = some (t, entries) ↔ Runs act s as t entries := by
  refine Runs.iff_of_eqns (fun _ ↦ rfl) fun s a as ↦ ?_
  rw [run]
  rcases s.act a with - | ⟨t, new⟩
  · rfl
  · cases hrun : t.run as <;> simp [hrun]

end State

end Conveyor.Server
