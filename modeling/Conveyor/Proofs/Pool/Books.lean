import Conveyor.Proofs.Pool.Coupling

/-!
# The books of a pool

What the history of a run says about the jobs and verdicts in the state after it, for every schedule
of the workers. There are three places to keep books, one for each way that something moves:

* `Intake`: an admitted job was taken from the queue, is in it, or was lost with it. Jobs leave the
  queue in the order in which they came.
* `Bench`: a job that a worker took was judged by that worker, or is in its hands. Since a worker
  has one job at a time, this is an equation of lists for every worker by itself.
* `Outlet`: a verdict that was put into the channel was received, was thrown away with the receiving
  end, or is in the channel.

The books are kept for every policy, also for one that kills workers.

What clients were told is read off the answers (`accepted`, `collected`), and which jobs were judged
and which verdicts were put into the channel off the states in which it happened (`judgements`,
`State.pushedBy`), not off the history.
-/

namespace Conveyor.Moderation.Pool

open Time

/-! ### Answers to clients -/

namespace State

/-- The job that was offered and answered with `ok`. -/
def acceptedBy (s : State) : Action → List Job
  | .enqueue j =>
    match (s.enqueue j).1 with
    | .ok () => [j]
    | .error _ => []
  | _ => []

/-- The verdict that the reader got. -/
def collectedBy (s : State) : Action → List Verdict
  | .receive =>
    match s.receive.1 with
    | .verdict v => [v]
    | _ => []
  | _ => []

/-- The jobs that were answered with `ok` in a run, in order. -/
def accepted (s : State) (policy : Policy) (as : List Action) : List Job :=
  collect (act · policy) acceptedBy s as

/-- The verdicts that the reader got in a run, in order. -/
def collected (s : State) (policy : Policy) (as : List Action) : List Verdict :=
  collect (act · policy) collectedBy s as

/-- A call that gets to work is one that is issued, or goes on in a step of its own. -/
theorem eq_of_beginning {s : State} {a : Action} {call : Call} (h : s.beginning? a = some call) :
    a = .issue call ∨ ∃ now, a = .step .resume now := by
  unfold beginning? at h
  split at h
  · simp only [Turns.entering?] at h
    split at h <;> simp_all
  · exact .inr ⟨_, rfl⟩
  · simp at h

end State

section Answers

variable {policy : Policy} {s t : State} {a : Action} {as : List Action} {notes new : List Note}

theorem Change.acceptedBy_eq (h : Change policy s a t new) : s.acceptedBy a = admitted new := by
  cases a with
  | enqueue j => cases h <;> simp_all [State.acceptedBy, State.enqueue, State.beginning?]
  | _ => cases h <;> simp_all [State.acceptedBy]

theorem Change.collectedBy_eq (h : Change policy s a t new) : s.collectedBy a = received new := by
  cases a with
  | receive =>
    cases h with
    | receive taken next => simp [State.collectedBy, State.receive, taken, next]
    | leaveResults nothing =>
      have hempty : s.reader = .taken → s.channel = [] := by simpa using nothing
      rcases hreader : s.reader with - | - | -
      · simp [State.collectedBy, State.receive, hreader]
      · cases hsends : s.sends <;>
          simp [State.collectedBy, State.receive, hreader, hempty hreader, hsends]
      · simp [State.collectedBy, State.receive, hreader]
    | start begun | passBy begun | close begun | discard begun =>
      simp [State.beginning?] at begun
  | _ => cases h <;> simp_all [State.collectedBy]

/-- The answers tell which jobs entered the queue. -/
theorem accepted_eq (hs : s.Coupled) (h : Runs (State.act · policy) s as t notes) :
    s.accepted policy as = admitted notes :=
  h.collect_eq fun run act_eq ↦ ((hs.of_runs run).change act_eq).acceptedBy_eq

/-- The answers tell which verdicts the reader took from the channel. -/
theorem collected_eq (hs : s.Coupled) (h : Runs (State.act · policy) s as t notes) :
    s.collected policy as = received notes :=
  h.collect_eq fun run act_eq ↦ ((hs.of_runs run).change act_eq).collectedBy_eq

end Answers

/-! ### The way through the queue -/

/-- The time at which an action takes a job from the queue. -/
@[simp] def Action.pullTime? : Action → Option Timestamp
  | .step (.pull _) now => some now
  | _ => none

/-- The times at which jobs were taken from the queue, in order. -/
abbrev pullTimes (as : List Action) : List Timestamp := extract Action.pullTime? as

/-- A call that gets to work takes no job. -/
theorem pullTimes_append_of_beginning {s : State} {a : Action} {call : Call}
    (h : s.beginning? a = some call) (as : List Action) : pullTimes (as ++ [a]) = pullTimes as := by
  rcases State.eq_of_beginning h with rfl | ⟨now, rfl⟩ <;> simp

namespace State

/-- The pool was stopped before its start, and never had a crew. -/
def StoppedEarly (s : State) : Prop := s.lifecycle = .stopped ∧ s.crew = []

/-- No job was lost with the queue: the pool was not stopped before its start, and not all its
workers have died. -/
def IsLossless (s : State) : Prop :=
  ¬s.StoppedEarly ∧ (s.crew ≠ [] → ∃ w ∈ s.crew, w ≠ .dead)

/-- As long as a worker is alive, no job was lost. -/
theorem isLossless_of_alive {s : State} {i : Nat} {w : Worker} (h : s.crew[i]? = some w)
    (halive : w.isAlive = true) : s.IsLossless := by
  refine ⟨fun hearly ↦ Coupled.crew_ne_nil h hearly.2, fun _ ↦ ⟨w, List.mem_of_getElem? h, ?_⟩⟩
  rintro rfl
  simp [Worker.isAlive] at halive

/-- As long as jobs are admitted, none was lost. -/
theorem isLossless_of_admission {s : State} (hs : s.Coupled) (htaken : s.admission = .ok ()) :
    s.IsLossless := by
  obtain ⟨-, hreceives, -⟩ := admission_eq_ok_iff.1 htaken
  rcases hlife : s.lifecycle with - | - | -
  · obtain ⟨-, -, -, hcrew⟩ := hs.created hlife
    exact ⟨by simp [StoppedEarly, hlife], fun h ↦ absurd hcrew h⟩
  · obtain ⟨-, hreceiver, -, -⟩ := hs.running hlife
    have hmanned : s.isManned = true := by simpa [receives, hreceiver] using hreceives
    obtain ⟨i, w, hi, halive⟩ := isManned_iff.1 hmanned
    exact isLossless_of_alive hi halive
  · exact absurd htaken (hs.admission_ne_ok hlife)

end State

/-- What became of the admitted jobs: those at the front were taken, those in the middle are in the
queue, and those at the end were lost. -/
structure Intake (as : List Action) (s : State) (notes : List Note) (front lost : List Job) :
    Prop where
  /-- The jobs are in the order of admission. -/
  admitted : admitted notes = front ++ s.queue ++ lost
  /-- Each job at the front was taken in an action. -/
  times : front.length = (pullTimes as).length
  /-- The worker gave the job the time of that action if it had none. -/
  pulled : (pulled notes).map Prod.snd = List.zipWith Job.stamp front (pullTimes as)
  /-- Jobs are lost with the queue only. -/
  lossless : s.IsLossless → lost = []

namespace Intake

variable {policy : Policy} {s t : State} {a : Action} {as : List Action} {notes new : List Note}
  {front lost : List Job}

/-- An action that takes no job and adds none, but may lose jobs at the end of the queue. -/
theorem of_loss (h : Intake as s notes front lost) (ha : pullTimes (as ++ [a]) = pullTimes as)
    {gone : List Job} (hqueue : s.queue = t.queue ++ gone)
    (hlossless : t.IsLossless → s.IsLossless ∧ gone = [])
    (hnew : Pool.admitted new = [] ∧ Pool.pulled new = []) :
    Intake (as ++ [a]) t (notes ++ new) front (gone ++ lost) where
  admitted := by
    have hadmitted := h.admitted
    rw [hqueue] at hadmitted
    simpa [hnew.1] using hadmitted
  times := by rw [ha, h.times]
  pulled := by
    rw [ha]
    simpa [hnew.2] using h.pulled
  lossless ht := by
    obtain ⟨hs, hgone⟩ := hlossless ht
    simp [h.lossless hs, hgone]

/-- An action that leaves the queue as it is. -/
theorem of_quiet (h : Intake as s notes front lost) (ha : pullTimes (as ++ [a]) = pullTimes as)
    (hqueue : t.queue = s.queue) (hlossless : t.IsLossless → s.IsLossless)
    (hnew : Pool.admitted new = [] ∧ Pool.pulled new = []) :
    Intake (as ++ [a]) t (notes ++ new) front lost :=
  h.of_loss ha (by rw [hqueue, List.append_nil]) (fun ht ↦ ⟨hlossless ht, rfl⟩) hnew

/-- Every action keeps the books on the queue. -/
theorem of_change (hs : s.Coupled) (h : Intake as s notes front lost)
    (hchange : Change policy s a t new) :
    ∃ front lost, Intake (as ++ [a]) t (notes ++ new) front lost := by
  cases hchange with
  | @accept j taken =>
    refine ⟨front, lost, ?_⟩
    have hlost := h.lossless (State.isLossless_of_admission hs taken)
    exact {
      admitted := by simp [h.admitted, hlost]
      times := by simpa using h.times
      pulled := by simpa using h.pulled
      lossless := fun _ ↦ hlost }
  | leaveResults nothing =>
    have ha : pullTimes (as ++ [a]) = pullTimes as := by
      rcases nothing with ⟨rfl, -⟩ | ⟨rfl, -⟩ | ⟨rfl, -⟩ <;> simp
    exact ⟨_, _, h.of_quiet ha rfl id (by simp)⟩
  | start begun request created =>
    obtain ⟨-, -, -, hcrew⟩ := hs.created created
    refine ⟨_, _, h.of_quiet (pullTimes_append_of_beginning begun as) rfl (fun _ ↦ ?_) (by simp)⟩
    exact ⟨by simp [State.StoppedEarly, created], fun hne ↦ absurd hcrew hne⟩
  | passBy begun nothing =>
    exact ⟨_, _, h.of_quiet (pullTimes_append_of_beginning begun as) rfl id (by simp)⟩
  | close begun request running =>
    refine ⟨_, _, h.of_quiet (pullTimes_append_of_beginning begun as) rfl
      (fun ht ↦ ⟨?_, ht.2⟩) (by simp)⟩
    simp [State.StoppedEarly, running]
  | discard begun request created =>
    obtain ⟨-, -, -, hcrew⟩ := hs.created created
    refine ⟨_, _, h.of_loss (pullTimes_append_of_beginning begun as) (List.nil_append _).symm
      (fun ht ↦ ?_) (by simp)⟩
    exact absurd ⟨rfl, hcrew⟩ ht.1
  | arrive arriving =>
    exact ⟨_, _, h.of_quiet (by simp) rfl
      (fun _ ↦ State.isLossless_of_alive arriving rfl) (by simp)⟩
  | @pull i now j line queue first next =>
    have hlost := h.lossless (State.isLossless_of_alive (hs.inLine_of_first first) rfl)
    refine ⟨front ++ [j], lost, ?_⟩
    exact {
      admitted := by simp [h.admitted, next]
      times := by simp [h.times]
      pulled := by simp [h.pulled, List.zipWith_append h.times]
      lossless := fun _ ↦ hlost }
  | offer busy | drop busy | die busy =>
    exact ⟨_, _, h.of_quiet (by simp) rfl (fun _ ↦ State.isLossless_of_alive busy rfl) (by simp)⟩
  | @dieLast i _ j busy judged unmanned =>
    refine ⟨_, _, h.of_loss (by simp) (List.nil_append _).symm
      (fun ht ↦ ⟨State.isLossless_of_alive busy rfl, ?_⟩) (by simp)⟩
    -- Someone else has not died, and so has left.
    have hcrew : (s.setWorker i .dead).crew ≠ [] := by
      simpa [State.setWorker] using State.Coupled.crew_ne_nil busy
    obtain ⟨w, hw, hne⟩ := ht.2 hcrew
    have hover : w.isAlive = false := by
      simp only [State.isManned, List.any_eq_false] at unmanned
      simpa using unmanned w hw
    have hleft : w = .left := by cases w <;> simp_all [Worker.isAlive]
    exact (hs.left_of_setWorker (by simp) (hleft ▸ hw)).2
  | leave first =>
    exact ⟨_, _, h.of_quiet (by simp) rfl
      (fun _ ↦ State.isLossless_of_alive (hs.inLine_of_first first) rfl) (by simp)⟩
  | _ => exact ⟨_, _, h.of_quiet (by simp) rfl id (by simp)⟩

/-- The books on the queue after a run. -/
theorem of_runs (hs : s.Coupled) (hquiet : s.queue = [])
    (h : Runs (State.act · policy) s as t notes) : ∃ front lost, Intake as t notes front lost := by
  refine hs.runs_induction h (motive := fun as t notes ↦ ∃ front lost, Intake as t notes front lost)
    ⟨[], [], ?_⟩ ?_
  · exact { admitted := by simp [hquiet], times := rfl, pulled := rfl, lossless := fun _ ↦ rfl }
  · rintro as t notes a u new ht hchange ⟨front, lost, ih⟩
    exact ih.of_change ht hchange

/-- The jobs that were taken are those that were admitted, each with the time of its action. -/
theorem pulled_eq (h : Intake as s notes front lost) :
    (Pool.pulled notes).map Prod.snd =
      List.zipWith Job.stamp (Pool.admitted notes) (pullTimes as) := by
  have hzip : List.zipWith Job.stamp (front ++ (s.queue ++ lost)) (pullTimes as ++ []) =
      List.zipWith Job.stamp front (pullTimes as) := by
    rw [List.zipWith_append h.times, List.zipWith_nil_right, List.append_nil]
  rw [h.pulled, h.admitted, List.append_assoc, ← hzip, List.append_nil]

end Intake

/-! ### Judging -/

/-- A worker judges a job at a time. -/
structure Judgement where
  /-- The place of the worker in the crew. -/
  worker : Nat
  /-- The job. -/
  job : Job
  /-- When the job is judged. -/
  time : Timestamp
  deriving DecidableEq

namespace Judgement

/-- The job that is judged, with the worker. -/
def taken (g : Judgement) : Nat × Job := (g.worker, g.job)

/-- How judging goes by a policy, with the worker. -/
def outcome (policy : Policy) (g : Judgement) : Nat × Option Verdict :=
  (g.worker, policy g.time g.job)

end Judgement

/-- What belongs to the worker at place `i`, in order. -/
def ofWorker {α : Type} (i : Nat) (xs : List (Nat × α)) : List α :=
  xs.filterMap fun (k, x) ↦ if k = i then some x else none

section OfWorker

variable {α : Type} (i : Nat)

@[simp] theorem ofWorker_nil : ofWorker i ([] : List (Nat × α)) = [] := rfl

@[simp] theorem ofWorker_append (xs ys : List (Nat × α)) :
    ofWorker i (xs ++ ys) = ofWorker i xs ++ ofWorker i ys :=
  List.filterMap_append

@[simp] theorem ofWorker_singleton (k : Nat) (x : α) :
    ofWorker i [(k, x)] = if k = i then [x] else [] := by
  by_cases hk : k = i <;> simp [ofWorker, hk]

end OfWorker

/-- The job in the hands of a worker. -/
def Worker.job? : Worker → Option Job
  | busy j => some j
  | _ => none

namespace State

/-- The job in the hands of the worker at place `i`. -/
def inHand (s : State) (i : Nat) : Option Job := s.crew[i]?.bind Worker.job?

/-- Which job is judged in an action. -/
def judgedBy (s : State) : Action → List Judgement
  | .step (.judge i) now => (s.inHand i).toList.map (⟨i, ·, now⟩)
  | _ => []

/-- The jobs that were judged in a run, in order. -/
def judgements (s : State) (policy : Policy) (as : List Action) : List Judgement :=
  collect (act · policy) judgedBy s as

theorem inHand_eq {s : State} {i : Nat} {w : Worker} (h : s.crew[i]? = some w) :
    s.inHand i = w.job? := by
  simp [inHand, h]

theorem inHand_setWorker {s : State} {i : Nat} {old : Worker} (h : s.crew[i]? = some old)
    (w : Worker) (k : Nat) :
    (s.setWorker i w).inHand k = if i = k then w.job? else s.inHand k := by
  rw [inHand, getElem?_setWorker h]
  split <;> rfl

/-- A worker that had nothing in its hands and has nothing leaves all hands as they are. -/
theorem inHand_setWorker_of_idle {s : State} {i : Nat} {old w : Worker} (h : s.crew[i]? = some old)
    (hold : old.job? = none) (hw : w.job? = none) (k : Nat) :
    (s.setWorker i w).inHand k = s.inHand k := by
  rw [inHand_setWorker h]
  split
  case isTrue hk => rw [← hk, inHand_eq h, hold, hw]
  case isFalse => rfl

theorem judgedBy_of_beginning {s : State} {a : Action} {call : Call}
    (h : s.beginning? a = some call) : s.judgedBy a = [] := by
  rcases eq_of_beginning h with rfl | ⟨now, rfl⟩ <;> rfl

end State

/-- What became of the jobs that were taken. -/
structure Bench (policy : Policy) (judged : List Judgement) (s : State) (notes : List Note) :
    Prop where
  /-- Each worker has judged the jobs it took, but for the one in its hands. -/
  taken : ∀ i, ofWorker i (pulled notes) =
    ofWorker i (judged.map Judgement.taken) ++ (s.inHand i).toList
  /-- Each job was judged by the policy. -/
  outcomes : outcomes notes = judged.map (Judgement.outcome policy)

namespace Bench

variable {policy : Policy} {s t : State} {a : Action} {as : List Action} {notes new : List Note}
  {judged : List Judgement}

/-- An action in which no job is taken and none is judged. -/
theorem of_quiet (h : Bench policy judged s notes) (ha : s.judgedBy a = [])
    (hhand : ∀ i, t.inHand i = s.inHand i)
    (hnew : pulled new = [] ∧ Pool.outcomes new = []) :
    Bench policy (judged ++ s.judgedBy a) t (notes ++ new) where
  taken i := by simpa [ha, hhand, hnew.1] using h.taken i
  outcomes := by simpa [ha, hnew.2] using h.outcomes

/-- A worker judges its job, and has nothing in its hands then. -/
theorem of_judge (h : Bench policy judged s notes) {i : Nat} {now : Timestamp} {j : Job}
    {w : Worker} (busy : s.crew[i]? = some (.busy j)) (hw : w.job? = none)
    (ht : t.crew = (s.setWorker i w).crew)
    (hnew : pulled new = [] ∧ Pool.outcomes new = [(i, policy now j)]) :
    Bench policy (judged ++ s.judgedBy (.step (.judge i) now)) t (notes ++ new) := by
  have hjudged : s.judgedBy (.step (.judge i) now) = [⟨i, j, now⟩] := by
    simp [State.judgedBy, State.inHand_eq busy, Worker.job?]
  have hhand (k : Nat) : t.inHand k = if i = k then none else s.inHand k := by
    rw [← hw, ← State.inHand_setWorker busy, State.inHand, ht, State.inHand]
  constructor
  · intro k
    have hpulled : pulled (notes ++ new) = pulled notes := by simp [hnew.1]
    rw [hjudged, hpulled, h.taken k, hhand]
    by_cases hk : i = k
    · subst hk
      simp [Judgement.taken, State.inHand_eq busy, Worker.job?]
    · simp [Judgement.taken, hk]
  · rw [hjudged]
    simp [hnew.2, h.outcomes, Judgement.outcome]

/-- Every action keeps the books on the workers. -/
theorem of_change (hs : s.Coupled) (h : Bench policy judged s notes)
    (hchange : Change policy s a t new) :
    Bench policy (judged ++ s.judgedBy a) t (notes ++ new) := by
  cases hchange with
  | leaveResults nothing =>
    have ha : s.judgedBy a = [] := by
      rcases nothing with ⟨rfl, -⟩ | ⟨rfl, -⟩ | ⟨rfl, -⟩ <;> rfl
    exact h.of_quiet ha (fun _ ↦ rfl) (by simp)
  | start begun request created =>
    obtain ⟨-, -, -, hcrew⟩ := hs.created created
    refine h.of_quiet (State.judgedBy_of_beginning begun) (fun i ↦ ?_) (by simp)
    simp only [State.inHand, hcrew, List.getElem?_replicate]
    split <;> rfl
  | passBy begun | close begun | discard begun =>
    exact h.of_quiet (State.judgedBy_of_beginning begun) (fun _ ↦ rfl) (by simp)
  | arrive arriving =>
    exact h.of_quiet rfl (State.inHand_setWorker_of_idle arriving rfl rfl) (by simp)
  | @pull i now j line queue first next =>
    have hinLine := hs.inLine_of_first first
    constructor
    · intro k
      have hpulled : pulled (notes ++ [.pulled i (j.stamp now)]) =
          pulled notes ++ [(i, j.stamp now)] := by simp
      have hhand : State.inHand { s.setWorker i (.busy (j.stamp now)) with line, queue } k =
          if i = k then some (j.stamp now) else s.inHand k := State.inHand_setWorker hinLine _ k
      rw [hhand, hpulled, ofWorker_append, h.taken k]
      by_cases hk : i = k
      · subst hk
        simp [State.judgedBy, State.inHand_eq hinLine, Worker.job?]
      · simp [State.judgedBy, hk]
    · simpa [State.judgedBy] using h.outcomes
  | offer busy judged | drop busy judged | die busy judged | dieLast busy judged =>
    exact h.of_judge busy rfl rfl (by simp [judged])
  | leave first =>
    exact h.of_quiet rfl (State.inHand_setWorker_of_idle (hs.inLine_of_first first) rfl rfl)
      (by simp)
  | _ => exact h.of_quiet rfl (fun _ ↦ rfl) (by simp)

/-- The books on the workers after a run. -/
theorem of_runs (hs : s.Coupled) (hidle : ∀ i, s.inHand i = none)
    (h : Runs (State.act · policy) s as t notes) :
    Bench policy (s.judgements policy as) t notes := by
  induction h with
  | refl => exact { taken := fun i ↦ by simp [State.judgements, collect, hidle i], outcomes := rfl }
  | tail run act_eq ih =>
    have ht := hs.of_runs run
    rw [State.judgements, run.collect_concat]
    exact ih.of_change ht (ht.change act_eq)

end Bench

/-! ### The way through the channel -/

/-- The verdict that a worker puts into the channel in an action. -/
def State.pushedBy (s : State) (policy : Policy) : Action → List Verdict
  | .step (.judge i) now =>
    match (s.inHand i).bind (policy now) with
    | some v => if s.reader ≠ .gone ∧ s.channel.length < s.capacity then [v] else []
    | none => []
  | _ => []

theorem Change.pushedBy_eq {policy : Policy} {s t : State} {a : Action} {new : List Note}
    (h : Change policy s a t new) : s.pushedBy policy a = kept new := by
  cases h with
  | offer busy judged readable room =>
    simp [State.pushedBy, State.inHand_eq busy, Worker.job?, judged, readable, room]
  | @drop i now j v why busy judged rejects =>
    have hfull : ¬(s.reader ≠ .gone ∧ s.channel.length < s.capacity) := by
      rintro ⟨hreadable, hroom⟩
      cases why with
      | full => exact absurd hroom (Nat.not_lt.2 rejects.2)
      | closed => exact hreadable rejects
    simp [State.pushedBy, State.inHand_eq busy, Worker.job?, judged, if_neg hfull]
  | die busy judged | dieLast busy judged =>
    simp [State.pushedBy, State.inHand_eq busy, Worker.job?, judged]
  | leaveResults nothing => rcases nothing with ⟨rfl, -⟩ | ⟨rfl, -⟩ | ⟨rfl, -⟩ <;> rfl
  | start begun | passBy begun | close begun | discard begun =>
    rcases State.eq_of_beginning begun with rfl | ⟨now, rfl⟩ <;> simp [State.pushedBy]
  | _ => simp [State.pushedBy]

/-- What became of the verdicts that were put into the channel. -/
structure Outlet (s : State) (notes : List Note) : Prop where
  /-- Verdicts are received in the order in which they were put into the channel. -/
  kept : kept notes = received notes ++ thrown notes ++ s.channel
  /-- Verdicts are thrown away with the receiving end. -/
  thrown : s.reader ≠ .gone → thrown notes = []
  /-- Verdicts are received by the reader only. -/
  received : s.reader = .untaken → received notes = []

namespace Outlet

variable {policy : Policy} {s t : State} {a : Action} {as : List Action} {notes new : List Note}

/-- An action that leaves the channel as it is. -/
theorem of_quiet (h : Outlet s notes) (hchannel : t.channel = s.channel)
    (hgone : s.reader = .gone → t.reader = .gone)
    (huntaken : t.reader = .untaken → s.reader = .untaken)
    (hnew : Pool.kept new = [] ∧ Pool.received new = [] ∧ Pool.thrown new = []) :
    Outlet t (notes ++ new) := by
  obtain ⟨hkept, hreceived, hthrown⟩ := hnew
  constructor
  · rw [hchannel]
    simpa [hkept, hreceived, hthrown] using h.kept
  · intro ht
    simpa [hthrown] using h.thrown (mt hgone ht)
  · intro ht
    simpa [hreceived] using h.received (huntaken ht)

/-- Every action keeps the books on the channel. -/
theorem of_change (h : Outlet s notes) (hchange : Change policy s a t new) :
    Outlet t (notes ++ new) := by
  cases hchange with
  | takeResults untaken =>
    exact h.of_quiet rfl (by simp [untaken]) (by simp) (by simp)
  | @receive v channel taken next =>
    have hthrown := h.thrown (by simp [taken])
    exact {
      kept := by simp [h.kept, hthrown, next]
      thrown := fun _ ↦ by simpa using hthrown
      received := by simp [taken] }
  | throwAway taken =>
    have hthrown := h.thrown (by simp [taken])
    exact {
      kept := by simp [h.kept, hthrown]
      thrown := fun hgone ↦ absurd rfl hgone
      received := by simp }
  | offer busy judged readable room =>
    exact {
      kept := by simp [h.kept]
      thrown := fun hgone ↦ by simpa using h.thrown hgone
      received := fun huntaken ↦ by simpa using h.received huntaken }
  | _ => exact h.of_quiet rfl id id (by simp)

/-- The books on the channel after a run. -/
theorem of_runs (hs : s.Coupled) (hempty : s.channel = [])
    (h : Runs (State.act · policy) s as t notes) : Outlet t notes := by
  refine hs.runs_induction h (motive := fun _ t notes ↦ Outlet t notes) ?_ ?_
  · exact { kept := by simp [hempty], thrown := fun _ ↦ rfl, received := fun _ ↦ rfl }
  · intro as t notes a u new ht hchange ih
    exact ih.of_change hchange

end Outlet

end Conveyor.Moderation.Pool
