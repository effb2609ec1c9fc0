import Conveyor.Proofs.Pool.Calls
import Conveyor.Proofs.Pool.Conservation

/-!
# The barrier of a stop

No call of `stop` returns before every worker has ended and the channel of verdicts is closed,
whichever of several calls it is, and whether workers die or not. The main statement is
`barrier_of_returned`.

## What rests on what

A call of `stop` returns only when nobody has a sending end of the channel (`Change.of_returned`).
From there on the channel is only read (`OnlyRead`): nobody takes a job, nobody offers a verdict,
and whoever has the receiving end gets the verdicts that are in there, in order, and after them the
answer that the channel is closed (`Drained`).

A worker that has not died has left, and it leaves only when the queue is closed and empty. So one
survivor is enough for every accepted job to be taken (`Muster`, `Intake.lossless`).
-/

namespace Conveyor.Moderation.Pool

open Time

/-- The calls with this number are calls of `stop`. -/
def IsStop (as : List Action) (id : Nat) : Prop :=
  ∀ call, .issue call ∈ as → call.id = id → call.request = .stop

instance (as : List Action) (id : Nat) : Decidable (IsStop as id) :=
  decidable_of_iff (∀ call ∈ extract Action.call? as, call.id = id → call.request = .stop)
    (forall_congr' fun _ ↦ imp_congr_left (mem_extract_iff Action.call?_eq_some_iff))

variable {policy : Policy} {s t : State} {a : Action} {as : List Action} {notes new : List Note}

/-! ### The crew -/

/-- What the history of a run says about the crew. -/
structure Muster (s : State) (notes : List Note) : Prop where
  /-- A pool that was started has all its workers. -/
  started : .started ∈ notes → s.crew.length = s.workers
  /-- Whoever is dead died of a job. -/
  dead : ∀ i, s.crew[i]? = some .dead → ∃ j, .died i j ∈ notes

namespace Muster

/-- An action that leaves the crew as it is, and starts nobody. -/
theorem of_quiet (h : Muster s notes) (hcrew : t.crew = s.crew) (hworkers : t.workers = s.workers)
    (hnew : .started ∉ new) : Muster t (notes ++ new) where
  started hstarted := by
    rw [hcrew, hworkers]
    exact h.started ((List.mem_append.1 hstarted).resolve_right hnew)
  dead i hi := by
    obtain ⟨j, hj⟩ := h.dead i (hcrew ▸ hi)
    exact ⟨j, List.mem_append_left _ hj⟩

/-- One worker changes, and if it is dead then, it died in the action. -/
theorem of_setWorker (h : Muster s notes) {i : Nat} {old w : Worker}
    (hold : s.crew[i]? = some old) (hcrew : t.crew = (s.setWorker i w).crew)
    (hworkers : t.workers = s.workers) (hnew : .started ∉ new)
    (hdead : w = .dead → ∃ j, .died i j ∈ new) : Muster t (notes ++ new) where
  started hstarted := by
    rw [hcrew, hworkers, ← h.started ((List.mem_append.1 hstarted).resolve_right hnew)]
    simp [State.setWorker]
  dead k hk := by
    rw [hcrew, State.getElem?_setWorker hold] at hk
    split at hk
    case isTrue hik =>
      obtain ⟨j, hj⟩ := hdead (Option.some.inj hk)
      exact ⟨j, List.mem_append_right _ (hik ▸ hj)⟩
    case isFalse =>
      obtain ⟨j, hj⟩ := h.dead k hk
      exact ⟨j, List.mem_append_left _ hj⟩

/-- Every action keeps account of the crew. -/
theorem of_change (hs : s.Coupled) (h : Muster s notes) (hchange : Change policy s a t new) :
    Muster t (notes ++ new) := by
  cases hchange with
  | start =>
    exact {
      started := fun _ ↦ List.length_replicate
      dead := fun i hi ↦ by simp [List.getElem?_replicate] at hi }
  | arrive arriving => exact h.of_setWorker arriving rfl rfl (by simp) (by simp)
  | pull first => exact h.of_setWorker (hs.inLine_of_first first) rfl rfl (by simp) (by simp)
  | leave first => exact h.of_setWorker (hs.inLine_of_first first) rfl rfl (by simp) (by simp)
  | offer busy | drop busy => exact h.of_setWorker busy rfl rfl (by simp) (by simp)
  | die busy | dieLast busy => exact h.of_setWorker busy rfl rfl (by simp) (by simp)
  | _ => exact h.of_quiet rfl rfl (by simp)

/-- The account of the crew after a run. -/
theorem of_runs (hs : s.Coupled) (hcrew : s.crew = [])
    (h : Runs (State.act · policy) s as t notes) : Muster t notes := by
  refine hs.runs_induction h (motive := fun _ t notes ↦ Muster t notes) ?_ ?_
  · exact { started := by simp, dead := by simp [hcrew] }
  · intro as t notes a u new ht hchange ih
    exact ih.of_change ht hchange

/-- A worker that did not die of a job and is not alive has left, so the queue is empty. -/
theorem queue_eq_nil (hs : s.Coupled) (h : Muster s notes) (hclosed : s.sends = false)
    (hstarted : .started ∈ notes) {i : Nat} (hi : i < s.workers)
    (hsurvivor : ∀ j, .died i j ∉ notes) : s.queue = [] ∧ s.IsLossless := by
  have hlt : i < s.crew.length := by rwa [h.started hstarted]
  have hw : s.crew[i]? = some s.crew[i] := List.getElem?_eq_getElem hlt
  have hover : s.crew[i].isAlive = false :=
    State.not_alive_of_closed hclosed (List.getElem_mem hlt)
  have hlived : s.crew[i] ≠ .dead := by
    intro hdead
    obtain ⟨j, hj⟩ := h.dead i (hdead ▸ hw)
    exact hsurvivor j hj
  have hleft : s.crew[i] = .left := by
    cases hworker : s.crew[i] <;> simp_all [Worker.isAlive]
  have hmem : s.crew[i] ∈ s.crew := List.getElem_mem hlt
  refine ⟨(hs.left (hleft ▸ hmem)).2, fun hearly ↦ ?_, fun _ ↦ ⟨_, hmem, hlived⟩⟩
  exact State.Coupled.crew_ne_nil hw hearly.2

end Muster

/-! ### Reading from a closed channel -/

namespace State

/-- What a read gives to whoever has the receiving end of the channel. -/
def receiptBy (s : State) : Action → List Receipt
  | .receive => if s.reader = .taken then [s.receive.1] else []
  | _ => []

/-- What reads gave in a run to whoever had the receiving end of the channel, in order. -/
def receipts (s : State) (policy : Policy) (as : List Action) : List Receipt :=
  collect (act · policy) receiptBy s as

end State

/-- What `n` reads of a closed channel with these verdicts give: the verdicts in order, and then the
answer that the channel is closed. -/
def closedReceipts (vs : List Verdict) (n : Nat) : List Receipt :=
  (vs.map Receipt.verdict ++ List.replicate n Receipt.closed).take n

/-- The reads of a closed channel so far gave verdicts, and after all of them nothing but the answer
that the channel is closed. -/
def Drained (s : State) (got : List Receipt) (notes : List Note) : Prop :=
  ∃ vain, got = (received notes).map .verdict ++ List.replicate vain .closed ∧
    (vain ≠ 0 → received notes = s.channel)

namespace Drained

/-- An action in which nothing is read. -/
theorem of_quiet {got : List Receipt} (h : Drained s got notes) (hnew : received new = []) :
    Drained s got (notes ++ new) := by
  obtain ⟨vain, hgot, hvain⟩ := h
  have hreceived : received (notes ++ new) = received notes := by simp [hnew]
  exact ⟨vain, by rw [hreceived, hgot], by rwa [hreceived]⟩

/-- Every action keeps account of what was read. -/
theorem of_change {got : List Receipt} {u : State} (h : Drained s got notes)
    (hread : OnlyRead s t notes) (hchange : Change policy t a u new) :
    Drained s (got ++ t.receiptBy a) (notes ++ new) := by
  have hnew : received new = t.collectedBy a := hchange.collectedBy_eq.symm
  cases a with
  | receive =>
    rcases hreader : t.reader with - | - | -
    case taken =>
      obtain ⟨vain, hgot, hvain⟩ := h
      have hchannel := hread.channel
      rcases hleft : t.channel with - | ⟨v, channel⟩
      · have hreceipt : t.receiptBy .receive = [.closed] := by
          simp [State.receiptBy, State.receive, hreader, hleft, hread.closed]
        have hnone : received new = [] := by
          simp [hnew, State.collectedBy, State.receive, hreader, hleft, hread.closed]
        have hall : received notes = s.channel := by
          rcases hread.thrown with hkept | ⟨hgone, -⟩
          · simpa [hkept, hleft] using hchannel.symm
          · simp [hreader] at hgone
        have hreceived : received (notes ++ new) = received notes := by simp [hnone]
        refine ⟨vain + 1, ?_, fun _ ↦ by rw [hreceived, hall]⟩
        rw [hreceipt, hgot, hreceived, List.replicate_succ', List.append_assoc]
      · have hreceipt : t.receiptBy .receive = [.verdict v] := by
          simp [State.receiptBy, State.receive, hreader, hleft]
        have hone : received new = [v] := by
          simp [hnew, State.collectedBy, State.receive, hreader, hleft]
        -- A verdict was left, so no read was in vain before.
        have hnone : vain = 0 := by
          rcases Nat.eq_zero_or_pos vain with hnone | hpos
          · exact hnone
          · simp [hvain (Nat.ne_of_gt hpos), hleft] at hchannel
        refine ⟨0, ?_, by simp⟩
        rw [hreceipt, hgot, hnone]
        simp [hone]
    all_goals
      have hreceipt : t.receiptBy .receive = [] := by simp [State.receiptBy, hreader]
      rw [hreceipt, List.append_nil]
      exact h.of_quiet (by simp [hnew, State.collectedBy, State.receive, hreader])
  | _ => simpa [State.receiptBy] using h.of_quiet hnew

/-- What was read in a run from a channel that was closed before. -/
theorem of_runs (hs : s.Coupled) (hclosed : s.sends = false)
    (h : Runs (State.act · policy) s as t notes) : Drained s (s.receipts policy as) notes := by
  induction h with
  | refl => exact ⟨0, rfl, by simp⟩
  | tail run act_eq ih =>
    rw [State.receipts, run.collect_concat]
    exact ih.of_change (hs.onlyRead_of_runs run hclosed) ((hs.of_runs run).change act_eq)

/-- What is read from a closed channel is what is in there, in order, and then nothing. -/
theorem eq_closedReceipts {got : List Receipt} (h : Drained s got notes)
    (hread : OnlyRead s t notes) : got = closedReceipts s.channel got.length := by
  obtain ⟨vain, rfl, hvain⟩ := h
  have hchannel := hread.channel
  rcases Nat.eq_zero_or_pos vain with rfl | hpos
  · rw [List.append_assoc] at hchannel
    simp [closedReceipts, hchannel]
  · have hall : received notes = s.channel := hvain (Nat.ne_of_gt hpos)
    have hwhole : (s.channel.map Receipt.verdict).take (s.channel.length + vain) =
        s.channel.map Receipt.verdict := List.take_of_length_le (by simp)
    rw [hall]
    simp [closedReceipts, List.take_append, hwhole]

end Drained

/-! ### The statement -/

/-- What is so of the pool `s` when a call of `stop` has returned, after the run `before` of the
pool `start` with the history `past`. What comes after it is the run `after` to `u` with the history
`later`. -/
structure Barrier (policy : Policy) (start : State) (before : List Action) (s : State)
    (past : List Note) (after : List Action) (u : State) (later : List Note) : Prop where
  /-- The pool is stopped. -/
  stopped : s.lifecycle = .stopped
  /-- A pool that was started has all its workers in the crew. -/
  crewed : .started ∈ past → s.crew.length = s.workers
  /-- Every worker that was set to work has ended. -/
  ended : ∀ w ∈ s.crew, w.isAlive = false
  /-- No worker is set to work any more. -/
  crew : u.crew = s.crew
  /-- No job is in the hands of a worker. -/
  idle : ∀ i, s.inHand i = none
  /-- No job is taken any more. -/
  pulled : pulled later = []
  /-- The channel is closed. -/
  closed : s.sends = false
  /-- No worker judges a job and offers a verdict any more. -/
  outcomes : outcomes later = []
  /-- Whoever has the receiving end gets the verdicts that are in the channel, in order, and then
  the answer that it is closed. -/
  receipts : s.receipts policy after =
    closedReceipts s.channel (s.receipts policy after).length
  /-- In a pool that was started and one of whose workers has not died, nothing is left in the
  queue, and every accepted job was taken, in order. -/
  taken : .started ∈ past → (∃ i < s.workers, ∀ j, .died i j ∉ past) →
    s.queue = [] ∧
      (Pool.pulled past).map Prod.snd =
        List.zipWith Job.stamp (start.accepted policy before) (pullTimes before) ∧
      (Pool.pulled past).length = (start.accepted policy before).length

section Statement

variable {workers capacity : Nat} {before after : List Action} {u : State}
  {past now later : List Note}

/-- **Barrier.** In a run of a new pool with any policy, look at an action `a` and at all that is
done before and after it. If a call of `stop` returns in it, every worker has ended, nobody takes a
job any more and the channel is closed. From the time at which the pool gives its own end of the
channel up no verdict is offered. -/
theorem barrier_of_returned
    (hbefore : (State.new workers capacity).run policy before = some (s, past))
    (hact : s.act policy a = some (t, now)) (hafter : t.run policy after = some (u, later)) :
    (∀ id, IsStop (before ++ [a]) id → .returned id ∈ now →
      Barrier policy (.new workers capacity) (before ++ [a]) t (past ++ now) after u later) ∧
    (t.outlet = false → outcomes later = []) := by
  have hnew : (State.new workers capacity).Coupled := .of_new workers capacity
  have hpast := State.run_iff.1 hbefore
  have hlater := State.run_iff.1 hafter
  have hs : s.Coupled := hnew.of_runs hpast
  have hchange : Change policy s a t now := hs.change hact
  have ht : t.Coupled := hs.of_change hchange
  have hruns : Runs (State.act · policy) (State.new workers capacity) (before ++ [a]) t
      (past ++ now) := hpast.tail hact
  constructor
  · intro id hid hreturned
    obtain ⟨call, hcallid, hissued, hstopped⟩ := hchange.of_returned hs hreturned
    have hrequest : call.request = .stop := by
      refine hid call ?_ hcallid
      rcases hissued with rfl | hcall
      · simp
      · exact List.mem_append_left _ (issue_mem_of_mem_calls hnew rfl hpast call hcall)
    obtain ⟨hlife, hclosed⟩ := hstopped hrequest
    have hread : OnlyRead t u later := ht.onlyRead_of_runs hlater hclosed
    have hmuster : Muster t (past ++ now) := .of_runs hnew rfl hruns
    exact {
      stopped := hlife
      crewed := hmuster.started
      ended := fun w hw ↦ State.not_alive_of_closed hclosed hw
      crew := hread.crew
      idle := fun i ↦ by
        rcases hi : t.crew[i]? with - | w
        · simp [State.inHand, hi]
        · have hover := State.not_alive_of_closed hclosed (List.mem_of_getElem? hi)
          rw [State.inHand_eq hi]
          cases w <;> simp_all [Worker.isAlive, Worker.job?]
      pulled := hread.pulled
      closed := hclosed
      outcomes := hread.outcomes
      receipts := (Drained.of_runs ht hclosed hlater).eq_closedReceipts hread
      taken := fun hstarted hsurvivor ↦ by
        obtain ⟨i, hi, hlived⟩ := hsurvivor
        obtain ⟨hqueue, hlossless⟩ := hmuster.queue_eq_nil ht hclosed hstarted hi hlived
        obtain ⟨front, lost, hintake⟩ := Intake.of_runs hnew rfl hruns
        have hjobs : (State.new workers capacity).accepted policy (before ++ [a]) = front := by
          rw [accepted_eq hnew hruns, hintake.admitted, hqueue, hintake.lossless hlossless]
          simp
        have hpulled := congrArg List.length hintake.pulled
        rw [List.length_map, List.length_zipWith, hintake.times, Nat.min_self,
          ← hintake.times] at hpulled
        exact ⟨hqueue, hjobs ▸ hintake.pulled, by rw [hjobs, hpulled]⟩ }
  · intro houtlet
    have hclosed : t.sends = false := by simp [State.sends, houtlet, (ht.outlet houtlet).2]
    exact (ht.onlyRead_of_runs hlater hclosed).outcomes

end Statement

/-- The policy that dies of the job `b`, and approves of everything else. -/
def sampleFatalPolicy : Policy := fun now job ↦
  if job.contentId = "b" then none else samplePolicy now job

/-- Two calls of `stop` while a worker is busy and the other one has died; the second one has got
the lock at last. -/
def sampleStops : List Action :=
  [.enqueue (sampleJob "a"), .enqueue (sampleJob "b"), .takeResults, .issue ⟨0, .start⟩,
    .step (.arrive 0) .epoch, .step (.arrive 1) .epoch, .step (.pull 0) .epoch,
    .step (.pull 1) .epoch, .step (.judge 1) .epoch, .enqueue (sampleJob "c"), .issue ⟨1, .stop⟩,
    .issue ⟨2, .stop⟩, .step (.judge 0) .epoch, .step (.arrive 0) .epoch, .step (.pull 0) .epoch,
    .step (.judge 0) .epoch, .step (.arrive 0) .epoch, .step (.leave 0) .epoch,
    .step .resume .epoch, .step .resume .epoch, .step .resume .epoch]

/-- Reads after the calls, and things that come too late. -/
def sampleReads : List Action :=
  [.receive, .enqueue (sampleJob "d"), .issue ⟨3, .start⟩, .receive, .receive]

theorem barrier_of_returned_sample : ∃ s past t now u later,
    (State.new 2 2).run sampleFatalPolicy sampleStops = some (s, past) ∧
      s.act sampleFatalPolicy (.step .resume .epoch) = some (t, now) ∧
      t.run sampleFatalPolicy sampleReads = some (u, later) ∧
      (IsStop (sampleStops ++ [.step .resume .epoch]) 2 ∧ .returned 2 ∈ now) ∧
      t.outlet = false ∧
      t.crew = [.left, .dead] ∧
      t.receipts sampleFatalPolicy sampleReads =
        [.verdict (sampleVerdict "a"), .verdict (sampleVerdict "c"), .closed] ∧
      Barrier sampleFatalPolicy (State.new 2 2) (sampleStops ++ [.step .resume .epoch]) t
        (past ++ now) sampleReads u later ∧
      outcomes later = [] := by
  have hruns : ∃ s past t now u later,
      (State.new 2 2).run sampleFatalPolicy sampleStops = some (s, past) ∧
        s.act sampleFatalPolicy (.step .resume .epoch) = some (t, now) ∧
        t.run sampleFatalPolicy sampleReads = some (u, later) ∧
        .returned 2 ∈ now ∧ t.outlet = false ∧ t.crew = [.left, .dead] ∧
        t.receipts sampleFatalPolicy sampleReads =
          [.verdict (sampleVerdict "a"), .verdict (sampleVerdict "c"), .closed] :=
    ⟨_, _, _, _, _, _, rfl, rfl, rfl, by decide, rfl, rfl, rfl⟩
  obtain ⟨s, past, t, now, u, later, hbefore, hact, hafter, hreturned, houtlet, hcrew,
    hreceipts⟩ := hruns
  have hstop : IsStop (sampleStops ++ [.step .resume .epoch]) 2 := by
    intro call hcall hid
    simp only [sampleStops, List.cons_append, List.nil_append, List.mem_cons, Action.issue.injEq,
      reduceCtorEq, false_or, List.not_mem_nil, or_false] at hcall
    rcases hcall with rfl | rfl | rfl
    · simp at hid
    · rfl
    · rfl
  obtain ⟨hbarrier, hsilent⟩ := barrier_of_returned hbefore hact hafter
  exact ⟨s, past, t, now, u, later, hbefore, hact, hafter, ⟨hstop, hreturned⟩, houtlet, hcrew,
    hreceipts, hbarrier 2 hstop hreturned, hsilent houtlet⟩

end Conveyor.Moderation.Pool
