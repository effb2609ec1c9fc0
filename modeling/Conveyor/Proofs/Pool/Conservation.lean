import Conveyor.Proofs.Pool.Books

/-!
# Conservation of jobs and verdicts

Where the jobs and verdicts of a pool are, after every run and for every schedule of its workers.
The main statement is `conservation_of_run`: no job and no verdict is lost on the way or comes
twice.

Most of it is what the books say (`Intake`, `Bench`, `Outlet`). What is added here is when a verdict
is dropped and what the log says about it, and that a policy that always gives a verdict kills
nobody.
-/

namespace Conveyor.Moderation.Pool

open Time

/-! ### Verdicts that are dropped -/

/-- The warning about a verdict that was dropped. -/
def dropWarning : Verdict × DropReason → Record
  | (v, why) =>
    .warning "Dropping moderation result"
      [("content_id", v.job.contentId), ("reason", why.message)]

/-- The records of a history about verdicts that were dropped. -/
def dropWarnings (notes : List Note) : List Record :=
  (notes.flatMap Note.records).filter (·.message == "Dropping moderation result")

/-- The log has one warning for each verdict that was dropped, in order. -/
theorem dropWarnings_eq (notes : List Note) :
    dropWarnings notes = (dropped notes).map dropWarning := by
  refine recordsOf_eq_map (fun n ↦ ?_) notes
  cases n <;> simp [Note.records, dropWarning, Record.warning, Record.failure]

/-- Each verdict was put into the channel or dropped. -/
theorem verdicts_perm (notes : List Note) :
    (verdicts notes).Perm (kept notes ++ (dropped notes).map Prod.fst) := by
  induction notes with
  | nil => exact .nil
  | cons n notes ih =>
    cases n with
    | offered i v => simpa using ih.cons v
    | dropped i v why => simpa using (ih.cons v).trans List.perm_middle.symm
    | _ => simpa using ih

/-- When no worker died, how judging went is the verdicts. -/
theorem outcomes_eq {notes : List Note} (h : ∀ p ∈ outcomes notes, p.2 ≠ none) :
    (outcomes notes).map Prod.snd = (verdicts notes).map some := by
  induction notes with
  | nil => rfl
  | cons n notes ih =>
    have hlater : ∀ p ∈ outcomes notes, p.2 ≠ none := fun p hp ↦ h p (by simp [hp])
    cases n with
    | died i j => simp at h
    | _ => simp [ih hlater]

section Drops

variable {policy : Policy} {s t : State} {a : Action} {new : List Note} {i : Nat} {v : Verdict}
  {why : DropReason}

/-- The channel has one reason at a time. -/
theorem State.Rejects.unique {other : DropReason} (h : s.Rejects why) (h' : s.Rejects other) :
    why = other := by
  cases why <;> cases other <;> simp_all [State.Rejects]

/-- A verdict is dropped if and only if a worker comes to it and the channel does not take it. -/
theorem Change.dropped_mem_iff (h : Change policy s a t new) :
    .dropped i v why ∈ new ↔
      ∃ now j, a = .step (.judge i) now ∧ s.crew[i]? = some (.busy j) ∧ policy now j = some v ∧
        s.Rejects why := by
  constructor
  · intro hmem
    cases h with
    | drop busy judged rejects =>
      obtain ⟨rfl, rfl, rfl⟩ : i = _ ∧ v = _ ∧ why = _ := by simpa using hmem
      exact ⟨_, _, rfl, busy, judged, rejects⟩
    | _ => simp at hmem
  · rintro ⟨now, j, rfl, hbusy, hjudged, hrejects⟩
    cases h with
    | offer busy judged readable room =>
      cases why with
      | full => exact absurd room (Nat.not_lt.2 hrejects.2)
      | closed => exact absurd hrejects readable
    | drop busy judged rejects =>
      obtain rfl : j = _ := by simpa [busy, eq_comm] using hbusy
      obtain rfl : v = _ := by simpa [judged, eq_comm] using hjudged
      simp [hrejects.unique rejects]
    | die busy judged | dieLast busy judged =>
      obtain rfl : j = _ := by simpa [busy, eq_comm] using hbusy
      simp [judged] at hjudged
    | leaveResults nothing => simp at nothing
    | start begun | passBy begun | close begun | discard begun => simp [State.beginning?] at begun

end Drops

/-! ### The statement -/

section Runs

variable {policy : Policy} {s t : State} {a : Action} {as : List Action} {notes new : List Note}

theorem Change.capacity_eq (h : Change policy s a t new) : t.capacity = s.capacity := by
  cases h <;> rfl

theorem capacity_of_runs (hs : s.Coupled) (h : Runs (State.act · policy) s as t notes) :
    t.capacity = s.capacity := by
  refine hs.runs_induction h (motive := fun _ t _ ↦ t.capacity = s.capacity) rfl ?_
  intro as t notes a u new ht hchange ih
  rw [hchange.capacity_eq, ih]

/-- A policy that always gives a verdict kills nobody. -/
theorem Change.dead_not_mem (htotal : ∀ now j, policy now j ≠ none) (h : Change policy s a t new)
    (hs : .dead ∉ s.crew) : .dead ∉ t.crew := by
  have hset {i : Nat} {w : Worker} (hw : w ≠ .dead) : .dead ∉ (s.setWorker i w).crew := by
    intro hmem
    rcases List.mem_or_eq_of_mem_set hmem with hold | heq
    · exact hs hold
    · exact hw heq.symm
  cases h with
  | start => simp
  | arrive => exact hset (by simp)
  | pull => exact hset (by simp)
  | offer => exact hset (by simp)
  | drop => exact hset (by simp)
  | leave => exact hset (by simp)
  | die busy judged => exact absurd judged (htotal _ _)
  | dieLast busy judged => exact absurd judged (htotal _ _)
  | _ => exact hs

theorem dead_not_mem_of_runs (htotal : ∀ now j, policy now j ≠ none) (hs : s.Coupled)
    (hcrew : s.crew = []) (h : Runs (State.act · policy) s as t notes) : .dead ∉ t.crew := by
  refine hs.runs_induction h (motive := fun _ t _ ↦ .dead ∉ t.crew) (by simp [hcrew]) ?_
  intro as t notes a u new ht hchange ih
  exact hchange.dead_not_mem htotal ih

/-- When nobody has died, only a stop before the start loses jobs. -/
theorem State.isLossless_of_dead_not_mem (h : .dead ∉ s.crew) (hearly : ¬s.StoppedEarly) :
    s.IsLossless := by
  refine ⟨hearly, fun hcrew ↦ ?_⟩
  obtain ⟨w, hw⟩ := List.exists_mem_of_ne_nil _ hcrew
  exact ⟨w, hw, fun hdead ↦ h (hdead ▸ hw)⟩

end Runs

/-- Where the jobs and the verdicts are after a run of the pool `start`. -/
structure Conservation (policy : Policy) (start : State) (as : List Action) (s : State)
    (notes : List Note) : Prop where
  /-- The jobs that workers took are those that were accepted, in order, each with the time of its
  action if it had none. -/
  in_order : (pulled notes).map Prod.snd =
    List.zipWith Job.stamp (start.accepted policy as) (pullTimes as)
  /-- No more jobs were taken than were accepted. -/
  pulled_le : (pullTimes as).length ≤ (start.accepted policy as).length
  /-- The other accepted jobs are in the queue, unless the pool was stopped before its start. -/
  queued : ¬s.StoppedEarly → s.queue = (start.accepted policy as).drop (pullTimes as).length
  /-- Every worker has judged the jobs that it took, once each, but for the one in its hands. -/
  judged : ∀ i, ofWorker i (pulled notes) =
    ofWorker i ((start.judgements policy as).map Judgement.taken) ++ (s.inHand i).toList
  /-- Judging a job gives one verdict, that of the policy. -/
  verdicts : (start.judgements policy as).map (fun g ↦ policy g.time g.job) =
    (verdicts notes).map some
  /-- Each verdict is in the channel, was received, was thrown away or was dropped, and in one of
  these places only. -/
  placed : (Pool.verdicts notes).Perm
    (start.collected policy as ++ thrown notes ++ s.channel ++ (dropped notes).map Prod.fst)
  /-- A verdict is dropped if and only if a worker comes to it, and the channel is full or will
  never be read. -/
  drops : ∀ {a t new i v why}, s.act policy a = some (t, new) →
    (.dropped i v why ∈ new ↔
      ∃ now j, a = .step (.judge i) now ∧ s.crew[i]? = some (.busy j) ∧ policy now j = some v ∧
        (why = .full ∧ s.reader ≠ .gone ∧ s.channel.length = start.capacity ∨
          why = .closed ∧ s.reader = .gone))
  /-- The log has one warning for each verdict that was dropped, in order. -/
  warnings : dropWarnings notes = (dropped notes).map dropWarning
  /-- The queue keeps within its bound. -/
  queue_le : s.queue.length ≤ start.capacity
  /-- The channel keeps within its bound. -/
  channel_le : s.channel.length ≤ start.capacity

/-- **Conservation.** After every run of a new pool whose policy kills no worker, whatever the
clients and the scheduler did, every accepted job and every verdict is in one place. -/
theorem conservation_of_run {policy : Policy} (htotal : ∀ now j, policy now j ≠ none)
    {workers capacity : Nat} {as : List Action} {s : State} {notes : List Note}
    (hrun : (State.new workers capacity).run policy as = some (s, notes)) :
    Conservation policy (State.new workers capacity) as s notes := by
  have hnew : (State.new workers capacity).Coupled := .of_new workers capacity
  have hruns := State.run_iff.1 hrun
  have hs := hnew.of_runs hruns
  have hcapacity := capacity_of_runs hnew hruns
  have halive := dead_not_mem_of_runs htotal hnew rfl hruns
  have haccepted := accepted_eq hnew hruns
  obtain ⟨front, lost, hintake⟩ := Intake.of_runs hnew rfl hruns
  have hbench := Bench.of_runs hnew (fun _ ↦ rfl) hruns
  have houtlet := Outlet.of_runs hnew rfl hruns
  have hjobs : (State.new workers capacity).accepted policy as = front ++ s.queue ++ lost := by
    rw [haccepted, hintake.admitted]
  exact {
    in_order := by rw [hintake.pulled_eq, haccepted]
    pulled_le := by
      rw [hjobs, ← hintake.times, List.append_assoc, List.length_append]
      exact Nat.le_add_right _ _
    queued := fun hearly ↦ by
      rw [hjobs, ← hintake.times,
        hintake.lossless (State.isLossless_of_dead_not_mem halive hearly), List.append_nil,
        List.drop_left]
    judged := hbench.taken
    verdicts := by
      rw [← outcomes_eq, hbench.outcomes, List.map_map]
      · rfl
      · intro p hp
        rw [hbench.outcomes, List.mem_map] at hp
        obtain ⟨g, -, rfl⟩ := hp
        exact htotal g.time g.job
    placed := by
      rw [collected_eq hnew hruns, ← houtlet.kept]
      exact verdicts_perm notes
    drops := fun {a t new i v why} hact ↦ by
      rw [(hs.change hact).dropped_mem_iff, ← hcapacity]
      have hfull : s.capacity ≤ s.channel.length ↔ s.channel.length = s.capacity :=
        ⟨fun h ↦ Nat.le_antisymm hs.channel_le h, Nat.le_of_eq ∘ Eq.symm⟩
      cases why <;> simp [State.Rejects, hfull]
    warnings := dropWarnings_eq notes
    queue_le := hcapacity ▸ hs.queue_le
    channel_le := hcapacity ▸ hs.channel_le }

/-- A job with a given name. -/
def sampleJob (contentId : String) : Job := ⟨contentId, "author", "body", none⟩

/-- The policy that approves of everything. -/
def samplePolicy : Policy := (BannedTerms.mk []).policy

/-- What a policy that approves of everything says about a job. -/
def sampleVerdict (contentId : String) : Verdict :=
  ⟨(sampleJob contentId).stamp .epoch, .approved, "passed automated moderation", .epoch⟩

/-- A run in which two workers judge in the other order, one verdict finds the channel full, one is
received and one finds nobody to read it, and the pool is stopped with a job in its queue. -/
def sampleRun : List Action :=
  [.enqueue (sampleJob "a"), .takeResults, .issue ⟨0, .start⟩, .step (.arrive 0) .epoch,
    .step (.arrive 1) .epoch, .step (.pull 0) .epoch, .enqueue (sampleJob "b"),
    .step (.pull 1) .epoch, .step (.judge 1) .epoch, .step (.judge 0) .epoch, .receive,
    .enqueue (sampleJob "c"), .step (.arrive 0) .epoch, .step (.pull 0) .epoch, .dropResults,
    .step (.judge 0) .epoch, .enqueue (sampleJob "d"), .enqueue (sampleJob "e"),
    .issue ⟨1, .stop⟩]

theorem conservation_of_run_sample : ∃ s notes,
    (State.new 2 1).run samplePolicy sampleRun = some (s, notes) ∧
      received notes = [sampleVerdict "b"] ∧
      dropped notes = [(sampleVerdict "a", .full), (sampleVerdict "c", .closed)] ∧
      s.queue = [sampleJob "d"] ∧
      Conservation samplePolicy (State.new 2 1) sampleRun s notes := by
  have htotal : ∀ now j, samplePolicy now j ≠ none := by simp [samplePolicy, BannedTerms.policy]
  have hrun : ∃ s notes, (State.new 2 1).run samplePolicy sampleRun = some (s, notes) ∧
      received notes = [sampleVerdict "b"] ∧
      dropped notes = [(sampleVerdict "a", .full), (sampleVerdict "c", .closed)] ∧
      s.queue = [sampleJob "d"] := ⟨_, _, rfl, rfl, rfl, rfl⟩
  obtain ⟨s, notes, hrun, hreceived, hdropped, hqueue⟩ := hrun
  exact ⟨s, notes, hrun, hreceived, hdropped, hqueue, conservation_of_run htotal hrun⟩

end Conveyor.Moderation.Pool
