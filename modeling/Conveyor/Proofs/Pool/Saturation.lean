import Conveyor.Proofs.Pool.Deaths

/-!
# A channel that nobody reads

Verdicts that nobody takes out of the channel fill it up, and from then on every verdict is dropped.
Which verdicts these are is up to the schedule of the workers; how many they are is not. The main
statement is `saturation_of_run`.

## What the schedule decides

As long as nothing leaves the channel it holds the verdicts that came first, up to its capacity, and
all others were dropped (`Filled`). So the schedule decides in which order verdicts come and nothing
else, and the numbers follow from how many jobs were judged, which is all of them once a call of
`stop` has returned. A single worker judges jobs in the order in which it takes them
(`Bench.pulled_eq_of_single`), and leaves no choice at all.
-/

namespace Conveyor.Moderation.Pool

open Time

variable {policy : Policy} {s t : State} {a : Action} {as : List Action} {notes new : List Note}

/-! ### What is kept -/

/-- The channel holds the verdicts that came first, as many as it has room for, and the others were
dropped for want of room. -/
structure Filled (s : State) (notes : List Note) : Prop where
  /-- The verdicts that came first are in the channel. -/
  channel : s.channel = (verdicts notes).take s.capacity
  /-- The others were dropped. -/
  dropped : dropped notes = ((verdicts notes).drop s.capacity).map (·, .full)

namespace Filled

/-- An action in which no verdict comes or leaves. -/
theorem of_quiet (h : Filled s notes) (hchannel : t.channel = s.channel)
    (hcapacity : t.capacity = s.capacity) (hnew : verdicts new = [] ∧ Pool.dropped new = []) :
    Filled t (notes ++ new) := by
  have hverdicts : verdicts (notes ++ new) = verdicts notes := extract_append_of_silent hnew.1
  have hdropped : Pool.dropped (notes ++ new) = Pool.dropped notes :=
    extract_append_of_silent hnew.2
  exact ⟨by rw [hchannel, hcapacity, hverdicts, h.channel],
    by rw [hcapacity, hverdicts, hdropped, h.dropped]⟩

/-- Every action fills the channel up, as long as nothing is taken out of it. -/
theorem of_change (h : Filled s notes) (hchange : Change policy s a t new)
    (hreader : t.reader ≠ .gone) (hunread : received new = []) : Filled t (notes ++ new) := by
  have hlength : s.channel.length = min s.capacity (verdicts notes).length := by
    rw [h.channel, List.length_take]
  cases hchange with
  | receive => simp at hunread
  | throwAway => exact absurd rfl hreader
  | @offer i now j v busy judged readable room =>
    have hverdicts : verdicts (notes ++ [.offered i v]) = verdicts notes ++ [v] := by simp
    have hdropped : Pool.dropped (notes ++ [.offered i v]) = Pool.dropped notes := by simp
    have hshort : (verdicts notes).length < s.capacity := by omega
    have hall : (verdicts notes ++ [v]).length ≤ s.capacity := by
      rwa [List.length_append, List.length_singleton, Nat.succ_le_iff]
    constructor
    · show s.channel ++ [v] = (verdicts (notes ++ [.offered i v])).take s.capacity
      rw [hverdicts, List.take_of_length_le hall, h.channel,
        List.take_of_length_le (Nat.le_of_lt hshort)]
    · show Pool.dropped (notes ++ [.offered i v]) =
        ((verdicts (notes ++ [.offered i v])).drop s.capacity).map (·, .full)
      rw [hverdicts, hdropped, h.dropped, List.drop_of_length_le hall,
        List.drop_of_length_le (Nat.le_of_lt hshort)]
  | @drop i now j v why busy judged rejects =>
    cases why with
    | closed => exact absurd rejects hreader
    | full =>
      have hverdicts : verdicts (notes ++ [.dropped i v .full]) = verdicts notes ++ [v] := by simp
      have hdropped : Pool.dropped (notes ++ [.dropped i v .full]) =
          Pool.dropped notes ++ [(v, .full)] := by simp
      have hlong : s.capacity ≤ (verdicts notes).length := by
        have hfull := rejects.2
        omega
      constructor
      · show s.channel = (verdicts (notes ++ [.dropped i v .full])).take s.capacity
        rw [hverdicts, List.take_append_of_le_length hlong, h.channel]
      · show Pool.dropped (notes ++ [.dropped i v .full]) =
          ((verdicts (notes ++ [.dropped i v .full])).drop s.capacity).map (·, .full)
        rw [hverdicts, hdropped, h.dropped, List.drop_append_of_le_length hlong, List.map_append,
          List.map_singleton]
  | _ => exact h.of_quiet rfl rfl (by simp)

/-- The channel after a run in which nothing was taken out of it. -/
theorem of_runs (hs : s.Coupled) (hempty : s.channel = [])
    (h : Runs (State.act · policy) s as t notes) (hreader : t.reader ≠ .gone)
    (hunread : received notes = []) : Filled t notes := by
  induction h with
  | refl => exact ⟨by simp [hempty], by simp⟩
  | @tail as t notes a u new run act_eq ih =>
    have hchange := (hs.of_runs run).change act_eq
    obtain ⟨hbefore, hnow⟩ : received notes = [] ∧ received new = [] := by simpa using hunread
    exact (ih (hchange.reader_ne_gone hreader) hbefore).of_change hchange hreader hnow

end Filled

/-! ### A single worker -/

/-- Whoever takes a job is one of the crew. -/
theorem lt_of_mem_pulled (hs : s.Coupled) (h : Runs (State.act · policy) s as t notes) :
    ∀ p ∈ pulled notes, p.1 < s.workers := by
  refine hs.runs_induction h
    (motive := fun _ t notes ↦ t.workers = s.workers ∧ ∀ p ∈ pulled notes, p.1 < s.workers)
    ⟨rfl, by simp⟩ (fun {as t notes a u new} ht hchange ih ↦ ?_) |>.2
  obtain ⟨hworkers, hbefore⟩ := ih
  refine ⟨hchange.workers_eq.trans hworkers, fun p hp ↦ ?_⟩
  have hparts : p ∈ pulled notes ∨ p ∈ pulled new := by simpa using hp
  rcases hparts with hold | hnow
  · exact hbefore p hold
  · cases hchange with
    | @pull i now j line queue first next =>
      obtain rfl : p = (i, j.stamp now) := by simpa using hnow
      have hplace := ht.inLine_of_first first
      have hlt := (List.getElem?_eq_some_iff.1 hplace).1
      rwa [ht.crewed (State.Coupled.crew_ne_nil hplace), hworkers] at hlt
    | _ => simp at hnow

/-- Where all belongs to one worker, nothing else is seen. -/
theorem ofWorker_eq_map_snd {α : Type} {i : Nat} {xs : List (Nat × α)} (h : ∀ p ∈ xs, p.1 = i) :
    ofWorker i xs = xs.map Prod.snd := by
  induction xs with
  | nil => rfl
  | cons p xs ih =>
    obtain ⟨hfirst, hrest⟩ := List.forall_mem_cons.1 h
    rw [← List.singleton_append, ofWorker_append, ih hrest, ofWorker_singleton, if_pos hfirst,
      List.map_append, List.map_singleton]

/-- A single worker has judged the jobs in the order in which it took them, but for the one in its
hands. -/
theorem Bench.pulled_eq_of_single {judged : List Judgement} (h : Bench policy judged s notes)
    (hsingle : ∀ p ∈ pulled notes, p.1 = 0) :
    (pulled notes).map Prod.snd = judged.map Judgement.job ++ (s.inHand 0).toList := by
  have hjudged : ∀ p ∈ judged.map Judgement.taken, p.1 = 0 := by
    intro p hp
    exact hsingle p (h.pulled_perm_hands.symm.subset (List.mem_append_left _ hp))
  have htaken := h.taken 0
  rwa [ofWorker_eq_map_snd hsingle, ofWorker_eq_map_snd hjudged, List.map_map] at htaken

/-! ### The statement -/

/-- The verdicts that workers came to in a run and offered to the channel, in order. -/
def State.offers (s : State) (policy : Policy) (as : List Action) : List Verdict :=
  (s.judgements policy as).filterMap fun g ↦ policy g.time g.job

/-- The pool was started, and a call of `stop` has returned. -/
def Retired (as : List Action) (notes : List Note) : Prop :=
  .started ∈ notes ∧ ∃ id, IsStop as id ∧ .returned id ∈ notes

/-- A run of the pool `start` in which nothing was taken out of the channel and its receiving end was
not thrown away. -/
structure Unread (policy : Policy) (start : State) (as : List Action) (s : State)
    (notes : List Note) : Prop where
  /-- The run leads to `s`, with the history `notes`. -/
  run : start.run policy as = some (s, notes)
  /-- The receiving end is there. -/
  kept : s.reader ≠ .gone
  /-- No verdict was read. -/
  unread : start.collected policy as = []

/-- What is in the channel and in the log after the run `as` of the pool `start`, when nothing was
taken out of the channel. -/
structure Saturation (policy : Policy) (start : State) (as : List Action) (s : State)
    (notes : List Note) : Prop where
  /-- Each job that was judged gave one verdict, that of the policy. -/
  offers : (start.offers policy as).map some =
    (start.judgements policy as).map fun g ↦ policy g.time g.job
  /-- The channel holds the verdicts that were offered first. -/
  channel : s.channel = (start.offers policy as).take start.capacity
  /-- It holds as many as it can. -/
  length_channel : s.channel.length = min start.capacity (start.judgements policy as).length
  /-- The log has one warning that the channel was full for each of the others, in order, and no
  warning for another reason. -/
  warnings : dropWarnings notes =
    ((start.offers policy as).drop start.capacity).map fun v ↦ dropWarning (v, .full)
  /-- These are the verdicts for which there was no room. -/
  length_warnings : (dropWarnings notes).length = (start.judgements policy as).length -
    min start.capacity (start.judgements policy as).length
  /-- When the pool was started and a call of `stop` has returned, all accepted jobs were judged. -/
  judged : Retired as notes →
    (start.judgements policy as).length = (start.accepted policy as).length
  /-- A single worker leaves the verdicts on the jobs that were accepted first in the channel, in
  order, each judged at its time. -/
  single : start.workers = 1 →
    s.channel.map some =
      List.zipWith policy (((start.judgements policy as).take start.capacity).map Judgement.time)
        ((List.zipWith Job.stamp (start.accepted policy as) (pullTimes as)).take
          (min start.capacity (start.judgements policy as).length))

section Statement

variable {workers capacity : Nat}

theorem Saturation.of_unread (htotal : ∀ now j, policy now j ≠ none)
    (h : Unread policy (.new workers capacity) as s notes) :
    Saturation policy (.new workers capacity) as s notes := by
  have hnew : (State.new workers capacity).Coupled := .of_new workers capacity
  have hruns := State.run_iff.1 h.run
  have hbench := Bench.of_runs hnew (fun _ ↦ rfl) hruns
  have hverdicts : verdicts notes = (State.new workers capacity).offers policy as :=
    hbench.verdicts_eq_filterMap
  have hoffers := hbench.verdicts_eq htotal
  rw [hverdicts] at hoffers
  have hlength := congrArg List.length hoffers
  rw [List.length_map, List.length_map] at hlength
  have hunread := h.unread
  rw [collected_eq hnew hruns] at hunread
  obtain ⟨hchannel, hdropped⟩ := Filled.of_runs hnew rfl hruns h.kept hunread
  rw [hverdicts, capacity_of_runs hnew hruns] at hchannel hdropped
  have hwarnings := dropWarnings_eq notes
  rw [hdropped, List.map_map] at hwarnings
  exact {
    offers := hoffers
    channel := hchannel
    length_channel := by rw [hchannel, List.length_take, hlength]
    warnings := hwarnings
    length_warnings := by
      rw [hwarnings, List.length_map, List.length_drop, hlength]
      omega
    judged := fun ⟨hstarted, id, hid, hreturned⟩ ↦ by
      obtain ⟨htimes, hjobs⟩ := judged_of_returned htotal hruns hstarted hid hreturned
      have hsame := hjobs.length_eq
      rw [List.length_zipWith, htimes, Nat.min_self, List.length_map] at hsame
      exact hsame.symm
    single := fun hworkers ↦ by
      have hplaces : ∀ p ∈ pulled notes, p.1 = 0 := fun p hp ↦ by
        have hlt := lt_of_mem_pulled hnew hruns p hp
        rwa [hworkers, Nat.lt_one_iff] at hlt
      obtain ⟨front, lost, hintake⟩ := Intake.of_runs hnew rfl hruns
      have hjobs := hintake.pulled_eq
      rw [hbench.pulled_eq_of_single hplaces, ← accepted_eq hnew hruns] at hjobs
      have hfirst : min (State.new workers capacity).capacity
            ((State.new workers capacity).judgements policy as).length ≤
          (((State.new workers capacity).judgements policy as).map Judgement.job).length := by
        rw [List.length_map]
        exact Nat.min_le_right _ _
      rw [← hjobs, List.take_append_of_le_length hfirst, List.take_eq_take_min, ← List.map_take,
        List.zipWith_map, List.zipWith_self, hchannel, List.map_take, hoffers, List.take_eq_take_min,
        List.length_map, List.map_take] }

/-- **Saturation.** After every run of a new pool whose policy kills no worker, whatever the clients
and the scheduler did: as long as nobody reads from the channel, it holds the verdicts that came
first, up to its capacity, and each of the others was dropped with a warning. So runs of pools with
one capacity in which the same number of jobs was accepted keep and drop equally many verdicts when
the pools were stopped. -/
theorem saturation_of_run (htotal : ∀ now j, policy now j ≠ none)
    (h : Unread policy (.new workers capacity) as s notes) :
    Saturation policy (.new workers capacity) as s notes ∧
    ∀ {policy' : Policy} {workers' : Nat} {as' : List Action} {s' : State} {notes' : List Note},
      (∀ now j, policy' now j ≠ none) → Unread policy' (.new workers' capacity) as' s' notes' →
      Retired as notes → Retired as' notes' →
      ((State.new workers' capacity).accepted policy' as').length =
        ((State.new workers capacity).accepted policy as).length →
      s'.channel.length = s.channel.length ∧
        (dropWarnings notes').length = (dropWarnings notes).length := by
  have hone := Saturation.of_unread htotal h
  refine ⟨hone, fun htotal' h' hretired hretired' hsame ↦ ?_⟩
  have hother := Saturation.of_unread htotal' h'
  have hjudged := (hother.judged hretired').trans (hsame.trans (hone.judged hretired).symm)
  rw [hone.length_channel, hother.length_channel, hone.length_warnings, hother.length_warnings,
    hjudged]
  exact ⟨rfl, rfl⟩

end Statement

/-- A run in which two workers judge three jobs, and the verdict on the first one comes too late. -/
def sampleOverflow : List Action :=
  [.enqueue (sampleJob "a"), .enqueue (sampleJob "b"), .issue ⟨0, .start⟩, .takeResults,
    .step (.arrive 0) .epoch, .step (.arrive 1) .epoch, .step (.pull 0) .epoch,
    .step (.pull 1) .epoch, .enqueue (sampleJob "c"), .step (.judge 1) .epoch,
    .step (.arrive 1) .epoch, .step (.pull 1) .epoch, .step (.judge 1) .epoch,
    .issue ⟨1, .stop⟩, .step (.judge 0) .epoch, .step (.arrive 0) .epoch, .step (.arrive 1) .epoch,
    .step (.leave 0) .epoch, .step (.leave 1) .epoch, .step .resume .epoch, .step .resume .epoch,
    .step .resume .epoch]

/-- The same jobs, judged by a single worker. -/
def sampleOrderly : List Action :=
  [.enqueue (sampleJob "a"), .enqueue (sampleJob "b"), .issue ⟨0, .start⟩, .step (.arrive 0) .epoch,
    .step (.pull 0) .epoch, .enqueue (sampleJob "c"), .issue ⟨1, .stop⟩, .step (.judge 0) .epoch,
    .step (.arrive 0) .epoch, .step (.pull 0) .epoch, .step (.judge 0) .epoch,
    .step (.arrive 0) .epoch, .step (.pull 0) .epoch, .step (.judge 0) .epoch,
    .step (.arrive 0) .epoch, .step (.leave 0) .epoch, .step .resume .epoch, .step .resume .epoch]

theorem saturation_of_run_sample :
    (∀ now j, samplePolicy now j ≠ none) ∧
    ∃ s notes s' notes', Unread samplePolicy (.new 2 2) sampleOverflow s notes ∧
      Unread samplePolicy (.new 1 2) sampleOrderly s' notes' ∧
      (Retired sampleOverflow notes ∧ Retired sampleOrderly notes') ∧
      ((State.new 1 2).accepted samplePolicy sampleOrderly).length =
        ((State.new 2 2).accepted samplePolicy sampleOverflow).length ∧
      s.channel = [sampleVerdict "b", sampleVerdict "c"] ∧
      s'.channel = [sampleVerdict "a", sampleVerdict "b"] ∧
      Saturation samplePolicy (.new 2 2) sampleOverflow s notes ∧
      Saturation samplePolicy (.new 1 2) sampleOrderly s' notes' ∧
      (dropWarnings notes').length = (dropWarnings notes).length := by
  have htotal : ∀ now j, samplePolicy now j ≠ none := by simp [samplePolicy, BannedTerms.policy]
  have hrun : ∃ s notes, (State.new 2 2).run samplePolicy sampleOverflow = some (s, notes) ∧
      s.reader = .taken ∧ .started ∈ notes ∧ .returned 1 ∈ notes ∧
      s.channel = [sampleVerdict "b", sampleVerdict "c"] :=
    ⟨_, _, rfl, rfl, by decide, by decide, rfl⟩
  have hrun' : ∃ s notes, (State.new 1 2).run samplePolicy sampleOrderly = some (s, notes) ∧
      s.reader = .untaken ∧ .started ∈ notes ∧ .returned 1 ∈ notes ∧
      s.channel = [sampleVerdict "a", sampleVerdict "b"] :=
    ⟨_, _, rfl, rfl, by decide, by decide, rfl⟩
  obtain ⟨s, notes, hrun, hreader, hstarted, hreturned, hchannel⟩ := hrun
  obtain ⟨s', notes', hrun', hreader', hstarted', hreturned', hchannel'⟩ := hrun'
  have hunread : Unread samplePolicy (.new 2 2) sampleOverflow s notes :=
    ⟨hrun, by simp [hreader], rfl⟩
  have hunread' : Unread samplePolicy (.new 1 2) sampleOrderly s' notes' :=
    ⟨hrun', by simp [hreader'], rfl⟩
  have hretired : Retired sampleOverflow notes := ⟨hstarted, 1, by decide, hreturned⟩
  have hretired' : Retired sampleOrderly notes' := ⟨hstarted', 1, by decide, hreturned'⟩
  have hsame : ((State.new 1 2).accepted samplePolicy sampleOrderly).length =
      ((State.new 2 2).accepted samplePolicy sampleOverflow).length := rfl
  obtain ⟨hfilled, htwo⟩ := saturation_of_run htotal hunread
  exact ⟨htotal, s, notes, s', notes', hunread, hunread', ⟨hretired, hretired'⟩, hsame, hchannel,
    hchannel', hfilled, (saturation_of_run htotal hunread').1,
    (htwo htotal hunread' hretired hretired' hsame).2⟩

end Conveyor.Moderation.Pool
