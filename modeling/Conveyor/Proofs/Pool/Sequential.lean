import Mathlib.Data.List.Perm.Subperm
import Conveyor.Proofs.Pool.Barrier

/-!
# A pool whose reader keeps pace

Jobs that are judged by many workers give the same verdicts as jobs that are judged one after
another, only in another order, provided that the reader is never further behind than the channel
can bear. The main statement is `sequential_of_run`.

## Why the channel has room

A verdict that a worker comes to was not offered before, so the job that it answers counts among the
accepted ones and its verdict neither among those in the channel nor among those received. As long
as the accepted jobs are at most as many more than the verdicts received as the channel takes, one
place in it is free (`dropped_eq_nil`). What workers have in their hands is counted worker by worker
(`Bench.length_lt_of_busy`), so it does not matter how many of them finish at once.

## What is seen of a verdict

A policy may read the clock, and the time at which a job is judged is up to the scheduler. So the
verdicts are compared by what can be `seen` of them, which must be a function of the job as the
worker shows it to the policy. For a policy that does not read the clock all can be seen.
-/

namespace Conveyor.Moderation.Pool

open Time

/-! ### Counting by workers -/

section OfWorker

variable {α : Type} [BEq α]

/-- What belongs to one worker is counted together with the place of the worker. -/
theorem count_ofWorker (i : Nat) (x : α) (xs : List (Nat × α)) :
    (ofWorker i xs).count x = xs.count (i, x) := by
  induction xs with
  | nil => rfl
  | cons p xs ih =>
    rcases p with ⟨k, y⟩
    rw [← List.singleton_append, ofWorker_append, List.count_append, ih, List.count_append,
      ofWorker_singleton]
    have hpair : ((k, y) == (i, x)) = (k == i && y == x) := rfl
    by_cases hk : k = i
    · rw [if_pos hk, List.count_singleton, List.count_singleton, hpair, hk, beq_self_eq_true,
        Bool.true_and]
    · rw [if_neg hk, List.count_nil, List.count_singleton, hpair, beq_false_of_ne hk,
        Bool.false_and, if_neg Bool.false_ne_true]

variable [LawfulBEq α] {xs ys : List (Nat × α)}

/-- Lists that agree worker by worker agree but for the order. -/
theorem perm_of_ofWorker (h : ∀ i, ofWorker i xs = ofWorker i ys) : xs.Perm ys := by
  rw [List.perm_iff_count]
  rintro ⟨i, x⟩
  rw [← count_ofWorker, ← count_ofWorker, h i]

/-- A list that falls short of another one worker by worker does so as a whole. -/
theorem subperm_of_ofWorker (h : ∀ i, (ofWorker i xs).Sublist (ofWorker i ys)) : xs.Subperm ys := by
  rw [List.subperm_ext_iff]
  rintro ⟨i, x⟩ -
  rw [← count_ofWorker, ← count_ofWorker]
  exact (h i).count_le x

end OfWorker

section Counting

variable {policy : Policy} {s t : State} {a : Action} {as : List Action} {notes new : List Note}
  {judged : List Judgement} {i : Nat} {j : Job}

/-- When all hands are empty, every job that was taken was judged. -/
theorem Bench.pulled_perm (h : Bench policy judged s notes) (hidle : ∀ i, s.inHand i = none) :
    (pulled notes).Perm (judged.map Judgement.taken) := by
  refine perm_of_ofWorker fun i ↦ ?_
  rw [h.taken i, hidle i, Option.toList_none, List.append_nil]

/-- The job in the hands of a worker was taken and has not been judged. -/
theorem Bench.length_lt_of_busy (h : Bench policy judged s notes)
    (hbusy : s.crew[i]? = some (.busy j)) : judged.length < (pulled notes).length := by
  have hsub : (judged.map Judgement.taken ++ [(i, j)]).Subperm (pulled notes) := by
    refine subperm_of_ofWorker fun k ↦ ?_
    rw [ofWorker_append, ofWorker_singleton, h.taken k]
    split
    case isTrue hk =>
      subst hk
      rw [State.inHand_eq hbusy]
      exact List.Sublist.refl _
    case isFalse =>
      rw [List.append_nil]
      exact List.sublist_append_left _ _
  have hlength := hsub.length_le
  rw [List.length_append, List.length_map, List.length_singleton] at hlength
  exact hlength

/-- The verdicts are those of the policy, when it always gives one. -/
theorem Bench.verdicts_eq (h : Bench policy judged s notes)
    (htotal : ∀ now j, policy now j ≠ none) :
    (verdicts notes).map some = judged.map fun g ↦ policy g.time g.job := by
  rw [← outcomes_eq, h.outcomes, List.map_map]
  · rfl
  · intro p hp
    rw [h.outcomes, List.mem_map] at hp
    obtain ⟨g, -, rfl⟩ := hp
    exact htotal g.time g.job

/-- A policy that always gives a verdict lets no worker die. -/
theorem Bench.died_not_mem (h : Bench policy judged s notes)
    (htotal : ∀ now j, policy now j ≠ none) : .died i j ∉ notes := by
  intro hdied
  have hnone : (i, none) ∈ Pool.outcomes notes := List.mem_filterMap.2 ⟨_, hdied, rfl⟩
  rw [h.outcomes, List.mem_map] at hnone
  obtain ⟨g, -, hg⟩ := hnone
  exact htotal g.time g.job (Prod.mk.inj hg).2

/-- No more jobs were taken than accepted. -/
theorem Intake.length_pulled_add_le {front lost : List Job} (h : Intake as s notes front lost) :
    (Pool.pulled notes).length + s.queue.length ≤ (Pool.admitted notes).length := by
  have hpulled := congrArg List.length h.pulled
  have htimes := h.times
  rw [List.length_map, List.length_zipWith, ← htimes, Nat.min_self] at hpulled
  rw [h.admitted, hpulled, List.length_append, List.length_append]
  exact Nat.le_add_right _ _

/-- A receiving end that is thrown away was not thrown away before. -/
theorem Change.reader_ne_gone (h : Change policy s a t new) (ht : t.reader ≠ .gone) :
    s.reader ≠ .gone := by
  cases h with
  | takeResults untaken => simp [untaken]
  | throwAway => exact absurd rfl ht
  | _ => exact ht

end Counting

/-! ### The pace of the reader -/

/-- Whenever a job was enqueued in a run of the pool `start`, the jobs accepted by then were not more
than the verdicts received by then and the channel can bear. -/
def KeepsPace (policy : Policy) (start : State) (as : List Action) : Prop :=
  ∀ before j s notes, before ++ [.enqueue j] <+: as →
    start.run policy before = some (s, notes) → (s.enqueue j).1 = .ok () →
      (start.accepted policy (before ++ [.enqueue j])).length ≤
        (start.collected policy (before ++ [.enqueue j])).length + start.capacity

section Pace

variable {policy : Policy} {start s t : State} {a : Action} {as : List Action}
  {notes new : List Note}

/-- The pace was kept earlier in the run, too. -/
theorem KeepsPace.of_concat (h : KeepsPace policy start (as ++ [a])) :
    KeepsPace policy start as :=
  fun before j s notes hpart ↦ h before j s notes (hpart.trans (List.prefix_append as [a]))

/-- The pace holds at every moment, since between two jobs the reader can only catch up. -/
theorem KeepsPace.length_accepted_le (h : KeepsPace policy start as)
    (hruns : Runs (State.act · policy) start as t notes) :
    (start.accepted policy as).length ≤ (start.collected policy as).length + start.capacity := by
  induction hruns with
  | refl => exact Nat.zero_le _
  | @tail as s notes a t new run act_eq ih =>
    have hbefore := ih h.of_concat
    have haccepted : start.accepted policy (as ++ [a]) =
        start.accepted policy as ++ s.acceptedBy a := run.collect_concat _
    have hcollected : start.collected policy (as ++ [a]) =
        start.collected policy as ++ s.collectedBy a := run.collect_concat _
    -- Only an action that was answered with `ok` adds to the accepted jobs.
    rcases hnone : s.acceptedBy a with - | ⟨j, js⟩
    · rw [haccepted, hnone, List.append_nil, hcollected, List.length_append]
      omega
    · obtain ⟨j, rfl, hok⟩ : ∃ j, a = .enqueue j ∧ (s.enqueue j).1 = .ok () := by
        cases a with
        | enqueue j =>
          rcases hanswer : (s.enqueue j).1 with why | ⟨⟩
          · simp [State.acceptedBy, hanswer] at hnone
          · exact ⟨j, rfl, hanswer⟩
        | _ => simp [State.acceptedBy] at hnone
      exact h as j s notes (List.prefix_refl _) (State.run_iff.2 run) hok

/-- The pace is kept if it holds at every moment of the run. -/
theorem keepsPace_of_take (h : ∀ n < as.length + 1, (start.accepted policy (as.take n)).length ≤
    (start.collected policy (as.take n)).length + start.capacity) : KeepsPace policy start as := by
  intro before j s notes hpart _ _
  rw [List.prefix_iff_eq_take.1 hpart]
  exact h _ (Nat.lt_succ_of_le hpart.length_le)

end Pace

section New

variable {policy : Policy} {workers capacity : Nat} {t : State} {as : List Action}
  {notes : List Note}

/-- As long as the reader keeps pace, no verdict is dropped. -/
theorem dropped_eq_nil (htotal : ∀ now j, policy now j ≠ none)
    (hruns : Runs (State.act · policy) (State.new workers capacity) as t notes)
    (hpace : KeepsPace policy (State.new workers capacity) as) (hkept : t.reader ≠ .gone) :
    dropped notes = [] := by
  have hnew : (State.new workers capacity).Coupled := .of_new workers capacity
  induction hruns with
  | refl => rfl
  | @tail as s notes a t new run act_eq ih =>
    have hs := hnew.of_runs run
    have hchange := hs.change act_eq
    have hreader := hchange.reader_ne_gone hkept
    have hnone := ih hpace.of_concat hreader
    cases hchange with
    | @drop i now j v why busy judged rejects =>
      have hfull : s.capacity ≤ s.channel.length := by
        cases why with
        | full => exact rejects.2
        | closed => exact absurd rejects hreader
      obtain ⟨front, lost, hintake⟩ := Intake.of_runs hnew rfl run
      have hbench := Bench.of_runs hnew (fun _ ↦ rfl) run
      have houtlet := Outlet.of_runs hnew rfl run
      have hpaced := hpace.of_concat.length_accepted_le run
      rw [accepted_eq hnew run, collected_eq hnew run, ← capacity_of_runs hnew run] at hpaced
      have htaken := hintake.length_pulled_add_le
      have hbusy := hbench.length_lt_of_busy busy
      have hgiven := congrArg List.length (hbench.verdicts_eq htotal)
      have hplaced := (verdicts_perm notes).length_eq
      have hthrown := houtlet.thrown hreader
      rw [List.length_map, List.length_map] at hgiven
      rw [hnone, houtlet.kept, hthrown] at hplaced
      simp only [List.map_nil, List.append_nil, List.length_append] at hplaced
      omega
    | _ => simp [hnone]

/-- Once a call of `stop` has returned, the channel is closed. -/
theorem closed_of_returned {id : Nat}
    (hruns : Runs (State.act · policy) (State.new workers capacity) as t notes)
    (hid : IsStop as id) (hreturned : .returned id ∈ notes) : t.sends = false := by
  have hnew : (State.new workers capacity).Coupled := .of_new workers capacity
  induction hruns with
  | refl => simp at hreturned
  | @tail as s notes a t new run act_eq ih =>
    have hs := hnew.of_runs run
    have hchange := hs.change act_eq
    rcases List.mem_append.1 hreturned with hbefore | hnow
    · have hclosed := ih (fun call hcall ↦ hid call (List.mem_append_left _ hcall)) hbefore
      exact (hchange.of_closed hs hclosed).closed
    · obtain ⟨call, hcallid, hissued, hstopped⟩ := hchange.of_returned hs hnow
      refine (hstopped (hid call ?_ hcallid)).2
      rcases hissued with rfl | hcall
      · simp
      · exact List.mem_append_left _ (issue_mem_of_mem_calls hnew rfl run call hcall)

/-- After a call of `stop` has returned, a pool that was started and lost nobody has judged every
accepted job once, with the time that the worker gave it. -/
theorem judged_of_returned (htotal : ∀ now j, policy now j ≠ none) {id : Nat}
    (hruns : Runs (State.act · policy) (State.new workers capacity) as t notes)
    (hstarted : .started ∈ notes) (hid : IsStop as id) (hreturned : .returned id ∈ notes) :
    (pullTimes as).length = ((State.new workers capacity).accepted policy as).length ∧
      (List.zipWith Job.stamp ((State.new workers capacity).accepted policy as)
        (pullTimes as)).Perm
      (((State.new workers capacity).judgements policy as).map Judgement.job) := by
  have hnew : (State.new workers capacity).Coupled := .of_new workers capacity
  have ht := hnew.of_runs hruns
  have hclosed := closed_of_returned hruns hid hreturned
  have hbench := Bench.of_runs hnew (fun _ ↦ rfl) hruns
  have hmuster : Muster t notes := .of_runs hnew rfl hruns
  obtain ⟨hqueue, hlossless⟩ := hmuster.queue_eq_nil ht hclosed hstarted ht.workers_pos
    fun j ↦ hbench.died_not_mem htotal
  obtain ⟨front, lost, hintake⟩ := Intake.of_runs hnew rfl hruns
  have hjobs : (State.new workers capacity).accepted policy as = front := by
    rw [accepted_eq hnew hruns, hintake.admitted, hqueue, hintake.lossless hlossless,
      List.append_nil, List.append_nil]
  have hidle (i : Nat) : t.inHand i = none := by
    rcases hi : t.crew[i]? with - | w
    · rw [State.inHand, hi, Option.bind_none]
    · have hover := State.not_alive_of_closed hclosed (List.mem_of_getElem? hi)
      rw [State.inHand_eq hi]
      cases w with
      | busy j => simp [Worker.isAlive] at hover
      | _ => rfl
  have htaken := (hbench.pulled_perm hidle).map Prod.snd
  rw [hintake.pulled, List.map_map] at htaken
  rw [hjobs]
  exact ⟨hintake.times.symm, htaken⟩

/-- As long as nobody throws the receiving end away and nothing is dropped, the verdicts that
workers gave were received or are in the channel. -/
theorem verdicts_perm_of_kept
    (hruns : Runs (State.act · policy) (State.new workers capacity) as t notes)
    (hkept : t.reader ≠ .gone) (hdropped : dropped notes = []) :
    (verdicts notes).Perm ((State.new workers capacity).collected policy as ++ t.channel) := by
  have hnew : (State.new workers capacity).Coupled := .of_new workers capacity
  have houtlet := Outlet.of_runs hnew rfl hruns
  have hplaced := verdicts_perm notes
  rwa [hdropped, List.map_nil, List.append_nil, houtlet.kept, houtlet.thrown hkept,
    List.append_nil, ← collected_eq hnew hruns] at hplaced

end New

/-! ### Few jobs -/

namespace State

/-- The job that is offered to a pool that is not stopped. -/
def offeredBy (s : State) : Action → List Job
  | .enqueue j => if s.lifecycle = .stopped then [] else [j]
  | _ => []

/-- The jobs that were offered in a run before the pool was stopped, in order. -/
def offered (s : State) (policy : Policy) (as : List Action) : List Job :=
  collect (act · policy) offeredBy s as

/-- Both ends of the queue of a pool in which nobody has died are there until it is stopped. -/
theorem Coupled.ends_of_not_stopped {s : State} (hs : s.Coupled) (halive : .dead ∉ s.crew)
    (hlife : s.lifecycle ≠ .stopped) : s.sender = true ∧ s.receives = true := by
  rcases hstate : s.lifecycle with - | - | -
  · obtain ⟨hsender, hreceiver, -⟩ := hs.created hstate
    exact ⟨hsender, by rw [receives, hreceiver, Bool.true_or]⟩
  · obtain ⟨hsender, -, -, hcrew⟩ := hs.running hstate
    obtain ⟨w, hw⟩ := List.exists_mem_of_ne_nil _ hcrew
    have hwork : w.isAlive = true := by
      cases w with
      | left => simp [(hs.left hw).1] at hsender
      | dead => exact absurd hw halive
      | _ => rfl
    have hmanned : s.isManned = true := List.any_eq_true.2 ⟨w, hw, hwork⟩
    exact ⟨hsender, by rw [receives, hmanned, Bool.or_true]⟩
  · exact absurd hstate hlife

/-- The answer to a job that is offered to a pool in which nobody has died. -/
theorem Coupled.admission_eq {s : State} (hs : s.Coupled) (halive : .dead ∉ s.crew) :
    s.admission =
      if s.lifecycle = .stopped then .error (.closed queueName)
      else if s.queue.length < s.capacity then .ok ()
      else .error (.full queueName s.capacity) := by
  by_cases hlife : s.lifecycle = .stopped
  · rw [hs.admission_of_stopped hlife, if_pos hlife]
  · obtain ⟨hsender, hreceives⟩ := hs.ends_of_not_stopped halive hlife
    simp [admission, hsender, hreceives, hlife]

end State

section Few

variable {policy : Policy} {workers capacity : Nat} {t : State} {as : List Action}
  {notes : List Note}

/-- When no more jobs are offered than the queue takes, all of them are accepted. -/
theorem accepted_eq_offered (htotal : ∀ now j, policy now j ≠ none)
    (hruns : Runs (State.act · policy) (State.new workers capacity) as t notes)
    (hfew : ((State.new workers capacity).offered policy as).length ≤
      (State.new workers capacity).capacity) :
    (State.new workers capacity).accepted policy as =
      (State.new workers capacity).offered policy as := by
  have hnew : (State.new workers capacity).Coupled := .of_new workers capacity
  induction hruns with
  | refl => rfl
  | @tail as s notes a t new run act_eq ih =>
    have hs := hnew.of_runs run
    have haccepted : (State.new workers capacity).accepted policy (as ++ [a]) =
        (State.new workers capacity).accepted policy as ++ s.acceptedBy a := run.collect_concat _
    have hoffered : (State.new workers capacity).offered policy (as ++ [a]) =
        (State.new workers capacity).offered policy as ++ s.offeredBy a := run.collect_concat _
    rw [hoffered, List.length_append] at hfew
    have hbefore := ih (Nat.le_trans (Nat.le_add_right _ _) hfew)
    rw [haccepted, hoffered, hbefore, List.append_cancel_left_eq]
    cases a with
    | enqueue j =>
      have hadmission := hs.admission_eq (dead_not_mem_of_runs htotal hnew rfl run)
      by_cases hlife : s.lifecycle = .stopped
      · rw [if_pos hlife] at hadmission
        simp [State.acceptedBy, State.enqueue, hadmission, State.offeredBy, hlife]
      · obtain ⟨front, lost, hintake⟩ := Intake.of_runs hnew rfl run
        have htaken := hintake.length_pulled_add_le
        rw [← accepted_eq hnew run, hbefore] at htaken
        rw [State.offeredBy, if_neg hlife, List.length_singleton,
          ← capacity_of_runs hnew run] at hfew
        have hroom : s.queue.length < s.capacity := by omega
        rw [if_neg hlife, if_pos hroom] at hadmission
        rw [State.acceptedBy, State.offeredBy, if_neg hlife]
        simp only [State.enqueue, hadmission]
    | _ => rfl

end Few

/-! ### The statement -/

/-- What a reader that keeps pace gets in a run of the pool `start` with a policy that is seen as
the function `judge` of jobs. -/
structure Sequential {β : Type} (seen : Verdict → β) (judge : Job → β) (policy : Policy)
    (start : State) (as : List Action) (s : State) (notes : List Note) : Prop where
  /-- No verdict was dropped. -/
  dropped : dropped notes = []
  /-- The log has no warning about one. -/
  warnings : dropWarnings notes = []
  /-- When a call of `stop` of the pool that was started has returned, every accepted job was taken,
  the verdicts that were received and those in the channel are as many, and they are those that
  judging the accepted jobs in order gives, each job once and with the time that it was given. -/
  results : ∀ id, .started ∈ notes → IsStop as id → .returned id ∈ notes →
    (pullTimes as).length = (start.accepted policy as).length ∧
      (start.collected policy as ++ s.channel).length = (start.accepted policy as).length ∧
      ((start.collected policy as ++ s.channel).map seen).Perm
        ((List.zipWith Job.stamp (start.accepted policy as) (pullTimes as)).map judge)

/-- **A sequential map.** After every run of a new pool whose receiving end of the channel was not
thrown away, with any number of workers and whatever the clients and the scheduler did: if the reader
keeps pace, judging was a map over the accepted jobs. It does so whenever no more jobs are offered
than the queue takes, and then all of them are accepted. -/
theorem sequential_of_run {β : Type} {policy : Policy} {seen : Verdict → β} {judge : Job → β}
    (hjudge : ∀ now j, (policy now j).map seen = some (judge j)) {workers capacity : Nat}
    {as : List Action} {s : State} {notes : List Note}
    (hrun : (State.new workers capacity).run policy as = some (s, notes))
    (hkept : s.reader ≠ .gone) :
    (KeepsPace policy (State.new workers capacity) as →
      Sequential seen judge policy (State.new workers capacity) as s notes) ∧
    (((State.new workers capacity).offered policy as).length ≤
        (State.new workers capacity).capacity →
      (State.new workers capacity).accepted policy as =
          (State.new workers capacity).offered policy as ∧
        Sequential seen judge policy (State.new workers capacity) as s notes) := by
  have hnew : (State.new workers capacity).Coupled := .of_new workers capacity
  have hruns := State.run_iff.1 hrun
  have htotal (now : Timestamp) (j : Job) : policy now j ≠ none := by
    intro hnone
    have hsome := hjudge now j
    rw [hnone] at hsome
    simp at hsome
  have hmain (hpace : KeepsPace policy (State.new workers capacity) as) :
      Sequential seen judge policy (State.new workers capacity) as s notes := by
    have hdropped := dropped_eq_nil htotal hruns hpace hkept
    have hverdicts := (Bench.of_runs hnew (fun _ ↦ rfl) hruns).verdicts_eq htotal
    have hplaced := verdicts_perm_of_kept hruns hkept hdropped
    refine ⟨hdropped, by rw [dropWarnings_eq, hdropped, List.map_nil], ?_⟩
    intro id hstarted hid hreturned
    obtain ⟨htimes, hjudged⟩ := judged_of_returned htotal hruns hstarted hid hreturned
    -- What is seen of the verdicts is what `judge` says about the jobs that were judged.
    have hseen : (verdicts notes).map seen =
        (((State.new workers capacity).judgements policy as).map Judgement.job).map judge := by
      have hsome := congrArg (List.map (Option.map seen)) hverdicts
      rw [List.map_map, List.map_map] at hsome
      refine List.map_injective_iff.2 (fun _ _ ↦ Option.some.inj) ?_
      rw [List.map_map, List.map_map, List.map_map]
      refine hsome.trans (List.map_congr_left fun g _ ↦ ?_)
      exact hjudge g.time g.job
    have hresults : ((State.new workers capacity).collected policy as ++ s.channel).map seen |>.Perm
        ((List.zipWith Job.stamp ((State.new workers capacity).accepted policy as)
          (pullTimes as)).map judge) := by
      have hback := (hplaced.map seen).symm
      rw [hseen] at hback
      exact hback.trans (hjudged.map judge).symm
    refine ⟨htimes, ?_, hresults⟩
    have hlength := hresults.length_eq
    rwa [List.length_map, List.length_map, List.length_zipWith, htimes, Nat.min_self] at hlength
  refine ⟨hmain, fun hfew ↦ ?_⟩
  have hoffered := accepted_eq_offered htotal hruns hfew
  refine ⟨hoffered, hmain ?_⟩
  -- There were never more accepted jobs than at the end, and those are few.
  rintro before j t past ⟨after, rfl⟩ - -
  have hpart : (State.new workers capacity).accepted policy (before ++ [.enqueue j]) <+:
      (State.new workers capacity).accepted policy (before ++ [.enqueue j] ++ after) :=
    collect_isPrefix _ _ _ _ _
  have hle := hpart.length_le
  rw [hoffered] at hle
  exact Nat.le_trans (Nat.le_trans hle hfew) (Nat.le_add_left _ _)

/-- A run in which the reader takes a verdict in time for the next job, and the channel is full at
the end. -/
def sampleTurns : List Action :=
  [.takeResults, .issue ⟨0, .start⟩, .enqueue (sampleJob "a"), .step (.arrive 1) .epoch,
    .step (.pull 1) .epoch, .step (.judge 1) .epoch, .receive, .enqueue (sampleJob "b"),
    .step (.arrive 0) .epoch, .issue ⟨1, .stop⟩, .step (.pull 0) .epoch, .step (.arrive 1) .epoch,
    .step (.judge 0) .epoch, .step (.leave 1) .epoch, .step (.arrive 0) .epoch,
    .step (.leave 0) .epoch, .step .resume .epoch, .step .resume .epoch, .step .resume .epoch]

/-- A run in which two workers finish in the other order while nobody reads. -/
def sampleBurst : List Action :=
  [.enqueue (sampleJob "a"), .enqueue (sampleJob "b"), .issue ⟨0, .start⟩,
    .step (.arrive 0) .epoch, .step (.arrive 1) .epoch, .step (.pull 0) .epoch,
    .step (.pull 1) .epoch, .issue ⟨1, .stop⟩, .enqueue (sampleJob "c"), .step (.judge 1) .epoch,
    .step (.judge 0) .epoch, .step (.arrive 0) .epoch, .step (.arrive 1) .epoch,
    .step (.leave 0) .epoch, .step (.leave 1) .epoch, .step .resume .epoch, .step .resume .epoch,
    .step .resume .epoch]

theorem sequential_of_run_sample :
    (∀ now j, (samplePolicy now j).map (fun v ↦ (v.job, v.decision)) = some (j, .approved)) ∧
    (∃ s notes, (State.new 2 1).run samplePolicy sampleTurns = some (s, notes) ∧
      s.reader ≠ .gone ∧ KeepsPace samplePolicy (State.new 2 1) sampleTurns ∧
      (.started ∈ notes ∧ IsStop sampleTurns 1 ∧ .returned 1 ∈ notes) ∧
      (State.new 2 1).collected samplePolicy sampleTurns ++ s.channel =
        [sampleVerdict "a", sampleVerdict "b"] ∧
      Sequential (fun v ↦ (v.job, v.decision)) (·, .approved) samplePolicy (State.new 2 1)
        sampleTurns s notes) ∧
    ∃ s notes, (State.new 2 2).run samplePolicy sampleBurst = some (s, notes) ∧
      s.reader ≠ .gone ∧
      ((State.new 2 2).offered samplePolicy sampleBurst).length ≤ (State.new 2 2).capacity ∧
      (.started ∈ notes ∧ IsStop sampleBurst 1 ∧ .returned 1 ∈ notes) ∧
      s.channel = [sampleVerdict "b", sampleVerdict "a"] ∧
      (State.new 2 2).accepted samplePolicy sampleBurst =
        (State.new 2 2).offered samplePolicy sampleBurst ∧
      Sequential (fun v ↦ (v.job, v.decision)) (·, .approved) samplePolicy (State.new 2 2)
        sampleBurst s notes := by
  have hjudge (now : Timestamp) (j : Job) :
      (samplePolicy now j).map (fun v ↦ (v.job, v.decision)) = some (j, .approved) := rfl
  have hstop {as : List Action} (has : as = sampleTurns ∨ as = sampleBurst) : IsStop as 1 := by
    intro call hcall hid
    rcases has with rfl | rfl
    all_goals
      simp only [sampleTurns, sampleBurst, List.mem_cons, Action.issue.injEq, reduceCtorEq,
        false_or, List.not_mem_nil, or_false] at hcall
      rcases hcall with rfl | rfl
      · simp at hid
      · rfl
  refine ⟨hjudge, ?_, ?_⟩
  · have hrun : ∃ s notes, (State.new 2 1).run samplePolicy sampleTurns = some (s, notes) ∧
        s.reader = .taken ∧ .started ∈ notes ∧ .returned 1 ∈ notes ∧
        (State.new 2 1).collected samplePolicy sampleTurns ++ s.channel =
          [sampleVerdict "a", sampleVerdict "b"] :=
      ⟨_, _, rfl, rfl, by decide, by decide, rfl⟩
    obtain ⟨s, notes, hrun, htaken, hstarted, hreturned, hresults⟩ := hrun
    have hkept : s.reader ≠ .gone := by simp [htaken]
    have hpace : KeepsPace samplePolicy (State.new 2 1) sampleTurns :=
      keepsPace_of_take (by decide)
    exact ⟨s, notes, hrun, hkept, hpace, ⟨hstarted, hstop (.inl rfl), hreturned⟩, hresults,
      (sequential_of_run hjudge hrun hkept).1 hpace⟩
  · have hrun : ∃ s notes, (State.new 2 2).run samplePolicy sampleBurst = some (s, notes) ∧
        s.reader = .untaken ∧ .started ∈ notes ∧ .returned 1 ∈ notes ∧
        s.channel = [sampleVerdict "b", sampleVerdict "a"] :=
      ⟨_, _, rfl, rfl, by decide, by decide, rfl⟩
    obtain ⟨s, notes, hrun, huntaken, hstarted, hreturned, hresults⟩ := hrun
    have hkept : s.reader ≠ .gone := by simp [huntaken]
    have hfew : ((State.new 2 2).offered samplePolicy sampleBurst).length ≤
        (State.new 2 2).capacity := by decide
    exact ⟨s, notes, hrun, hkept, hfew, ⟨hstarted, hstop (.inr rfl), hreturned⟩, hresults,
      (sequential_of_run hjudge hrun hkept).2 hfew⟩

end Conveyor.Moderation.Pool
