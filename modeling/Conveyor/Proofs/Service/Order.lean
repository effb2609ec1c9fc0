import Conveyor.Proofs.Pool.Saturation
import Conveyor.Proofs.Service.Stream

/-!
# One worker keeps the order

A job waits in the queue, goes through the hands of a worker, and its verdict goes through the
channel, the hand of the collector and the store. None of these lets anything overtake but workers
that judge at the same time. So with a single worker verdicts come to clients in the order in which
the jobs were accepted. The main statement is `order_of_run`.

## Fates

Verdicts that are dropped leave gaps, and it takes more than two lists to say which jobs are
missing. A history tells of each judgement what came of it (`Fate`): the verdict, and why it was
dropped if it was. The fates are in the order of the jobs. Those of the kept verdicts are what a
client gets, one after the other, and those of the others are what the log warns about; so the fates
before a job tell how many verdicts a client gets before the one on this job (`place`).
-/

namespace Conveyor.Moderation.Pool

/-- What came of a judgement: the verdict, and why it was dropped, if it was. -/
structure Fate where
  /-- The verdict. -/
  verdict : Verdict
  /-- Why it was dropped, if it was. -/
  reason? : Option DropReason
  deriving DecidableEq

namespace Fate

/-- The verdict was put into the channel. -/
def isKept (f : Fate) : Bool := f.reason?.isNone

/-- The warning about the verdict, if it was dropped. -/
def warning? (f : Fate) : Option Record := f.reason?.map fun why ↦ dropWarning (f.verdict, why)

end Fate

/-- What came of the judgement that a note tells of. -/
def Note.fate? : Note → Option Fate
  | offered _ v => some ⟨v, none⟩
  | dropped _ v why => some ⟨v, some why⟩
  | _ => none

/-- What came of the judgements that gave a verdict, in order. -/
abbrev fates (notes : List Note) : List Fate := extract Note.fate? notes

/-- How many verdicts were kept before the one at place `m`. -/
def place (fs : List Fate) (m : Nat) : Nat := (fs.take m).countP Fate.isKept

section Fates

variable {fs : List Fate} {f : Fate} {m n : Nat}

theorem verdicts_eq_map_fates (notes : List Note) :
    verdicts notes = (fates notes).map Fate.verdict := by
  rw [fates, extract, List.map_filterMap]
  exact List.filterMap_congr fun n _ ↦ by cases n <;> rfl

/-- The verdicts that were put into the channel are the kept ones. -/
theorem kept_eq_map_fates (notes : List Note) :
    kept notes = ((fates notes).filter Fate.isKept).map Fate.verdict := by
  rw [fates, extract, List.filter_filterMap, List.map_filterMap]
  exact List.filterMap_congr fun n _ ↦ by cases n <;> rfl

/-- The log warns about the others, in order. -/
theorem dropWarnings_eq_filterMap (notes : List Note) :
    dropWarnings notes = (fates notes).filterMap Fate.warning? := by
  rw [dropWarnings_eq, dropped, fates, extract, extract, List.map_filterMap,
    List.filterMap_filterMap]
  exact List.filterMap_congr fun n _ ↦ by cases n <;> rfl

/-- A kept verdict comes after those that were kept before it. -/
theorem getElem?_place (hf : fs[m]? = some f) (hkept : f.isKept = true) :
    ((fs.filter Fate.isKept).map Fate.verdict)[place fs m]? = some f.verdict := by
  obtain ⟨hm, hget⟩ := List.getElem?_eq_some_iff.1 hf
  have hsplit : fs.take m ++ f :: fs.drop (m + 1) = fs := by
    rw [← hget, ← List.drop_eq_getElem_cons hm, List.take_append_drop]
  have hkeeps : fs.filter Fate.isKept =
      (fs.take m).filter Fate.isKept ++ f :: (fs.drop (m + 1)).filter Fate.isKept := by
    rw [← List.filter_cons_of_pos hkept, ← List.filter_append, hsplit]
  rw [hkeeps, place, List.countP_eq_length_filter, List.getElem?_map,
    List.getElem?_append_right (Nat.le_refl _), Nat.sub_self]
  rfl

/-- A kept verdict takes one place, and what comes later comes after it. -/
theorem place_lt_place (hf : fs[m]? = some f) (hkept : f.isKept = true) (hlt : m < n) :
    place fs m < place fs n := by
  have hnext : place fs (m + 1) = place fs m + 1 := by
    rw [place, List.take_add_one, hf, List.countP_append]
    show _ + [f].countP Fate.isKept = _
    rw [List.countP_singleton, if_pos hkept, place]
  have hmono : (fs.take (m + 1)).countP Fate.isKept ≤ (fs.take n).countP Fate.isKept :=
    (List.take_sublist_take_left hlt).countP_le
  exact Nat.lt_of_lt_of_le (Nat.lt_of_lt_of_eq (Nat.lt_succ_self _) hnext.symm) hmono

end Fates

end Conveyor.Moderation.Pool

namespace Conveyor.Moderation.Service

open Time
open Pool (Judgement Fate fates place)

variable {policy : Policy} {s t : State} {a : Action} {as : List Action} {notes new : List Note}

/-! ### Seen from the pool -/

/-- The time at which a worker takes a job. -/
@[simp] def Action.pullTime? : Action → Option Timestamp
  | step (.pool (.pull _)) now => some now
  | _ => none

/-- The times at which workers take jobs, in order. -/
abbrev pullTimes (as : List Action) : List Timestamp := extract Action.pullTime? as

namespace State

/-- The job that a client gets into the queue. -/
def acceptedBy (s : State) : Action → List Job
  | .submit j =>
    match (s.submit j).1 with
    | .ok () => [j]
    | .error _ => []
  | _ => []

/-- The jobs that were accepted in a run, in order. -/
def accepted (s : State) (policy : Policy) (as : List Action) : List Job :=
  collect (act · policy) acceptedBy s as

/-- Which job is judged in an action. -/
def judgedBy (s : State) : Action → List Judgement
  | .step (.pool x) now => s.pool.judgedBy (.step x now)
  | _ => []

/-- The jobs that were judged in a run, in order. -/
def judgements (s : State) (policy : Policy) (as : List Action) : List Judgement :=
  collect (act · policy) judgedBy s as

/-- What is read off the pool in an action of the service. -/
def fromPool {α : Type} (read : Pool.State → Pool.Action → List α) (s : State) (a : Action) :
    List α :=
  match a.mirrored? with
  | some b => read s.pool b
  | none => []

theorem acceptedBy_eq_fromPool : acceptedBy = fromPool Pool.State.acceptedBy := by
  funext s a
  cases a with
  | issue id request => cases request <;> rfl
  | step x now => cases x <;> rfl
  | _ => rfl

theorem judgedBy_eq_fromPool : judgedBy = fromPool Pool.State.judgedBy := by
  funext s a
  cases a with
  | issue id request => cases request <;> rfl
  | step x now => cases x <;> rfl
  | _ => rfl

/-- What is read off the pool in a run of the service is read off its run. -/
theorem collect_fromPool {α : Type} (read : Pool.State → Pool.Action → List α)
    (hs : s.pool.Coupled) (hreader : s.pool.reader = .taken)
    (h : Runs (act · policy) s as t notes) :
    collect (act · policy) (fromPool read) s as =
      collect (Pool.State.act · policy) read s.pool (as.filterMap Action.mirrored?) := by
  induction h with
  | refl => rfl
  | @tail as t notes a u new run act_eq ih =>
    obtain ⟨htaken, hruns⟩ := pool_runs hs hreader run
    have hchange := change (hs.of_runs hruns) act_eq
    rw [run.collect_concat, List.filterMap_append, ih, fromPool]
    rcases hchange.mirrored htaken with ⟨b, hb, -⟩ | ⟨hb, -, -⟩
    · rw [hb, List.filterMap_cons_some hb, List.filterMap_nil, hruns.collect_concat]
    · rw [hb, List.filterMap_cons_none hb, List.filterMap_nil, List.append_nil, List.append_nil]

end State

theorem pullTimes_mirrored (as : List Action) :
    Pool.pullTimes (as.filterMap Action.mirrored?) = pullTimes as := by
  show (as.filterMap Action.mirrored?).filterMap Pool.Action.pullTime? = as.filterMap _
  rw [List.filterMap_filterMap]
  refine List.filterMap_congr fun a _ ↦ ?_
  cases a with
  | issue id request => cases request <;> rfl
  | step x now =>
    cases x with
    | pool x => cases x <;> rfl
    | _ => rfl
  | _ => rfl

/-- The log of a service warns of the verdicts that were dropped in its pool. -/
theorem recordsOf_inPool (notes : List Note) :
    recordsOf Note.records "Dropping moderation result" notes =
      Pool.dropWarnings (inPool notes) := by
  induction notes with
  | nil => rfl
  | cons n notes ih =>
    rw [inPool_cons, Pool.dropWarnings, List.flatMap_append, List.filter_append,
      ← Pool.dropWarnings, ← Pool.dropWarnings, ← ih, recordsOf, List.flatMap_cons,
      List.filter_append, ← recordsOf]
    refine congrArg (· ++ _) ?_
    cases n with
    | pool n => exact congrArg _ (List.append_nil n.records).symm
    | _ => rfl

/-! ### The statement -/

/-- The verdicts that can be fetched after a run or were fetched in it, in the order in which
clients get them: those that were fetched, those in the store, the one in the hand of the collector
and those in the channel. -/
def State.retrievable (start : State) (policy : Policy) (as : List Action) (s : State) :
    List Verdict :=
  start.fetched policy as ++ s.store.waiting ++ s.collector.carried ++ s.pool.channel

/-- What clients get from a service with one worker after the run `as` from `start`. -/
structure Ordered (policy : Policy) (start : State) (as : List Action) (s : State)
    (notes : List Note) : Prop where
  /-- The jobs that were judged are those that were accepted first, in order, each with the time at
  which it was taken; the worker has one more in its hands at most. -/
  jobs : List.zipWith Job.stamp (start.accepted policy as) (pullTimes as) =
    (start.judgements policy as).map Judgement.job ++ (s.pool.inHand 0).toList
  /-- Each of them has a fate, with the verdict of the policy. -/
  verdicts : (start.judgements policy as).map (fun g ↦ policy g.time g.job) =
    (fates (inPool notes)).map fun f ↦ some f.verdict
  /-- What can be fetched or was fetched are the kept verdicts, in the order of their jobs. -/
  retrievable : start.retrievable policy as s =
    ((fates (inPool notes)).filter Fate.isKept).map Fate.verdict
  /-- The log has one warning for each of the others, and no other one about a dropped verdict. -/
  warnings : recordsOf Note.records "Dropping moderation result" notes =
    (fates (inPool notes)).filterMap Fate.warning?
  /-- Of two kept verdicts, the one on the job that was accepted first comes first. Both are at
  their places, so it was fetched first if the other one was fetched. -/
  first : ∀ {m n : Nat} {f g : Fate}, m < n →
    (fates (inPool notes))[m]? = some f → f.isKept = true →
    (fates (inPool notes))[n]? = some g → g.isKept = true →
      place (fates (inPool notes)) m < place (fates (inPool notes)) n ∧
        (start.retrievable policy as s)[place (fates (inPool notes)) m]? = some f.verdict ∧
        (start.retrievable policy as s)[place (fates (inPool notes)) n]? = some g.verdict ∧
        (place (fates (inPool notes)) n < (start.fetched policy as).length →
          (start.fetched policy as)[place (fates (inPool notes)) m]? = some f.verdict)

section Statement

variable {capacity : Nat}

/-- The jobs that a single worker has judged are those that were accepted first. -/
theorem jobs_of_runs
    (h : Runs (State.act · policy) (State.ofPool (Pool.State.new 1 capacity)).1 as s notes) :
    List.zipWith Job.stamp ((State.ofPool (Pool.State.new 1 capacity)).1.accepted policy as)
        (pullTimes as) =
      ((State.ofPool (Pool.State.new 1 capacity)).1.judgements policy as).map Judgement.job ++
        (s.pool.inHand 0).toList := by
  have hnew : (State.ofPool (Pool.State.new 1 capacity)).1.pool.Coupled :=
    State.coupled_ofPool (.of_new 1 capacity) rfl
  obtain ⟨-, hruns⟩ := State.pool_runs hnew rfl h
  obtain ⟨front, lost, hintake⟩ := Pool.Intake.of_runs hnew rfl hruns
  have hsingle : ∀ p ∈ Pool.pulled (inPool notes), p.1 = 0 := fun p hp ↦
    Nat.lt_one_iff.1 (Pool.lt_of_mem_pulled hnew hruns p hp)
  have hbench := Pool.Bench.of_runs hnew (fun _ ↦ rfl) hruns
  have hjobs := hintake.pulled_eq
  rw [hbench.pulled_eq_of_single hsingle, ← Pool.accepted_eq hnew hruns,
    pullTimes_mirrored] at hjobs
  rw [State.accepted, State.judgements, State.acceptedBy_eq_fromPool, State.judgedBy_eq_fromPool,
    State.collect_fromPool _ hnew rfl h, State.collect_fromPool _ hnew rfl h]
  exact hjobs.symm

/-- Each job that was judged has a fate. -/
theorem verdicts_of_runs (htotal : ∀ now j, policy now j ≠ none)
    (h : Runs (State.act · policy) (State.ofPool (Pool.State.new 1 capacity)).1 as s notes) :
    ((State.ofPool (Pool.State.new 1 capacity)).1.judgements policy as).map
        (fun g ↦ policy g.time g.job) =
      (fates (inPool notes)).map fun f ↦ some f.verdict := by
  have hnew : (State.ofPool (Pool.State.new 1 capacity)).1.pool.Coupled :=
    State.coupled_ofPool (.of_new 1 capacity) rfl
  obtain ⟨-, hruns⟩ := State.pool_runs hnew rfl h
  have hverdicts := (Pool.Bench.of_runs hnew (fun _ ↦ rfl) hruns).verdicts_eq htotal
  rw [Pool.verdicts_eq_map_fates, List.map_map] at hverdicts
  rw [State.judgements, State.judgedBy_eq_fromPool, State.collect_fromPool _ hnew rfl h]
  exact hverdicts.symm

/-- **One worker keeps the order.** After every run of a service over a new pool with one worker,
whatever the clients, the worker and the collector did, and as long as the policy does not kill the
worker: the verdicts that were fetched and those that can be fetched are those on the jobs that were
judged, in the order in which the jobs were accepted, but for those that the log says were dropped.
-/
theorem order_of_run (htotal : ∀ now j, policy now j ≠ none)
    (hrun : (State.ofPool (Pool.State.new 1 capacity)).1.run policy as = some (s, notes)) :
    Ordered policy (State.ofPool (Pool.State.new 1 capacity)).1 as s notes := by
  have hnew : (State.ofPool (Pool.State.new 1 capacity)).1.pool.Coupled :=
    State.coupled_ofPool (.of_new 1 capacity) rfl
  have hruns := State.run_iff.1 hrun
  have hretrievable : (State.ofPool (Pool.State.new 1 capacity)).1.retrievable policy as s =
      ((fates (inPool notes)).filter Fate.isKept).map Fate.verdict := by
    rw [State.retrievable, fetched_eq hnew rfl hruns, ← kept_eq .refl rfl hruns, List.nil_append,
      Pool.kept_eq_map_fates]
  exact {
    jobs := jobs_of_runs hruns
    verdicts := verdicts_of_runs htotal hruns
    retrievable := hretrievable
    warnings := by rw [recordsOf_inPool, Pool.dropWarnings_eq_filterMap]
    first := fun hlt hf hkept hg hkept' ↦ by
      have hplaces := Pool.place_lt_place hf hkept hlt
      have hfirst := Pool.getElem?_place hf hkept
      rw [← hretrievable] at hfirst
      refine ⟨hplaces, hfirst, hretrievable ▸ Pool.getElem?_place hg hkept', fun hfetched ↦ ?_⟩
      rwa [State.retrievable, List.append_assoc, List.append_assoc,
        List.getElem?_append_left (Nat.lt_trans hplaces hfetched)] at hfirst }

end Statement

/-- Three jobs are judged. The verdict on the second one finds the channel full, and the one on the
first has been fetched when the third is judged. -/
def sampleGap : List Action :=
  let judged (contentId : String) : List Action :=
    [.submit (Pool.sampleJob contentId), .step (.pool (.arrive 0)) .epoch,
      .step (.pool (.pull 0)) .epoch, .step (.pool (.judge 0)) .epoch]
  .issue 0 .start :: judged "a" ++ judged "b" ++
    [.step .collect .epoch, .step .store .epoch, .pop] ++ judged "c"

theorem order_of_run_sample :
    (∀ now j, Pool.samplePolicy now j ≠ none) ∧
    ∃ s notes,
      (State.ofPool (Pool.State.new 1 1)).1.run Pool.samplePolicy sampleGap = some (s, notes) ∧
        fates (inPool notes) = [⟨Pool.sampleVerdict "a", none⟩,
          ⟨Pool.sampleVerdict "b", some .full⟩, ⟨Pool.sampleVerdict "c", none⟩] ∧
        popped notes = [Pool.sampleVerdict "a"] ∧
        s.pool.channel = [Pool.sampleVerdict "c"] ∧
        Ordered Pool.samplePolicy (State.ofPool (Pool.State.new 1 1)).1 sampleGap s notes := by
  have htotal : ∀ now j, Pool.samplePolicy now j ≠ none := fun now j ↦ Option.some_ne_none _
  have hrun : ∃ s notes,
      (State.ofPool (Pool.State.new 1 1)).1.run Pool.samplePolicy sampleGap = some (s, notes) ∧
        fates (inPool notes) = [⟨Pool.sampleVerdict "a", none⟩,
          ⟨Pool.sampleVerdict "b", some .full⟩, ⟨Pool.sampleVerdict "c", none⟩] ∧
        popped notes = [Pool.sampleVerdict "a"] ∧
        s.pool.channel = [Pool.sampleVerdict "c"] := ⟨_, _, rfl, rfl, rfl, rfl⟩
  obtain ⟨s, notes, hrun, hfates, hpopped, hchannel⟩ := hrun
  exact ⟨htotal, s, notes, hrun, hfates, hpopped, hchannel, order_of_run htotal hrun⟩

end Conveyor.Moderation.Service
