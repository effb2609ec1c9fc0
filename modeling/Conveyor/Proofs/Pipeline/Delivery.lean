import Conveyor.Proofs.Pipeline.Moves

/-!
# Delivery in order

What the sinks of a pipeline are given, over every run and every schedule. The main statement is
`delivery_of_run`: the calls of sinks are, in order, those of the admitted events, each offered to
every registered sink, with nothing left out so far and nothing added; faults of sinks change
nothing about them, and each fault is one record in the log.

## A balance of calls

The invariant is `Ledger.balance`: the calls that were made, the calls that are still to be made for
what the task and the queue hold, and the calls that were lost make up all deliveries together.
Every move shifts calls from one of these to the next. Calls are lost only with a task that dies and
with a queue that is thrown away before the start, so nothing is lost otherwise
(`State.IsLossless`).

Which events were admitted and which sinks were registered is read off the *answers* that clients
got (`accepted`, `enlisted`), not off the history.
-/

namespace Conveyor.Pipeline

variable {σ : Type}

/-- Every event of a list, offered to every sink. -/
def deliveries (sinks : List σ) (es : List Event) : List (σ × Event) :=
  es.flatMap fun e ↦ sinks.map (·, e)

@[simp] theorem deliveries_nil (sinks : List σ) : deliveries sinks [] = [] := rfl

@[simp] theorem deliveries_cons (sinks : List σ) (e : Event) (es : List Event) :
    deliveries sinks (e :: es) = sinks.map (·, e) ++ deliveries sinks es := rfl

@[simp] theorem deliveries_append (sinks : List σ) (es fs : List Event) :
    deliveries sinks (es ++ fs) = deliveries sinks es ++ deliveries sinks fs :=
  List.flatMap_append

/-! ### Answers to clients -/

namespace State

/-- The event that was offered and answered with `ok`, unless it is one that is left out. -/
def acceptedBy (s : State σ) : Action σ → List Event
  | .enqueue e =>
    match (s.enqueue e).1 with
    | .ok () => if e.level < s.minLevel then [] else [e]
    | .error _ => []
  | _ => []

/-- The sink that was offered and answered with `ok`. -/
def enlistedBy (s : State σ) : Action σ → List σ
  | .register sink =>
    match (s.register sink).1 with
    | .ok () => [sink]
    | .error _ => []
  | _ => []

/-- The events of at least the minimum level that were answered with `ok` in a run. -/
def accepted (s : State σ) (as : List (Action σ)) : List Event := collect act acceptedBy s as

/-- The sinks whose registration was answered with `ok` in a run. -/
def enlisted (s : State σ) (as : List (Action σ)) : List σ := collect act enlistedBy s as

end State

section Answers

variable {s t : State σ} {a : Action σ} {as : List (Action σ)} {notes new : List (Note σ)}

theorem Move.acceptedBy_eq (h : Move s a t new) : s.acceptedBy a = admitted new := by
  cases a with
  | enqueue e => cases h <;> simp_all [State.acceptedBy, State.enqueue, State.beginning?]
  | _ => cases h <;> simp_all [State.acceptedBy]

theorem Move.enlistedBy_eq (h : Move s a t new) : s.enlistedBy a = registered new := by
  cases a with
  | register sink =>
    cases h with
    | register created => simp [State.enlistedBy, State.register, created]
    | keepOut late =>
      rcases hlife : s.lifecycle with - | - | -
      · exact absurd hlife late
      all_goals simp [State.enlistedBy, State.register, hlife]
    | start begun | passBy begun | close begun | discard begun =>
      simp [State.beginning?] at begun
  | _ => cases h <;> simp_all [State.enlistedBy]

/-- The answers tell which events entered the queue. -/
theorem accepted_eq (hs : s.Coupled) (h : Runs State.act s as t notes) :
    s.accepted as = admitted notes :=
  h.collect_eq fun run act_eq ↦ ((hs.of_runs run).move act_eq).acceptedBy_eq

/-- The answers tell which sinks were registered. -/
theorem enlisted_eq (hs : s.Coupled) (h : Runs State.act s as t notes) :
    s.enlisted as = registered notes :=
  h.collect_eq fun run act_eq ↦ ((hs.of_runs run).move act_eq).enlistedBy_eq

end Answers

/-! ### The balance of calls -/

namespace State

/-- The calls that are still to be made for what the task and the queue hold. -/
def remaining (s : State σ) : List (σ × Event) :=
  match s.task with
  | .unborn => deliveries s.sinks s.queue
  | .idle sinks => deliveries sinks s.queue
  | .calling sinks e _ rest => rest.map (·, e) ++ deliveries sinks s.queue
  | _ => []

/-- No event was lost: the task has not died, and the pipeline was not stopped before its start. -/
def IsLossless (s : State σ) : Prop :=
  s.task ≠ .failed ∧ (s.lifecycle = .stopped → s.task ≠ .unborn)

/-- Turning to the sinks that are left makes the first of the calls that remain. -/
theorem calls_callNext_append_remaining (s : State σ) (sinks : List σ) (e : Event)
    (rest : List σ) (queue : List Event) :
    calls (callNext e rest) ++
        ({ s with queue, task := .turnTo sinks e rest } : State σ).remaining =
      rest.map (·, e) ++ deliveries sinks queue := by
  cases rest <;> rfl

/-- An event that is admitted adds its deliveries to what remains. -/
theorem remaining_accept {s : State σ} (hs : s.Coupled) (htaken : s.admission = .ok ())
    (e : Event) :
    ({ s with queue := s.queue ++ [e] } : State σ).remaining =
      s.remaining ++ deliveries s.sinks [e] := by
  obtain ⟨-, hreceives, -⟩ := admission_eq_ok_iff.1 htaken
  have hsinks := hs.sinks
  have hover := mt hs.not_receives_of_isOver (by simp [hreceives])
  cases htask : s.task <;>
    simp_all [remaining, Task.sinks?, Task.isOver]

/-- As long as events are admitted, none was lost. -/
theorem isLossless_of_admission {s : State σ} (hs : s.Coupled) (htaken : s.admission = .ok ()) :
    s.IsLossless := by
  obtain ⟨-, hreceives, -⟩ := admission_eq_ok_iff.1 htaken
  refine ⟨fun hfailed ↦ ?_, fun hstopped ↦ absurd htaken (hs.admission_ne_ok hstopped)⟩
  have hgone := hs.not_receives_of_isOver (by simp [hfailed, Task.isOver])
  simp [hgone] at hreceives

end State

/-- What the history of a run says about the state after it. -/
structure Ledger (s : State σ) (notes : List (Note σ)) : Prop where
  /-- The sinks are those that were registered. -/
  sinks : registered notes = s.sinks
  /-- Before the start every admitted event is in the queue. -/
  created : s.lifecycle = .created → admitted notes = s.queue
  /-- Without a task nothing was called. -/
  unborn : s.task = .unborn → calls notes = []
  /-- The calls that were made, that remain and that were lost are all there are to make. -/
  balance : ∃ lost, calls notes ++ s.remaining ++ lost = deliveries s.sinks (admitted notes) ∧
    (s.IsLossless → lost = [])

namespace Ledger

variable {s t : State σ} {a : Action σ} {as : List (Action σ)} {notes new : List (Note σ)}

/-- A new pipeline without history. -/
theorem of_new (capacity : Nat) (minLevel : Level) :
    Ledger (State.new capacity minLevel : State σ) [] where
  sinks := rfl
  created _ := rfl
  unborn _ := rfl
  balance := ⟨[], rfl, fun _ ↦ rfl⟩

/-- Nothing was lost, so the calls made and the calls that remain are all. -/
theorem balance_of_isLossless (hl : Ledger s notes) (hlossless : s.IsLossless) :
    calls notes ++ s.remaining = deliveries s.sinks (admitted notes) := by
  obtain ⟨lost, hbalance, hlost⟩ := hl.balance
  rwa [hlost hlossless, List.append_nil] at hbalance

/-- A move that adds nothing to the history and to what remains. -/
theorem of_quiet (hl : Ledger s notes) (hsinks : t.sinks = s.sinks)
    (hcreated : t.lifecycle = .created → s.lifecycle = .created) (hqueue : t.queue = s.queue)
    (hunborn : t.task = .unborn → s.task = .unborn)
    (hremaining : t.remaining = s.remaining) (hlossless : t.IsLossless → s.IsLossless)
    (hnew : calls new = [] ∧ admitted new = [] ∧ registered new = []) :
    Ledger t (notes ++ new) := by
  obtain ⟨hcalls, hadmitted, hregistered⟩ := hnew
  obtain ⟨lost, hbalance, hlost⟩ := hl.balance
  exact {
    sinks := by simp [hregistered, hl.sinks, hsinks]
    created := fun h ↦ by simp [hadmitted, hl.created (hcreated h), hqueue]
    unborn := fun h ↦ by simp [hcalls, hl.unborn (hunborn h)]
    balance := ⟨lost, by simpa [hcalls, hadmitted, hremaining, hsinks] using hbalance,
      fun h ↦ hlost (hlossless h)⟩ }

/-- The task turns to the sinks that are left, which makes a call that remained. -/
theorem of_turnTo (hs : s.Coupled) (hl : Ledger s notes) (halive : s.task.isAlive = true)
    {sinks rest : List σ} {e : Event} {queue : List Event}
    (hremaining : s.remaining = rest.map (·, e) ++ deliveries sinks queue) (answers : List (Note σ))
    (hanswers : calls answers = [] ∧ admitted answers = [] ∧ registered answers = []) :
    Ledger { s with queue, task := .turnTo sinks e rest }
      (notes ++ (answers ++ callNext e rest)) := by
  obtain ⟨hcalls, hadmitted, hregistered⟩ := hanswers
  have hborn : s.task ≠ .unborn := Task.ne_unborn_of_isAlive halive
  have hlossless : s.IsLossless := ⟨by rintro h; simp [h, Task.isAlive] at halive, fun _ ↦ hborn⟩
  have hbalance := hl.balance_of_isLossless hlossless
  rw [hremaining, ← s.calls_callNext_append_remaining] at hbalance
  exact {
    sinks := by simp [hregistered, hl.sinks]
    created := fun h ↦ absurd h (hs.started hborn)
    unborn := fun h ↦ absurd h (Task.ne_unborn_of_isAlive (by simp))
    balance := ⟨[], by simpa [hcalls, hadmitted] using hbalance, fun _ ↦ rfl⟩ }

/-- Every move keeps the balance. -/
theorem of_move (hs : s.Coupled) (hl : Ledger s notes) (h : Move s a t new) :
    Ledger t (notes ++ new) := by
  cases h with
  | @register sink created =>
    have hunborn : s.task = .unborn := (hs.created created).2.2
    have hcalls : calls notes = [] := hl.unborn hunborn
    have hadmitted : admitted notes = s.queue := hl.created created
    exact {
      sinks := by simp [hl.sinks]
      created := fun _ ↦ by simp [hadmitted]
      unborn := fun _ ↦ by simp [hcalls]
      balance := ⟨[], by simp [hcalls, hadmitted, State.remaining, hunborn], fun _ ↦ rfl⟩ }
  | keepOut => exact hl.of_quiet rfl id rfl id rfl id (by simp)
  | passOver => exact hl.of_quiet rfl id rfl id rfl id (by simp)
  | @accept e high taken =>
    have hbalance := hl.balance_of_isLossless (State.isLossless_of_admission hs taken)
    exact {
      sinks := by simp [hl.sinks]
      created := fun h ↦ by simp [hl.created h]
      unborn := fun h ↦ by simp [hl.unborn h]
      balance := ⟨[], by simp [State.remaining_accept hs taken, ← hbalance], fun _ ↦ rfl⟩ }
  | refuse => exact hl.of_quiet rfl id rfl id rfl id (by simp)
  | wait => exact hl.of_quiet rfl id rfl id rfl id (by simp)
  | start begun request created =>
    have hunborn : s.task = .unborn := (hs.created created).2.2
    refine hl.of_quiet rfl (fun _ ↦ created) rfl (fun _ ↦ hunborn) ?_ (fun _ ↦ ?_) (by simp)
    · simp [State.remaining, hunborn]
    · exact ⟨by simp [hunborn], by simp [created]⟩
  | passBy => exact hl.of_quiet rfl id rfl id rfl id (by simp)
  | close begun request running =>
    refine hl.of_quiet rfl (by simp) rfl id rfl (fun h ↦ ⟨h.1, ?_⟩) (by simp)
    simp [running]
  | discard begun request created =>
    have hunborn : s.task = .unborn := (hs.created created).2.2
    have hcalls : calls notes = [] := hl.unborn hunborn
    exact {
      sinks := by simp [hl.sinks]
      created := by simp
      unborn := fun _ ↦ by simp [hcalls]
      balance := ⟨deliveries s.sinks (admitted notes),
        by simp [hcalls, State.remaining, hunborn], fun h ↦ absurd hunborn (h.2 rfl)⟩ }
  | pull idle next =>
    exact of_turnTo hs hl (by simp [idle, Task.isAlive])
      (by simp [State.remaining, idle, next]) [] (by simp)
  | @reply sinks e sink rest r calling alive =>
    exact of_turnTo hs hl (by simp [calling, Task.isAlive])
      (by simp [State.remaining, calling]) [.replied sink e r] (by simp)
  | die calling =>
    have hborn : s.task ≠ .unborn := by simp [calling]
    obtain ⟨lost, hbalance, -⟩ := hl.balance
    exact {
      sinks := by simp [hl.sinks]
      created := fun h ↦ absurd h (hs.started hborn)
      unborn := by simp
      balance := ⟨s.remaining ++ lost, by simpa [State.remaining] using hbalance,
        fun h ↦ absurd rfl h.1⟩ }
  | finish idle empty closed =>
    refine hl.of_quiet rfl id rfl (by simp) ?_ (fun _ ↦ ⟨by simp [idle], by simp [idle]⟩) (by simp)
    simp [State.remaining, idle, empty]
  | finishCall => exact hl.of_quiet rfl id rfl id rfl id (by simp)
  | reportDeath => exact hl.of_quiet rfl id rfl id rfl id (by simp)

/-- A run keeps the balance. -/
theorem after_runs (hs : s.Coupled) (hl : Ledger s notes) (h : Runs State.act s as t new) :
    Ledger t (notes ++ new) := by
  refine hs.runs_induction h (motive := fun _ t new ↦ Ledger t (notes ++ new)) ?_ ?_
  · rwa [List.append_nil]
  · intro as t new a u later ht hmove ih
    rw [← List.append_assoc]
    exact of_move ht ih hmove

/-- The balance holds after every run. -/
theorem of_runs (capacity : Nat) (minLevel : Level)
    (h : Runs State.act (State.new capacity minLevel) as t notes) : Ledger t notes :=
  (of_new capacity minLevel).after_runs (.of_new capacity minLevel) h

/-- The calls that were made are the first of those there are to make. -/
theorem calls_isPrefix (hl : Ledger s notes) :
    calls notes <+: deliveries s.sinks (admitted notes) := by
  obtain ⟨lost, hbalance, -⟩ := hl.balance
  exact ⟨s.remaining ++ lost, by rw [← hbalance, List.append_assoc]⟩

end Ledger

/-! ### Answers of sinks -/

namespace Action

/-- The answer of a sink that an action brings. -/
@[simp] def reply? : Action σ → Option Sink.Reply
  | .step (.reply r) => some r
  | _ => none

/-- The same action, where a sink that fails delivers. -/
def mended : Action σ → Action σ
  | .step (.reply (.failed _)) => .step (.reply .delivered)
  | a => a

end Action

/-- The answers of sinks in a run, in order. -/
abbrev replies (as : List (Action σ)) : List Sink.Reply := extract Action.reply? as

/-- A call that gets to work brings no answer of a sink. -/
theorem replies_append_of_beginning {s : State σ} {a : Action σ} {call : Call}
    (h : s.beginning? a = some call) (as : List (Action σ)) :
    replies (as ++ [a]) = replies as := by
  unfold State.beginning? at h
  split at h <;> simp_all

/-- The call of a sink that waits for its answer. -/
def Task.outstanding : Task σ → List (σ × Event)
  | calling _ e sink _ => [(sink, e)]
  | _ => []

theorem Task.outstanding_turnTo (sinks : List σ) (e : Event) (rest : List σ) :
    (turnTo sinks e rest).outstanding = calls (callNext e rest) := by
  cases rest <;> rfl

/-- What the log says about the answer to a call of a sink. -/
def complaint (name : σ → String) : (σ × Event) × Sink.Reply → Option Record
  | ((sink, e), .failed fault) =>
    some (.failure "Log sink error"
      [("sink", name sink), ("source", e.source), ("error", fault.message)])
  | _ => none

/-- The records of a history about sinks that failed. -/
def sinkErrors (name : σ → String) (notes : List (Note σ)) : List Record :=
  (notes.flatMap (Note.records name)).filter (·.message == "Log sink error")

section Replies

variable (name : σ → String)

@[simp] theorem sinkErrors_nil : sinkErrors name [] = [] := rfl

@[simp] theorem sinkErrors_append (notes later : List (Note σ)) :
    sinkErrors name (notes ++ later) = sinkErrors name notes ++ sinkErrors name later := by
  simp [sinkErrors]

@[simp] theorem sinkErrors_callNext (e : Event) (rest : List σ) :
    sinkErrors name (callNext e rest) = [] := by
  cases rest <;> rfl

theorem sinkErrors_replied (sink : σ) (e : Event) (r : Sink.Reply) (notes : List (Note σ)) :
    sinkErrors name (.replied sink e r :: notes) =
      (complaint name ((sink, e), r)).toList ++ sinkErrors name notes := by
  cases r <;> simp [sinkErrors, complaint, Note.records, Record.failure]

/-- Every call has been answered but the one that waits, and every fault has left its record. -/
def Answered (as : List (Action σ)) (s : State σ) (notes : List (Note σ)) : Prop :=
  ∃ answered, calls notes = answered ++ s.task.outstanding ∧
    answered.length = (replies as).length ∧
    sinkErrors name notes = (answered.zip (replies as)).filterMap (complaint name)

variable {name} {s t : State σ} {a : Action σ} {as : List (Action σ)} {notes new : List (Note σ)}

/-- A move that brings no answer and makes no call. -/
theorem Answered.of_quiet (ha : Answered name as s notes)
    (hreplies : replies (as ++ [a]) = replies as)
    (htask : t.task.outstanding = s.task.outstanding) (hcalls : calls new = [])
    (herrors : sinkErrors name new = []) : Answered name (as ++ [a]) t (notes ++ new) := by
  obtain ⟨answered, hanswered, hlength, hrecords⟩ := ha
  refine ⟨answered, ?_, ?_, ?_⟩
  · simp only [calls, extract_append] at hanswered hcalls ⊢
    rw [hcalls, htask, hanswered, List.append_nil]
  · rw [hreplies, hlength]
  · rw [sinkErrors_append, herrors, hreplies, hrecords, List.append_nil]

/-- The sink that was called answers, and the task goes on. -/
theorem Answered.of_reply (ha : Answered name as s notes) {sinks rest : List σ} {sink : σ}
    {e : Event} {r : Sink.Reply} {later : List (Note σ)}
    (hcalling : s.task = .calling sinks e sink rest) (htask : t.task.outstanding = calls later)
    (herrors : sinkErrors name later = []) :
    Answered name (as ++ [.step (.reply r)]) t (notes ++ .replied sink e r :: later) := by
  obtain ⟨answered, hanswered, hlength, hrecords⟩ := ha
  refine ⟨answered ++ [(sink, e)], ?_, ?_, ?_⟩
  · rw [hcalling] at hanswered
    have hcalls : calls (notes ++ .replied sink e r :: later) = calls notes ++ calls later := by
      simp
    rw [hcalls, hanswered, htask]
    rfl
  · simp [hlength]
  · have hzip : (answered ++ [(sink, e)]).zip (replies (as ++ [.step (.reply r)])) =
        answered.zip (replies as) ++ [((sink, e), r)] := by
      simp [replies, List.zip_append hlength]
    rw [hzip, List.filterMap_append, ← hrecords, sinkErrors_append, sinkErrors_replied, herrors]
    cases hcomplaint : complaint name ((sink, e), r) <;> simp [hcomplaint]

/-- Every move keeps account of the answers. -/
theorem Answered.of_move (hs : s.Coupled) (ha : Answered name as s notes) (h : Move s a t new) :
    Answered name (as ++ [a]) t (notes ++ new) := by
  cases h with
  | register => exact ha.of_quiet (by simp) rfl (by simp) rfl
  | keepOut => exact ha.of_quiet (by simp) rfl (by simp) rfl
  | passOver => exact ha.of_quiet (by simp) rfl (by simp) rfl
  | accept => exact ha.of_quiet (by simp) rfl (by simp) rfl
  | refuse => exact ha.of_quiet (by simp) rfl (by simp) rfl
  | wait => exact ha.of_quiet (by simp) rfl (by simp) rfl
  | start begun request created =>
    have hunborn : s.task = .unborn := (hs.created created).2.2
    exact ha.of_quiet (replies_append_of_beginning begun as) (by simp [hunborn, Task.outstanding])
      (by simp) rfl
  | passBy begun => exact ha.of_quiet (replies_append_of_beginning begun as) rfl (by simp) rfl
  | close begun => exact ha.of_quiet (replies_append_of_beginning begun as) rfl (by simp) rfl
  | discard begun =>
    refine ha.of_quiet (replies_append_of_beginning begun as) rfl (by simp) ?_
    simp [sinkErrors, Note.records, Record.warning]
  | @pull sinks e queue idle next =>
    obtain ⟨answered, hanswered, hlength, hrecords⟩ := ha
    refine ⟨answered, ?_, by simpa using hlength, by simpa using hrecords⟩
    rw [idle] at hanswered
    have hcalls : calls (notes ++ callNext e sinks) = calls notes ++ calls (callNext e sinks) := by
      simp
    have hidle : (Task.idle sinks : Task σ).outstanding = [] := rfl
    rw [hcalls, hanswered, Task.outstanding_turnTo, hidle, List.append_nil]
  | reply calling alive =>
    exact ha.of_reply calling (Task.outstanding_turnTo _ _ _) (sinkErrors_callNext name _ _)
  | die calling => exact ha.of_reply calling rfl rfl
  | finish idle => exact ha.of_quiet (by simp) (by simp [idle, Task.outstanding]) (by simp) rfl
  | finishCall => exact ha.of_quiet (by simp) rfl (by simp) rfl
  | reportDeath =>
    refine ha.of_quiet (by simp) rfl (by simp) ?_
    simp [sinkErrors, Note.records, Record.failure]

variable (name) in
/-- The answers are accounted for after every run. -/
theorem Answered.of_runs (capacity : Nat) (minLevel : Level)
    (h : Runs State.act (State.new capacity minLevel) as t notes) : Answered name as t notes := by
  refine (State.Coupled.of_new capacity minLevel).runs_induction h
    (motive := fun as t notes ↦ Answered name as t notes) ⟨[], rfl, rfl, rfl⟩ ?_
  intro as t notes a u new ht hmove ih
  exact ih.of_move ht hmove

/-- The answers in a run are to its first calls, and tell which records there are. -/
theorem Answered.sinkErrors_eq (ha : Answered name as s notes) :
    (replies as).length ≤ (calls notes).length ∧
      sinkErrors name notes = ((calls notes).zip (replies as)).filterMap (complaint name) := by
  obtain ⟨answered, hanswered, hlength, hrecords⟩ := ha
  refine ⟨by simp [hanswered, ← hlength], ?_⟩
  have hzip : (answered ++ s.task.outstanding).zip (replies as ++ []) =
      answered.zip (replies as) ++ s.task.outstanding.zip [] := List.zip_append hlength
  rw [List.append_nil, List.zip_nil_right, List.append_nil] at hzip
  rw [hrecords, hanswered, hzip]

end Replies

/-! ### Faults change nothing -/

section Mended

variable {s t : State σ} {a : Action σ} {as : List (Action σ)} {notes new : List (Note σ)}

/-- The task goes on after any answer of a living sink. -/
theorem State.act_reply {sinks rest : List σ} {e : Event} {sink : σ} {r : Sink.Reply}
    (hcalling : s.task = .calling sinks e sink rest) (halive : r ≠ .died) :
    s.act (.step (.reply r)) =
      some ({ s with task := .turnTo sinks e rest }, .replied sink e r :: callNext e rest) := by
  cases r <;> simp_all [State.act, State.step, State.deliver_eq]

/-- A sink that delivers instead of failing leads to the same state and the same calls. -/
theorem State.Coupled.act_mended (hs : s.Coupled) (h : s.act a = some (t, new)) :
    ∃ other, s.act a.mended = some (t, other) ∧ calls other = calls new := by
  by_cases hfault : a.mended = a
  · exact ⟨new, by rw [hfault, h], rfl⟩
  · obtain ⟨fault, rfl⟩ : ∃ fault, a = .step (.reply (.failed fault)) := by
      unfold Action.mended at hfault
      split at hfault
      · exact ⟨_, rfl⟩
      · exact absurd rfl hfault
    cases hs.move h with
    | reply calling alive =>
      exact ⟨_, State.act_reply calling (by simp), by simp⟩
    | start begun | passBy begun | close begun | discard begun =>
      simp [State.beginning?] at begun

/-- A run in which no sink fails leads to the same state and the same calls. -/
theorem State.Coupled.runs_mended (hs : s.Coupled) (h : Runs State.act s as t notes) :
    ∃ other, Runs State.act s (as.map Action.mended) t other ∧ calls other = calls notes := by
  induction h with
  | refl => exact ⟨[], .refl, rfl⟩
  | tail run act_eq ih =>
    obtain ⟨other, hother, hcalls⟩ := ih
    obtain ⟨new, hnew, hcalls'⟩ := (hs.of_runs run).act_mended act_eq
    refine ⟨other ++ new, ?_, by simp [hcalls, hcalls']⟩
    rw [List.map_append]
    exact hother.tail hnew

end Mended

/-! ### The statement -/

/-- What the sinks were given in a run of the pipeline `start`, and what the log says about their
answers. -/
structure Delivery (name : σ → String) (start : State σ) (as : List (Action σ)) (s : State σ)
    (notes : List (Note σ)) : Prop where
  /-- The calls so far are the first of all there are: every accepted event, in the order of
  admission, offered to every enlisted sink, in the order of registration. -/
  in_order : calls notes <+: deliveries (start.enlisted as) (start.accepted as)
  /-- As long as nothing was lost, the other ones remain for what the task and the queue hold. -/
  complete : s.IsLossless →
    calls notes ++ s.remaining = deliveries (start.enlisted as) (start.accepted as)
  /-- The calls are the same as if no sink had failed. -/
  mended : ∃ other,
    start.run (as.map Action.mended) = some (s, other) ∧ calls other = calls notes
  /-- The answers are to the first calls. -/
  answered : (replies as).length ≤ (calls notes).length
  /-- The log has one record for each answer that is a fault, in the order of the calls. -/
  errors : sinkErrors name notes = ((calls notes).zip (replies as)).filterMap (complaint name)

/-- **Delivery.** After every run of a new pipeline, whatever the clients and the scheduler did, the
sinks were given the accepted events in order and nothing else. -/
theorem delivery_of_run (name : σ → String) {capacity : Nat} {minLevel : Level}
    {as : List (Action σ)} {s : State σ} {notes : List (Note σ)}
    (hrun : (State.new capacity minLevel).run as = some (s, notes)) :
    Delivery name (State.new capacity minLevel) as s notes := by
  have hnew : (State.new capacity minLevel : State σ).Coupled := .of_new capacity minLevel
  have hruns := State.run_iff.1 hrun
  have hledger := Ledger.of_runs capacity minLevel hruns
  have hanswered := (Answered.of_runs name capacity minLevel hruns).sinkErrors_eq
  have hall : deliveries ((State.new capacity minLevel).enlisted as)
      ((State.new capacity minLevel).accepted as) = deliveries s.sinks (admitted notes) := by
    rw [accepted_eq hnew hruns, enlisted_eq hnew hruns, hledger.sinks]
  obtain ⟨other, hother, hcalls⟩ := hnew.runs_mended hruns
  exact {
    in_order := hall ▸ hledger.calls_isPrefix
    complete := fun hlossless ↦ hall ▸ hledger.balance_of_isLossless hlossless
    mended := ⟨other, State.run_iff.2 hother, hcalls⟩
    answered := hanswered.1
    errors := hanswered.2 }

/-- An event with a given message. -/
def sampleEvent (level : Level) (message : String) : Event :=
  .new "probe" level message .epoch

/-- A run in which an event waits for the start, one is left out, one finds the queue full, a sink
fails, and the pipeline is stopped while a sink has not answered. -/
def sampleRun : List (Action Nat) :=
  [.register 0, .register 1, .enqueue (sampleEvent .info "a"), .enqueue (sampleEvent .debug "b"),
    .enqueue (sampleEvent .info "c"), .issue ⟨0, .start⟩, .step .pull, .register 2,
    .step (.reply (.failed (.status 500))), .enqueue (sampleEvent .warn "d"), .issue ⟨1, .stop⟩,
    .enqueue (sampleEvent .info "e"), .step (.reply .delivered), .step .pull]

theorem delivery_of_run_sample : ∃ s notes,
    (State.new 1 .info).run sampleRun = some (s, notes) ∧
      calls notes =
        [(0, sampleEvent .info "a"), (1, sampleEvent .info "a"), (0, sampleEvent .warn "d")] ∧
      Delivery toString (State.new 1 .info) sampleRun s notes := by
  have hrun : ∃ s notes, (State.new 1 .info).run sampleRun = some (s, notes) ∧ calls notes =
      [(0, sampleEvent .info "a"), (1, sampleEvent .info "a"), (0, sampleEvent .warn "d")] :=
    ⟨_, _, rfl, rfl⟩
  obtain ⟨s, notes, hrun, hcalls⟩ := hrun
  exact ⟨s, notes, hrun, hcalls, delivery_of_run toString hrun⟩

end Conveyor.Pipeline
