import Conveyor.Proofs.Pipeline.Phases
import Conveyor.Proofs.Pool.Phases
import Conveyor.Proofs.Server.Draining

/-!
# The phases of a server

How far the pipeline and the pool of a server have come is told by what its calls have asked of them
(`Phases.stopped_iff`, `Phases.created_iff`). For the pipeline these are all calls that were issued,
but a shutdown comes to the pool only when the pipeline has been drained. So a call has asked for the
stages that it does not still have ahead of it (`WasAsked`).

## A call on its way

While a call goes through its stages it is not listed with those that have not returned, and still
it has stages ahead. `Phases` is therefore about a list of calls that need not be the one in the
state: the call that goes on is put in front of it, with the stages that it has left. A stage that
begins takes one stage off it, and asks its part for just this (`wasAsked_cons_iff`).
-/

namespace Conveyor.Server

open Moderation Time

/-! ### What is asked of the parts -/

/-- A part that is started and stopped. -/
inductive Part where
  /-- The pipeline. -/
  | pipeline
  /-- The pool of the moderation service. -/
  | pool
  deriving DecidableEq, Repr

/-- How far a part has come. -/
def State.lifecycle (s : State) : Part → Lifecycle
  | .pipeline => s.pipeline.lifecycle
  | .pool => s.moderation.pool.lifecycle

/-- What a stage asks of a part. -/
def Stage.asks? : Part → Stage → Option Request
  | .pipeline, .pipeline request => some request
  | .pool, .moderation .start => some .start
  | .pool, .moderation .stopPool => some .stop
  | .pool, .moderation .stop => some .stop
  | _, _ => none

/-- What an action asks of a part. -/
def PartAction.asks? : Part → PartAction → Option Request
  | .pipeline, .pipeline a => a.call?.map Call.request
  | .pool, .moderation a => (a.mirrored?.bind Pool.Action.call?).map Call.request
  | _, _ => none

/-- A call that has not returned has this stage ahead of it. -/
def Ahead (pending : List Pending) (id : Nat) (stage : Stage) : Prop :=
  ∃ p ∈ pending, p.id = id ∧ stage ∈ p.rest

/-- A call that was issued has come to a stage that asks this of the part. -/
def WasAsked (part : Part) (as : List Action) (pending : List Pending) (request : Request) : Prop :=
  ∃ id order stage, .issue id order ∈ as ∧ stage ∈ order.stages ∧
    stage.asks? part = some request ∧ ¬Ahead pending id stage

variable {s t u : State} {id : Nat} {order : Order} {stage : Stage} {stages rest : List Stage}
  {b : PartAction} {ids : List Nat} {a : Action} {as bs : List Action} {news later : List Note}
  {new : List Entry} {past : List Note} {part : Part} {request : Request}
  {pending others : List Pending}

/-- What a stage asks of a part is what its action asks. -/
theorem Stage.asks?_action (stage : Stage) (id : Nat) (part : Part) :
    (stage.action id).asks? part = stage.asks? part := by
  rcases stage with request | request <;> cases part <;> cases request <;> rfl

/-- Nothing is asked of a part in its steps. -/
theorem PartAction.IsStep.asks?_eq_none (h : b.IsStep) : b.asks? part = none := by
  rcases b with (_ | _ | _ | _) | (_ | _ | _ | ⟨_ | _, _⟩)
  all_goals first | exact h.elim | cases part <;> rfl

/-- Nothing is asked of a part when a client sends or fetches something. -/
theorem PartAction.IsRequest.asks?_eq_none (h : b.IsRequest) : b.asks? part = none := by
  rcases b with (_ | _ | _ | _) | (_ | _ | _ | _)
  all_goals first | exact h.elim | cases part <;> rfl

/-- The calls to the pipeline take turns. -/
theorem Reached.inTurn (hs : Reached s) : Pipeline.InTurn s.pipeline := by
  obtain ⟨capacity, minLevel, as, notes, hruns, -⟩ := hs.pipeline
  exact (Pipeline.InTurn.of_new capacity minLevel).of_runs (.of_new capacity minLevel) hruns

/-- A part moves on as it is asked. -/
theorem Acts.lifecycle_eq (hs : Reached s) (h : Acts s b t news) (part : Part) :
    t.lifecycle part = (s.lifecycle part).afterAll (b.asks? part).toList := by
  cases h with
  | @pipeline a pipeline news acts =>
    cases part with
    | pipeline =>
      have hmove := (hs.coupled.move acts).lifecycle_eq hs.inTurn
      rw [requests_singleton, ← Option.toList_map] at hmove
      exact hmove
    | pool => rfl
  | @moderation a moderation news acts =>
    cases part with
    | pipeline => rfl
    | pool =>
      have hchange := Service.State.change hs.sound.coupled acts
      rcases hchange.mirrored hs.reader with ⟨b, hb, hacts⟩ | ⟨hb, hpool, -⟩
      · have hmove := (hs.sound.coupled.change hacts).lifecycle_eq hs.sound.turn
        rw [requests_singleton, ← Option.toList_map] at hmove
        rw [PartAction.asks?, hb]
        exact hmove
      · rw [PartAction.asks?, hb]
        exact congrArg Pool.State.lifecycle hpool

/-! ### Stages ahead -/

theorem ahead_cons_iff {k : Nat} :
    Ahead (⟨id, stages⟩ :: pending) k stage ↔ id = k ∧ stage ∈ stages ∨ Ahead pending k stage := by
  simp [Ahead]

/-- It does not matter in which order the calls are listed. -/
theorem WasAsked.of_mem_iff (h : WasAsked part as pending request)
    (hmem : ∀ p, p ∈ others ↔ p ∈ pending) : WasAsked part as others request := by
  obtain ⟨id, order, stage, hissued, hstage, hasks, hcome⟩ := h
  refine ⟨id, order, stage, hissued, hstage, hasks, fun ⟨p, hp, hahead⟩ ↦ ?_⟩
  exact hcome ⟨p, (hmem p).1 hp, hahead⟩

/-- A call that has no stage ahead may be left out. -/
theorem wasAsked_cons_nil_iff :
    WasAsked part as (⟨id, []⟩ :: pending) request ↔ WasAsked part as pending request := by
  simp only [WasAsked, ahead_cons_iff, List.not_mem_nil, and_false, false_or]

/-- No stage comes twice in an order. -/
theorem Order.nodup_stages (order : Order) : order.stages.Nodup := by
  cases order <;> decide

/-- A call comes to its next stage, and nothing but this stage is asked in addition. -/
theorem wasAsked_cons_iff (hissued : .issue id order ∈ as)
    (hstages : stage :: rest <:+ order.stages) (hgone : ∀ p ∈ pending, p.id ≠ id) :
    WasAsked part as (⟨id, rest⟩ :: pending) request ↔
      WasAsked part as (⟨id, stage :: rest⟩ :: pending) request ∨
        stage.asks? part = some request := by
  simp only [WasAsked, ahead_cons_iff, List.mem_cons]
  constructor
  · rintro ⟨k, other, next, hother, hnext, hasks, hcome⟩
    by_cases hnow : next = stage
    · exact .inr (hnow ▸ hasks)
    · refine .inl ⟨k, other, next, hother, hnext, hasks, fun hahead ↦ hcome ?_⟩
      exact hahead.imp_left (And.imp_right (·.resolve_left hnow))
  · rintro (⟨k, other, next, hother, hnext, hasks, hcome⟩ | hasks)
    · refine ⟨k, other, next, hother, hnext, hasks, fun hahead ↦ hcome ?_⟩
      exact hahead.imp_left (And.imp_right .inr)
    · refine ⟨id, order, stage, hissued, hstages.subset List.mem_cons_self, hasks, ?_⟩
      rintro (⟨-, hmem⟩ | ⟨p, hp, hid, -⟩)
      · exact (List.nodup_cons.1 (order.nodup_stages.sublist hstages.sublist)).1 hmem
      · exact hgone p hp hid

/-- A call whose number is new has asked for nothing when it is issued. -/
theorem wasAsked_issue_iff (hfresh : id ∉ callIds as) :
    WasAsked part (as ++ [.issue id order]) (⟨id, order.stages⟩ :: pending) request ↔
      WasAsked part as pending request := by
  simp only [WasAsked, ahead_cons_iff, not_or, List.mem_append, List.mem_singleton]
  constructor
  · rintro ⟨k, other, stage, hother, hstage, hasks, hnew, hcome⟩
    rcases hother with hold | hnow
    · exact ⟨k, other, stage, hold, hstage, hasks, hcome⟩
    · obtain ⟨rfl, rfl⟩ := Action.issue.inj hnow
      exact absurd ⟨rfl, hstage⟩ hnew
  · rintro ⟨k, other, stage, hother, hstage, hasks, hcome⟩
    refine ⟨k, other, stage, .inl hother, hstage, hasks, ?_, hcome⟩
    rintro ⟨rfl, -⟩
    exact hfresh (mem_callIds.2 ⟨other, hother⟩)

/-- Something was done that is no call. -/
theorem wasAsked_concat_iff (ha : a.callId? = none) :
    WasAsked part (as ++ [a]) pending request ↔ WasAsked part as pending request := by
  have hmem {k : Nat} {other : Order} : .issue k other ∈ as ++ [a] ↔ .issue k other ∈ as := by
    rw [List.mem_append, List.mem_singleton, or_iff_left]
    rintro rfl
    simp at ha
  simp only [WasAsked, hmem]

/-! ### The invariant -/

/-- How far the parts have come is what was asked of them, and a call that has returned has nothing
ahead of it. -/
structure Phases (as : List Action) (s : State) (past : List Note) (pending : List Pending) :
    Prop where
  /-- A part is stopped if and only if that was asked. -/
  stopped_iff : ∀ part, s.lifecycle part = .stopped ↔ WasAsked part as pending .stop
  /-- A part is as it was created if and only if nothing was asked. -/
  created_iff : ∀ part, s.lifecycle part = .created ↔ ∀ request, ¬WasAsked part as pending request
  /-- A call that has returned was issued, and is over. -/
  returned : ∀ id, .returned id ∈ past → id ∈ callIds as ∧ ∀ p ∈ pending, p.id ≠ id

namespace Phases

/-- Something is asked of the parts, or nothing. -/
theorem of_asked (asked : Part → Option Request) (h : Phases as s past pending)
    (hlife : ∀ part, t.lifecycle part = (s.lifecycle part).afterAll (asked part).toList)
    (hasked : ∀ part request, WasAsked part bs others request ↔
      WasAsked part as pending request ∨ asked part = some request)
    (hreturned : ∀ id, .returned id ∈ news → id ∈ callIds bs ∧ ∀ p ∈ others, p.id ≠ id) :
    Phases bs t news others where
  stopped_iff part := by
    rw [hlife, Lifecycle.afterAll_eq_stopped_iff, h.stopped_iff, hasked, Option.mem_toList]
  created_iff part := by
    rw [hlife, Lifecycle.afterAll_eq_created_iff, h.created_iff]
    rcases hnow : asked part with - | request
    · simp [hasked, hnow]
    · simp only [hasked, hnow, Option.toList_some, List.cons_ne_nil, and_false, false_iff]
      exact fun hnone ↦ hnone request (.inr rfl)
  returned := hreturned

/-- The parts are left alone. -/
theorem of_iff (h : Phases as s past pending) (hlife : ∀ part, t.lifecycle part = s.lifecycle part)
    (hasked : ∀ part request, WasAsked part bs others request ↔ WasAsked part as pending request)
    (hreturned : ∀ id, .returned id ∈ news → id ∈ callIds bs ∧ ∀ p ∈ others, p.id ≠ id) :
    Phases bs t news others :=
  h.of_asked (fun _ ↦ none) hlife (by simpa using hasked) hreturned

/-- A part acts that is asked for nothing. -/
theorem of_acts (hs : Reached s) (h : Phases as s past s.pending) (hacts : Acts s b t news)
    (hquiet : ∀ part, b.asks? part = none) : Phases as t (past ++ news) t.pending := by
  rw [hacts.pending_eq]
  refine h.of_iff (fun part ↦ ?_) (fun _ _ ↦ Iff.rfl) fun id hid ↦ ?_
  · rw [hacts.lifecycle_eq hs, hquiet]
    rfl
  · exact h.returned id ((List.mem_append.1 hid).resolve_right (hacts.returned_not_mem id))

/-- A call begins its next stage. -/
theorem of_stage (hs : Reached s) (h : Phases as s past (⟨id, stage :: rest⟩ :: s.pending))
    (hissued : .issue id order ∈ as) (hstages : stage :: rest <:+ order.stages)
    (hgone : ∀ p ∈ s.pending, p.id ≠ id) (hacts : Acts s (stage.action id) t news) :
    Phases as t (past ++ news) (⟨id, rest⟩ :: t.pending) := by
  rw [hacts.pending_eq]
  refine h.of_asked (stage.asks? ·) (fun part ↦ ?_) (fun part request ↦ ?_) fun k hk ↦ ?_
  · rw [hacts.lifecycle_eq hs, stage.asks?_action]
  · exact wasAsked_cons_iff hissued hstages hgone
  · have hbefore := (List.mem_append.1 hk).resolve_right (hacts.returned_not_mem k)
    simpa using h.returned k hbefore

/-- A call goes through its stages. -/
theorem of_goes (hs : Reached s) (h : Phases as s past (⟨id, stages⟩ :: s.pending))
    (hissued : .issue id order ∈ as) (hstages : stages <:+ order.stages)
    (hgone : ∀ p ∈ s.pending, p.id ≠ id) (hgoes : Goes id s stages t news) :
    Phases as t (past ++ news) t.pending := by
  induction hgoes generalizing past with
  | @returns s =>
    refine h.of_iff (fun _ ↦ rfl) (fun _ _ ↦ wasAsked_cons_nil_iff.symm) fun k hk ↦ ?_
    rcases List.mem_append.1 hk with hold | hnow
    · obtain ⟨hk, hover⟩ := h.returned k hold
      exact ⟨hk, fun p hp ↦ hover p (List.mem_cons_of_mem _ hp)⟩
    · obtain rfl := Note.returned.inj (List.mem_singleton.1 hnow)
      exact ⟨mem_callIds.2 ⟨order, hissued⟩, hgone⟩
  | @waits s t stage rest news acts =>
    have hbegun := h.of_stage hs hissued hstages hgone acts
    have hmem (p : Pending) : p ∈ t.pending ++ [⟨id, rest⟩] ↔ p ∈ ⟨id, rest⟩ :: t.pending := by
      rw [List.mem_append, List.mem_singleton, List.mem_cons, or_comm]
    refine hbegun.of_iff (fun part ↦ by cases part <;> rfl) (fun part request ↦ ?_) fun k hk ↦ ?_
    · exact ⟨(·.of_mem_iff fun p ↦ (hmem p).symm), (·.of_mem_iff hmem)⟩
    · obtain ⟨hk, hover⟩ := hbegun.returned k hk
      exact ⟨hk, fun p hp ↦ hover p ((hmem p).1 hp)⟩
  | @passes s t u stage rest news later acts _ _ ih =>
    have hbegun := h.of_stage hs hissued hstages hgone acts
    rw [← List.append_assoc]
    refine ih (hs.of_acts acts) hbegun ((List.suffix_cons _ _).trans hstages) ?_
    rwa [acts.pending_eq]

/-- Calls go on whose stages have returned. -/
theorem of_proceeds (hs : Reached s) {history : List Entry} (haccounts : Accounts as s history ids)
    (h : Phases as s past s.pending) (hproceeds : Proceeds s ids t news) :
    Phases as t (past ++ news) t.pending := by
  induction hproceeds generalizing past history with
  | done => rwa [List.append_nil]
  | skip unknown _ ih => exact ih hs (haccounts.of_skip unknown) h
  | @next s t u p ids news later waiting goes _ ih =>
    obtain ⟨order, hissued, hrest, honly⟩ := haccounts.of_pending waiting
    have hs' := hs.with_pending (s.others p.id)
    have hmem (q : Pending) : q ∈ p :: s.others p.id ↔ q ∈ s.pending := by
      rw [List.mem_cons, State.mem_others]
      constructor
      · rintro (rfl | ⟨hq, -⟩)
        · exact waiting
        · exact hq
      · exact fun hq ↦ (Decidable.em (q.id = p.id)).imp (honly q hq) (⟨hq, ·⟩)
    have hsplit : Phases as { s with pending := s.others p.id } past (p :: s.others p.id) := by
      refine h.of_iff (fun part ↦ by cases part <;> rfl) (fun part request ↦ ?_) fun k hk ↦ ?_
      · exact ⟨(·.of_mem_iff fun q ↦ (hmem q).symm), (·.of_mem_iff hmem)⟩
      · obtain ⟨hk, hover⟩ := h.returned k hk
        exact ⟨hk, fun q hq ↦ hover q ((hmem q).1 hq)⟩
    have hgone := hsplit.of_goes hs' hissued (hrest.trans (List.tail_suffix _))
      (fun q hq ↦ (State.mem_others.1 hq).2) goes
    rw [← List.append_assoc]
    exact ih (hs'.of_goes goes) (haccounts.of_next hs waiting goes) hgone

/-- A call is issued whose number is new. -/
theorem of_issue (hs : Reached s) (hids : (callIds (as ++ [.issue id order])).Nodup)
    {history : List Entry} (haccounts : Accounts as s history []) (h : Phases as s past s.pending)
    (hgoes : Goes id s order.stages t news) :
    Phases (as ++ [.issue id order]) t (past ++ news) t.pending := by
  have hfresh := not_mem_callIds_of_nodup hids
  have hissued : Phases (as ++ [.issue id order]) s past (⟨id, order.stages⟩ :: s.pending) := by
    refine h.of_iff (fun _ ↦ rfl) (fun _ _ ↦ wasAsked_issue_iff hfresh) fun k hk ↦ ?_
    obtain ⟨hk, hover⟩ := h.returned k hk
    refine ⟨by simp [hk], List.forall_mem_cons.2 ⟨?_, hover⟩⟩
    rintro rfl
    exact hfresh hk
  exact hissued.of_goes hs (by simp) (List.suffix_refl _) (haccounts.gone_of_fresh hfresh) hgoes

/-- Something is done that is no call. -/
theorem concat (h : Phases as s past pending) (ha : a.callId? = none) :
    Phases (as ++ [a]) s past pending := by
  refine h.of_iff (fun _ ↦ rfl) (fun _ _ ↦ wasAsked_concat_iff ha) fun id hid ↦ ?_
  refine (h.returned id hid).imp_left fun hissued ↦ ?_
  rw [callIds, extract_append]
  exact List.mem_append_left _ hissued

/-- Something happens in the server. -/
theorem of_change (hs : Reached s) (hids : (callIds (as ++ [a])).Nodup) {history : List Entry}
    (haccounts : Accounts as s history []) (h : Phases as s past s.pending)
    (hchange : Change s a t new) : Phases (as ++ [a]) t (past ++ happened new) t.pending := by
  cases hchange with
  | @answer _ _ _ metrics news quiet =>
    rw [happened_answered]
    refine .concat (h.of_iff (fun part ↦ by cases part <;> rfl) (fun _ _ ↦ Iff.rfl) ?_) rfl
    refine fun id hid ↦ h.returned id ((List.mem_append.1 hid).resolve_right fun hmem ↦ ?_)
    obtain ⟨failure, hfailed⟩ := quiet _ hmem
    simp at hfailed
  | ask acts _ isRequest =>
    rw [happened_answered]
    exact (h.of_acts hs acts fun _ ↦ isRequest.asks?_eq_none).concat rfl
  | issue goes =>
    rw [happened_note]
    exact h.of_issue hs hids haccounts goes
  | step isStep acts proceeds =>
    rw [happened_note, ← List.append_assoc]
    have hacted := h.of_acts hs acts fun _ ↦ isStep.asks?_eq_none
    exact (hacted.of_proceeds (hs.of_acts acts) (haccounts.of_acts hs acts) proceeds).concat rfl

/-- A new server. -/
theorem of_new (settings : Settings.Server) :
    Phases [] (State.new settings).1 [] (State.new settings).1.pending := by
  have hcreated (part : Part) : (State.new settings).1.lifecycle part = .created := by
    cases part with
    | pipeline =>
      rw [State.lifecycle, State.new_pipeline]
      rfl
    | pool => rfl
  have hnobody (part : Part) (request : Request) :
      ¬WasAsked part [] (State.new settings).1.pending request := by
    rintro ⟨id, order, stage, hissued, -⟩
    exact List.not_mem_nil hissued
  constructor
  case stopped_iff => simp [hcreated, hnobody]
  case created_iff => simp [hcreated, hnobody]
  case returned => simp

/-- How far the parts of a server have come after a run. -/
theorem of_runs {settings : Settings.Server} {past : List Entry}
    (hruns : Runs State.act (State.new settings).1 as s past) (hids : (callIds as).Nodup) :
    Phases as s (happened past) s.pending := by
  have hnew := Reached.of_new settings
  induction hruns with
  | refl => exact .of_new settings
  | @tail as t past a u new hruns act_eq ih =>
    have hbefore : (callIds as).Nodup :=
      hids.sublist ((List.sublist_append_left as [a]).filterMap _)
    rw [happened, extract_append]
    exact (ih hbefore).of_change (hnew.of_runs hruns) hids (.of_runs hnew rfl hruns hbefore)
      (State.change act_eq)

end Phases

end Conveyor.Server
