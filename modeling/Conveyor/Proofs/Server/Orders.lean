import Conveyor.Proofs.Server.Parts

/-!
# Calls to a server

What became of a call that was issued. It is at one of its stages, and the part that the stage is
meant for still has it; or it has returned. The stages up to there were begun, and what a stage that
stops a part has begun lasts: the part is stopped, or a call that will stop it has not returned
there (`State.Begun`). `Account` says this of one call, and `Accounts` of all of them after a run.

Calls need numbers of their own for this, since a call that returns from a part is known by its
number only.
-/

namespace Conveyor.Server

open Moderation Time

/-- The number of the call that is issued. -/
@[simp] def Action.callId? : Action → Option Nat
  | .issue id _ => some id
  | _ => none

/-- The numbers of the calls that were issued, in order. -/
abbrev callIds (as : List Action) : List Nat := extract Action.callId? as

/-- The numbers of calls are those that were issued. -/
theorem mem_callIds {as : List Action} {id : Nat} :
    id ∈ callIds as ↔ ∃ order, .issue id order ∈ as := by
  rw [callIds, extract, List.mem_filterMap]
  constructor
  · rintro ⟨a, ha, hid⟩
    cases a with
    | issue _ order => exact ⟨order, Option.some.inj hid ▸ ha⟩
    | _ => simp at hid
  · rintro ⟨order, hissued⟩
    exact ⟨_, hissued, rfl⟩

/-- The number of a call that is issued last is new. -/
theorem not_mem_callIds_of_nodup {as : List Action} {id : Nat} {order : Order}
    (hids : (callIds (as ++ [.issue id order])).Nodup) : id ∉ callIds as := by
  have hids : (callIds as ++ [id]).Nodup := by simpa using hids
  exact fun hid ↦ (List.nodup_append.1 hids).2.2 id hid id (by simp) rfl

/-- A number tells what was ordered. -/
theorem order_unique {as : List Action} (hids : (callIds as).Nodup) {id : Nat}
    {order other : Order} (h : .issue id order ∈ as) (h' : .issue id other ∈ as) : order = other :=
  (Action.issue.inj (eq_of_nodup_extract hids h h' rfl rfl)).2

namespace State

/-- What lasts of a stage once a call with this number has begun it. -/
def Begun (s : State) (id : Nat) : Stage → Prop
  | .pipeline .stop => s.pipeline.Stopping id
  | .moderation .stopPool => s.moderation.pool.Stopping id
  | _ => True

/-- The part that a stage is meant for has a call with this number. -/
def Has (s : State) (id : Nat) : Stage → Prop
  | .pipeline _ => ∃ c ∈ s.pipeline.turns.calls, c.id = id
  | .moderation _ => s.moderation.Waits id

theorem begun_with_pending {s : State} {pending : List Pending} {id : Nat} {stage : Stage} :
    ({ s with pending } : State).Begun id stage ↔ s.Begun id stage := Iff.rfl

theorem has_with_pending {s : State} {pending : List Pending} {id : Nat} {stage : Stage} :
    ({ s with pending } : State).Has id stage ↔ s.Has id stage := Iff.rfl

end State

variable {s t u : State} {id : Nat} {stage : Stage} {stages : List Stage} {b : PartAction}
  {ids : List Nat} {a : Action} {as : List Action} {news : List Note} {past new : List Entry}

/-! ### What a part does -/

/-- A part leaves the calls to the server alone. -/
theorem Acts.pending_eq (h : Acts s b t news) : t.pending = s.pending := by
  cases h <;> rfl

/-- What a stage has begun lasts. -/
theorem Acts.begun (hs : Reached s) (h : Acts s b t news)
    (hbegun : b = stage.action id ∨ s.Begun id stage) : t.Begun id stage := by
  cases stage with
  | pipeline request =>
    cases request with
    | start => trivial
    | stop =>
      cases h with
      | pipeline acts =>
        refine (hs.coupled.move acts).stopping hs.coupled (hbegun.symm.imp_right fun hb ↦ ?_)
        exact PartAction.pipeline.inj hb
      | moderation acts => exact hbegun.resolve_left (by simp [Stage.action])
  | moderation request =>
    cases request with
    | stopPool =>
      cases h with
      | pipeline acts => exact hbegun.resolve_left (by simp [Stage.action])
      | moderation acts =>
        refine (Service.State.change hs.sound.coupled acts).stopping hs.sound.coupled ?_
        exact hbegun.imp_left PartAction.moderation.inj
    | _ => trivial

/-- A part has a call until it returns from there. -/
theorem Acts.has (hs : Reached s) (h : Acts s b t news)
    (hhas : b = stage.action id ∨ s.Has id stage) : t.Has id stage ∨ id ∈ partReturns news := by
  cases stage with
  | pipeline request =>
    cases h with
    | pipeline acts =>
      rw [mem_partReturns_pipeline]
      have hturns := (hs.coupled.move acts).turns hs.coupled
      rcases hhas with hb | ⟨c, hc, rfl⟩
      · obtain rfl := PartAction.pipeline.inj hb
        exact (hturns.stays (.inl rfl)).imp (⟨_, ·, rfl⟩) And.left
      · exact (hturns.stays (.inr hc)).imp (⟨c, ·, rfl⟩) And.left
    | moderation acts => exact .inl (hhas.resolve_left (by simp [Stage.action]))
  | moderation request =>
    cases h with
    | pipeline acts => exact .inl (hhas.resolve_left (by simp [Stage.action]))
    | moderation acts =>
      rw [mem_partReturns_moderation]
      refine (Service.State.change hs.sound.coupled acts).waits (hhas.imp_left fun hb ↦ ?_)
      rw [PartAction.moderation.inj hb]
      rfl

/-- Only the call that is issued to a part returns from there at once. -/
theorem Acts.eq_of_returned {other : Nat} (hs : Reached s)
    (h : Acts s (stage.action id) t news) (hreturned : other ∈ partReturns news) : other = id := by
  cases stage with
  | pipeline request =>
    cases h with
    | pipeline acts =>
      exact ((hs.coupled.move acts).turns hs.coupled).eq_of_noted
        (mem_partReturns_pipeline.1 hreturned)
  | moderation request =>
    cases h with
    | moderation acts =>
      exact (Service.State.change hs.sound.coupled acts).eq_of_returned hs.sound.coupled
        (mem_partReturns_moderation.1 hreturned)

/-! ### A call that goes on -/

/-- What a stage has begun lasts while a call goes through its stages. -/
theorem Goes.begun {other : Nat} (hs : Reached s) (h : Goes id s stages t news)
    (hbegun : s.Begun other stage) : t.Begun other stage := by
  induction h with
  | returns => exact hbegun
  | waits acts => exact State.begun_with_pending.2 (acts.begun hs (.inr hbegun))
  | passes acts _ _ ih => exact ih (hs.of_acts acts) (acts.begun hs (.inr hbegun))

/-- The parts keep the other calls while a call goes through its stages. -/
theorem Goes.has {other : Nat} (hs : Reached s) (h : Goes id s stages t news) (hne : other ≠ id)
    (hhas : s.Has other stage) : t.Has other stage := by
  have hkeeps {s t : State} {first : Stage} {news : List Note} (hs : Reached s)
      (hacts : Acts s (first.action id) t news) (hhas : s.Has other stage) : t.Has other stage :=
    (hacts.has hs (.inr hhas)).resolve_right fun hreturned ↦
      hne (hacts.eq_of_returned hs hreturned)
  induction h with
  | returns => exact hhas
  | waits acts => exact State.has_with_pending.2 (hkeeps hs acts hhas)
  | passes acts _ _ ih => exact ih (hs.of_acts acts) (hkeeps hs acts hhas)

/-- A call comes to a stage where it waits, or returns. -/
theorem Goes.outcome (hs : Reached s) (h : Goes id s stages t news) :
    (∃ done current rest, stages = done ++ current :: rest ∧
      t.pending = s.pending ++ [⟨id, rest⟩] ∧ (∀ stage ∈ done ++ [current], t.Begun id stage) ∧
      t.Has id current) ∨
    t.pending = s.pending ∧ .returned id ∈ news ∧ ∀ stage ∈ stages, t.Begun id stage := by
  induction h with
  | returns => exact .inr ⟨rfl, by simp, by simp⟩
  | @waits s t stage rest news acts stays =>
    refine .inl ⟨[], stage, rest, rfl, by simp [acts.pending_eq], ?_, ?_⟩
    · intro other hother
      obtain rfl := List.mem_singleton.1 hother
      exact State.begun_with_pending.2 (acts.begun hs (.inl rfl))
    · exact State.has_with_pending.2 ((acts.has hs (.inl rfl)).resolve_right stays)
  | @passes s t u stage rest news later acts returned goes ih =>
    have ht := hs.of_acts acts
    have hfirst : u.Begun id stage := goes.begun ht (acts.begun hs (.inl rfl))
    rcases ih ht with ⟨done, current, after, rfl, hpending, hbegun, hhas⟩ |
      ⟨hpending, hreturned, hbegun⟩
    · refine .inl ⟨stage :: done, current, after, rfl, ?_, ?_, hhas⟩
      · rw [hpending, acts.pending_eq]
      · intro other hother
        rcases List.mem_cons.1 hother with rfl | hother
        · exact hfirst
        · exact hbegun other hother
    · refine .inr ⟨?_, List.mem_append_right _ hreturned, ?_⟩
      · rw [hpending, acts.pending_eq]
      · intro other hother
        rcases List.mem_cons.1 hother with rfl | hother
        · exact hfirst
        · exact hbegun other hother

/-- A call that goes through its stages keeps a part of them for later, and the other calls stay as
they are. -/
theorem Goes.mem_pending (h : Goes id s stages t news) {p : Pending} (hp : p ∈ t.pending) :
    p ∈ s.pending ∨ p.id = id ∧ p.rest <:+ stages.tail := by
  induction h with
  | returns => exact .inl hp
  | @waits s t stage rest news acts =>
    rw [acts.pending_eq, List.mem_append, List.mem_singleton] at hp
    refine hp.imp_right ?_
    rintro rfl
    exact ⟨rfl, List.suffix_refl rest⟩
  | passes acts _ _ ih =>
    refine (ih hp).imp (acts.pending_eq ▸ ·) fun ⟨hid, hrest⟩ ↦ ⟨hid, ?_⟩
    exact hrest.trans (List.tail_suffix _)

/-! ### What became of a call -/

/-- What became of a call that was issued. The calls in `ids` are known to have returned from their
parts, and have not gone on yet. -/
inductive Account (s : State) (past : List Entry) (ids : List Nat) (id : Nat) (order : Order) :
    Prop where
  /-- The call is at one of its stages. -/
  | waits {done rest : List Stage} {current : Stage}
      (stages : order.stages = done ++ current :: rest)
      (only : ∀ p, p ∈ s.pending ∧ p.id = id ↔ p = ⟨id, rest⟩)
      (begun : ∀ stage ∈ done ++ [current], s.Begun id stage)
      (has : s.Has id current ∨ id ∈ ids)
  /-- The call has returned. -/
  | returned (gone : ∀ p ∈ s.pending, p.id ≠ id) (noted : .note (.returned id) ∈ past)
      (begun : ∀ stage ∈ order.stages, s.Begun id stage)

namespace Account

variable {order : Order} {other : Nat}

/-- More has happened. -/
theorem later (h : Account s past ids id order) (new : List Entry) :
    Account s (past ++ new) ids id order := by
  cases h with
  | waits stages only begun has => exact .waits stages only begun has
  | returned gone noted begun => exact .returned gone (List.mem_append_left _ noted) begun

/-- A sample is ingested. -/
theorem with_metrics (h : Account s past ids id order) (metrics : Metrics.Aggregator) :
    Account { s with metrics } past ids id order := by
  cases h with
  | waits stages only begun has => exact .waits stages only begun has
  | returned gone noted begun => exact .returned gone noted begun

/-- A part acts. -/
theorem of_acts (hs : Reached s) (h : Account s past [] id order) (hacts : Acts s b t news) :
    Account t past (partReturns news) id order := by
  cases h with
  | waits stages only begun has =>
    refine .waits stages (by rwa [hacts.pending_eq]) (fun stage hstage ↦ ?_) ?_
    · exact hacts.begun hs (.inr (begun stage hstage))
    · exact hacts.has hs (.inr (has.resolve_right List.not_mem_nil))
  | returned gone noted begun =>
    refine .returned (by rwa [hacts.pending_eq]) noted fun stage hstage ↦ ?_
    exact hacts.begun hs (.inr (begun stage hstage))

/-- Another call leaves the list of those that have not returned, to go on. -/
theorem of_others (h : Account s past (other :: ids) id order) (hne : id ≠ other) :
    Account { s with pending := s.others other } past ids id order := by
  cases h with
  | waits stages only begun has =>
    refine .waits stages (fun p ↦ ?_) begun (has.imp_right fun hid ↦ ?_)
    · rw [← only p, State.mem_others]
      constructor
      · exact fun ⟨hp, hid⟩ ↦ ⟨hp.1, hid⟩
      · exact fun ⟨hp, hid⟩ ↦ ⟨⟨hp, hid ▸ hne⟩, hid⟩
    · exact (List.mem_cons.1 hid).resolve_left hne
  | returned gone noted begun =>
    exact .returned (fun p hp ↦ gone p (State.mem_others.1 hp).1) noted begun

/-- Another call goes through its stages. -/
theorem of_goes_other (hs : Reached s) (h : Account s past ids id order) (hne : id ≠ other)
    (hgoes : Goes other s stages t news) : Account t past ids id order := by
  have hpending (p : Pending) : p ∈ t.pending ∧ p.id = id ↔ p ∈ s.pending ∧ p.id = id := by
    rcases hgoes.outcome hs with ⟨-, -, rest, -, hpending, -⟩ | ⟨hpending, -⟩
    · rw [hpending, List.mem_append, List.mem_singleton]
      constructor
      · rintro ⟨hp | rfl, hid⟩
        · exact ⟨hp, hid⟩
        · exact absurd hid.symm hne
      · exact fun ⟨hp, hid⟩ ↦ ⟨.inl hp, hid⟩
    · rw [hpending]
  cases h with
  | waits stages only begun has =>
    refine .waits stages (fun p ↦ (hpending p).trans (only p)) (fun stage hstage ↦ ?_) ?_
    · exact hgoes.begun hs (begun stage hstage)
    · exact has.imp_left (hgoes.has hs hne)
  | returned gone noted begun =>
    refine .returned (fun p hp hid ↦ ?_) noted fun stage hstage ↦ ?_
    · exact gone p ((hpending p).1 ⟨hp, hid⟩).1 hid
    · exact hgoes.begun hs (begun stage hstage)

/-- The call itself goes through the stages that it has left. -/
theorem of_goes {before : List Stage} (hs : Reached s) (hgone : ∀ p ∈ s.pending, p.id ≠ id)
    (hstages : order.stages = before ++ stages) (hbegun : ∀ stage ∈ before, s.Begun id stage)
    (hgoes : Goes id s stages t news) : Account t (past ++ news.map .note) ids id order := by
  rcases hgoes.outcome hs with ⟨done, current, rest, rfl, hpending, hnew, hhas⟩ |
    ⟨hpending, hreturned, hnew⟩
  · rw [← List.append_assoc] at hstages
    refine .waits hstages (fun p ↦ ?_) ?_ (.inl hhas)
    · rw [hpending, List.mem_append, List.mem_singleton]
      constructor
      · rintro ⟨hp | rfl, hid⟩
        · exact absurd hid (hgone p hp)
        · rfl
      · rintro rfl
        exact ⟨.inr rfl, rfl⟩
    · intro stage hstage
      rw [List.append_assoc] at hstage
      rcases List.mem_append.1 hstage with hold | hstage
      · exact hgoes.begun hs (hbegun stage hold)
      · exact hnew stage hstage
  · refine .returned (hpending ▸ hgone) ?_ fun stage hstage ↦ ?_
    · exact List.mem_append_right _ (List.mem_map_of_mem hreturned)
    · rw [hstages] at hstage
      rcases List.mem_append.1 hstage with hold | hstage
      · exact hgoes.begun hs (hbegun stage hold)
      · exact hnew stage hstage

end Account

/-- What became of all calls. -/
structure Accounts (as : List Action) (s : State) (past : List Entry) (ids : List Nat) : Prop where
  /-- The calls that have not returned were issued. -/
  issued : ∀ p ∈ s.pending, ∃ order, .issue p.id order ∈ as
  /-- Of each call that was issued it is known what became of it. -/
  account : ∀ id order, .issue id order ∈ as → Account s past ids id order

namespace Accounts

/-- More has happened. -/
theorem later (h : Accounts as s past ids) (new : List Entry) :
    Accounts as s (past ++ new) ids where
  issued := h.issued
  account id order hissued := (h.account id order hissued).later new

/-- A sample is ingested. -/
theorem with_metrics (h : Accounts as s past ids) (metrics : Metrics.Aggregator) :
    Accounts as { s with metrics } past ids where
  issued := h.issued
  account id order hissued := (h.account id order hissued).with_metrics metrics

/-- Something was done that is no call. -/
theorem concat (h : Accounts as s past ids) (ha : a.callId? = none) :
    Accounts (as ++ [a]) s past ids where
  issued p hp := (h.issued p hp).imp fun _ ↦ List.mem_append_left _
  account id order hissued := by
    rcases List.mem_append.1 hissued with hold | hnew
    · exact h.account id order hold
    · simp [← List.mem_singleton.1 hnew] at ha

/-- A part acts. -/
theorem of_acts (hs : Reached s) (h : Accounts as s past []) (hacts : Acts s b t news) :
    Accounts as t past (partReturns news) where
  issued p hp := h.issued p (hacts.pending_eq ▸ hp)
  account id order hissued := (h.account id order hissued).of_acts hs hacts

/-- A call goes on, whose stage has returned. -/
theorem of_next {p : Pending} (hs : Reached s) (h : Accounts as s past (p.id :: ids))
    (hp : p ∈ s.pending)
    (hgoes : Goes p.id { s with pending := s.others p.id } p.rest t news) :
    Accounts as t (past ++ news.map .note) ids := by
  have hs' := hs.with_pending (s.others p.id)
  have hgone : ∀ q ∈ s.others p.id, q.id ≠ p.id := fun q hq ↦ (State.mem_others.1 hq).2
  constructor
  · intro q hq
    rcases hgoes.mem_pending hq with hq | ⟨hq, -⟩
    · exact h.issued q (State.mem_others.1 hq).1
    · exact hq ▸ h.issued p hp
  · intro id order hissued
    by_cases hid : id = p.id
    · subst hid
      cases h.account _ order hissued with
      | waits stages only begun has =>
        have hrest := congrArg Pending.rest ((only p).1 ⟨hp, rfl⟩)
        refine .of_goes hs' hgone ?_ begun hgoes
        rw [stages, hrest, List.append_cons]
      | returned gone => exact absurd rfl (gone p hp)
    · exact (((h.account id order hissued).of_others hid).of_goes_other hs' hid hgoes).later _

/-- A call that is not known here does not go on. -/
theorem of_skip (h : Accounts as s past (id :: ids)) (hunknown : ∀ p ∈ s.pending, p.id ≠ id) :
    Accounts as s past ids where
  issued := h.issued
  account other order hissued := by
    cases h.account other order hissued with
    | waits stages only begun has =>
      refine .waits stages only begun (has.imp_right fun hid ↦ ?_)
      refine (List.mem_cons.1 hid).resolve_left fun heq ↦ ?_
      obtain ⟨hmem, hid⟩ := (only _).2 rfl
      exact hunknown _ hmem heq
    | returned gone noted begun => exact .returned gone noted begun

/-- A call that has not returned was issued, has only later stages ahead and is listed once. -/
theorem of_pending (h : Accounts as s past ids) {p : Pending} (hp : p ∈ s.pending) :
    ∃ order, .issue p.id order ∈ as ∧ p.rest <:+ order.stages.tail ∧
      ∀ q ∈ s.pending, q.id = p.id → q = p := by
  obtain ⟨order, hissued⟩ := h.issued p hp
  refine ⟨order, hissued, ?_⟩
  cases h.account p.id order hissued with
  | @waits done rest current stages only begun has =>
    have hp := (only p).1 ⟨hp, rfl⟩
    refine ⟨?_, fun q hq hid ↦ ((only q).1 ⟨hq, hid⟩).trans hp.symm⟩
    rw [stages, congrArg Pending.rest hp]
    cases done with
    | nil => exact List.suffix_refl rest
    | cons first done => exact ⟨done ++ [current], List.append_assoc _ _ _⟩
  | returned gone => exact absurd rfl (gone p hp)

/-- Calls go on whose stages have returned. -/
theorem of_proceeds (hs : Reached s) (h : Accounts as s past ids)
    (hproceeds : Proceeds s ids t news) : Accounts as t (past ++ news.map .note) [] := by
  induction hproceeds generalizing past with
  | done => simpa using h
  | skip unknown _ ih => exact ih hs (h.of_skip unknown)
  | @next s t u p ids notes later waiting goes _ ih =>
    have ht := (hs.with_pending _).of_goes goes
    simpa using ih ht (h.of_next hs waiting goes)

/-- A call whose number is new is not known here. -/
theorem gone_of_fresh (h : Accounts as s past ids) (hfresh : id ∉ callIds as) :
    ∀ p ∈ s.pending, p.id ≠ id := by
  rintro p hp rfl
  exact hfresh (mem_callIds.2 (h.issued p hp))

/-- A call is issued whose number is new. -/
theorem of_issue {order : Order} (hs : Reached s)
    (hids : (callIds (as ++ [.issue id order])).Nodup) (h : Accounts as s past [])
    (hgoes : Goes id s order.stages t news) :
    Accounts (as ++ [.issue id order]) t (past ++ news.map .note) [] := by
  have hfresh := not_mem_callIds_of_nodup hids
  have hgone := h.gone_of_fresh hfresh
  constructor
  · intro p hp
    rcases hgoes.mem_pending hp with hold | ⟨hnew, -⟩
    · exact (h.issued p hold).imp fun _ ↦ List.mem_append_left _
    · exact ⟨order, by simp [hnew]⟩
  · intro other order' hissued
    rcases List.mem_append.1 hissued with hold | hnew
    · have hne : other ≠ id := by
        rintro rfl
        exact hfresh (mem_callIds.2 ⟨order', hold⟩)
      exact ((h.account other order' hold).of_goes_other hs hne hgoes).later _
    · obtain ⟨rfl, rfl⟩ := Action.issue.inj (List.mem_singleton.1 hnew)
      exact .of_goes hs hgone (List.nil_append _).symm (by simp) hgoes

/-- Something happens in the server. -/
theorem of_change (hs : Reached s) (hids : (callIds (as ++ [a])).Nodup)
    (h : Accounts as s past []) (hchange : Change s a t new) :
    Accounts (as ++ [a]) t (past ++ new) [] := by
  cases hchange with
  | answer => exact (h.with_metrics _).later _ |>.concat rfl
  | ask acts quiet =>
    have hasked := h.of_acts hs acts
    rw [quiet] at hasked
    exact (hasked.later _).concat rfl
  | issue goes => exact h.of_issue hs hids goes
  | @step x now b u t news later isStep acts proceeds =>
    have hacted := (h.of_acts hs acts).later (news.map .note)
    have hproceeded := hacted.of_proceeds (hs.of_acts acts) proceeds
    rw [List.map_append, ← List.append_assoc]
    exact hproceeded.concat rfl

/-- What became of all calls in a run. -/
theorem of_runs (hs : Reached s) (hnone : s.pending = []) (hruns : Runs State.act s as t past)
    (hids : (callIds as).Nodup) : Accounts as t past [] := by
  induction hruns with
  | refl => exact ⟨by simp [hnone], by simp⟩
  | @tail as t past a u new hruns act_eq ih =>
    have hbefore : (callIds as).Nodup :=
      hids.sublist ((List.sublist_append_left as [a]).filterMap _)
    exact (ih hbefore).of_change (hs.of_runs hruns) hids (State.change act_eq)

end Accounts

end Conveyor.Server
