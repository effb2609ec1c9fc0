import Conveyor.Proofs.Pool.Changes

/-!
# What holds of every pool

Every change keeps the parts of a pool together (`State.Coupled.of_change`), so they are together
after every run (`State.Coupled.of_runs`).

Most changes of a pool are changes of one worker that is alive. For these the invariant is kept once
and for all (`State.Coupled.of_setWorker`), and what is left to say is what became of the line, the
queue and the channel.
-/

namespace Conveyor.Moderation.Pool

open Time

namespace State

namespace Coupled

variable {policy : Policy} {s t : State} {a : Action} {call : Call} {new : List Note} {i : Nat}
  {w old : Worker}

/-! ### Workers in line -/

/-- With a worker there is a crew. -/
theorem crew_ne_nil (h : s.crew[i]? = some w) : s.crew ≠ [] := by
  intro hnil
  simp [hnil] at h

/-- A pool with a crew was started. -/
theorem started (hs : s.Coupled) (h : s.crew ≠ []) : s.lifecycle ≠ .created :=
  fun hcreated ↦ h (hs.created hcreated).2.2.2

/-- The queue of a stopped pool is closed. -/
theorem admission_of_stopped (hs : s.Coupled) (h : s.lifecycle = .stopped) :
    s.admission = .error (.closed queueName) := by
  simp [admission, (hs.stopped h).1]

/-- A stopped pool admits nothing. -/
theorem admission_ne_ok (hs : s.Coupled) (h : s.lifecycle = .stopped) : s.admission ≠ .ok () := by
  simp [hs.admission_of_stopped h]

/-- Whoever is first in line stands in it. -/
theorem inLine_of_first (hs : s.Coupled) {line : List Nat} (h : s.line = i :: line) :
    s.crew[i]? = some .inLine :=
  (hs.inLine i).1 (by simp [h])

/-- Those who stand in line when one that does not stand in it changes, and does not join it. -/
theorem inLine_of_outside (hs : s.Coupled) (hold : s.crew[i]? = some old) (hout : old ≠ .inLine)
    (hw : w ≠ .inLine) (k : Nat) :
    k ∈ s.line ↔ (s.setWorker i w).crew[k]? = some .inLine := by
  rw [hs.inLine, getElem?_setWorker hold]
  split
  case isTrue hk =>
    subst hk
    simp [hold, hout, hw]
  case isFalse => rfl

/-- Those who stand in line when the first gives its place up. -/
theorem inLine_of_first_out (hs : s.Coupled) {line : List Nat} (hfirst : s.line = i :: line)
    (hw : w ≠ .inLine) (k : Nat) :
    k ∈ line ↔ (s.setWorker i w).crew[k]? = some .inLine := by
  have hline := hs.inLine k
  have hnodup := hs.nodup
  rw [hfirst, List.mem_cons] at hline
  rw [hfirst, List.nodup_cons] at hnodup
  rw [getElem?_setWorker (hs.inLine_of_first hfirst)]
  split
  case isTrue hk =>
    subst hk
    simp [hnodup.1, hw]
  case isFalse hk =>
    rw [← hline]
    simp [Ne.symm hk]

/-- Those who stand in line when someone joins it. -/
theorem inLine_of_joined (hs : s.Coupled) (harriving : s.crew[i]? = some .arriving) (k : Nat) :
    k ∈ s.line ++ [i] ↔ (s.setWorker i .inLine).crew[k]? = some .inLine := by
  rw [List.mem_append, List.mem_singleton, hs.inLine, getElem?_setWorker harriving]
  split
  case isTrue hk => simp [hk]
  case isFalse hk => simp [Ne.symm hk]

/-- Nobody stands in line twice when someone joins it. -/
theorem nodup_of_joined (hs : s.Coupled) (harriving : s.crew[i]? = some .arriving) :
    (s.line ++ [i]).Nodup := by
  have hout : i ∉ s.line := by
    rw [hs.inLine, harriving]
    simp
  refine List.nodup_append.2 ⟨hs.nodup, by simp, ?_⟩
  rintro k hk m hm rfl
  exact hout (List.mem_singleton.1 hm ▸ hk)

/-! ### Preservation -/

/-- A worker that is alive changes. -/
theorem of_setWorker (hs : s.Coupled) (hold : s.crew[i]? = some old) (halive : old.isAlive = true)
    {line : List Nat} {queue : List Job} {channel : List Verdict}
    (hline : ∀ k, k ∈ line ↔ (s.setWorker i w).crew[k]? = some .inLine) (hnodup : line.Nodup)
    (hqueue : queue.length ≤ s.capacity) (hchannel : channel.length ≤ s.capacity)
    (hgone : s.reader = .gone → channel = [])
    (hleft : .left ∈ (s.setWorker i w).crew → s.sender = false ∧ queue = [])
    (hemptied : (s.setWorker i w).isManned = false → queue = []) :
    ({ s.setWorker i w with line, queue, channel } : State).Coupled := by
  have hcrew : s.crew ≠ [] := crew_ne_nil hold
  have hmanned : s.isManned = true := isManned_iff.2 ⟨i, old, hold, halive⟩
  have hcrew' : (s.setWorker i w).crew ≠ [] := by simpa [setWorker] using hcrew
  exact {
    workers_pos := hs.workers_pos
    created := fun h ↦ absurd h (hs.started hcrew)
    running := fun h ↦ ⟨(hs.running h).1, (hs.running h).2.1, (hs.running h).2.2.1, hcrew'⟩
    stopped := hs.stopped
    crewed := fun _ ↦ by simpa [setWorker] using hs.crewed hcrew
    emptied := fun h ↦ hemptied (by
      simp only [receives, Bool.or_eq_false_iff] at h
      exact h.2)
    inLine := hline
    nodup := hnodup
    left := hleft
    held := fun call m hheld ↦ by
      obtain ⟨hrequest, hstopped, houtlet, -, hover⟩ := hs.held call m hheld
      refine ⟨hrequest, hstopped, houtlet, hcrew', fun k x hk hx ↦ ?_⟩
      change (s.setWorker i w).crew[k]? = some x at hx
      rw [getElem?_setWorker hold] at hx
      split at hx
      case isTrue hik =>
        -- The call has not come to a worker that is alive.
        have hdead := hover i old (hik ▸ hk) hold
        simp [halive] at hdead
      case isFalse => exact hover k x hk hx
    draining := hs.draining
    outlet := fun h ↦ by simp [(hs.outlet h).2] at hmanned
    gone := hgone
    queue_le := hqueue
    channel_le := hchannel }

/-- Nobody that has left is in a crew in which one worker came to something else. -/
theorem left_of_setWorker (hs : s.Coupled) (hw : w ≠ .left)
    (h : .left ∈ (s.setWorker i w).crew) : s.sender = false ∧ s.queue = [] := by
  rcases List.mem_or_eq_of_mem_set h with hmem | heq
  · exact hs.left hmem
  · exact absurd heq.symm hw

/-- A worker that is alive changes and stays alive. -/
theorem of_setWorker_alive (hs : s.Coupled) (hold : s.crew[i]? = some old)
    (halive : old.isAlive = true) (halive' : w.isAlive = true) {line : List Nat} {queue : List Job}
    {channel : List Verdict}
    (hline : ∀ k, k ∈ line ↔ (s.setWorker i w).crew[k]? = some .inLine) (hnodup : line.Nodup)
    (hqueue : queue.length ≤ s.queue.length) (hchannel : channel.length ≤ s.capacity)
    (hgone : s.reader = .gone → channel = []) :
    ({ s.setWorker i w with line, queue, channel } : State).Coupled := by
  have hw : w ≠ .left := by
    rintro rfl
    simp [Worker.isAlive] at halive'
  refine hs.of_setWorker hold halive hline hnodup (Nat.le_trans hqueue hs.queue_le) hchannel hgone
    (fun hleft ↦ ?_) fun hunmanned ↦ ?_
  · obtain ⟨hsender, hempty⟩ := hs.left_of_setWorker hw hleft
    rw [hempty] at hqueue
    exact ⟨hsender, List.eq_nil_of_length_eq_zero (Nat.le_zero.1 hqueue)⟩
  · simp [isManned_setWorker hold halive'] at hunmanned

/-- When the call that waits for workers has come to the end, nobody is alive. -/
theorem unmanned_of_held (hs : s.Coupled) (hheld : s.turns.lock = .held call i)
    (hall : s.crew[i]? = none) : s.isManned = false := by
  obtain ⟨-, -, -, -, hover⟩ := hs.held call i hheld
  rw [← Bool.not_eq_true, isManned_iff]
  rintro ⟨k, w, hk, halive⟩
  have hlt : k < i := by
    have hkl := (List.getElem?_eq_some_iff.1 hk).1
    have hil := List.getElem?_eq_none_iff.1 hall
    omega
  simp [hover k w hlt hk] at halive

/-- The call that waits for workers turns from one that is not alive to the next. -/
theorem of_next (hs : s.Coupled) (hheld : s.turns.lock = .held call i)
    (hold : s.crew[i]? = some old) (hover : old.isAlive = false) :
    ({ s with turns := s.turns.hold call (i + 1) } : State).Coupled := by
  obtain ⟨hrequest, hstopped, houtlet, hcrew, hbefore⟩ := hs.held call i hheld
  exact {
    hs with
    held := fun other m h ↦ by
      simp only [Turns.lock_hold, Lock.held.injEq] at h
      obtain ⟨rfl, rfl⟩ := h
      refine ⟨hrequest, hstopped, houtlet, hcrew, fun k w hk hw ↦ ?_⟩
      rcases Nat.lt_succ_iff_lt_or_eq.1 hk with hlt | rfl
      · exact hbefore k w hlt hw
      · rw [hold, Option.some.injEq] at hw
        exact hw ▸ hover
    draining := fun _ ↦ .inl ⟨call, i + 1, rfl⟩ }

/-- Every change keeps the parts of the state together. -/
theorem of_change (hs : s.Coupled) (h : Change policy s a t new) : t.Coupled := by
  cases h with
  | @accept j taken =>
    obtain ⟨hsender, hreceives, hroom⟩ := admission_eq_ok_iff.1 taken
    exact {
      hs with
      emptied := fun hgone ↦ by
        have hgone : s.receives = false := hgone
        simp [hgone] at hreceives
      left := fun hleft ↦ by simp [(hs.left hleft).1] at hsender
      queue_le := by simpa using Nat.succ_le_of_lt hroom }
  | refuse => exact hs
  | takeResults => exact { hs with gone := by simp }
  | receive taken next =>
    exact {
      hs with
      gone := by simp [taken]
      channel_le := by
        have hle := hs.channel_le
        rw [next, List.length_cons] at hle
        exact Nat.le_of_succ_le hle }
  | throwAway => exact { hs with gone := fun _ ↦ rfl, channel_le := Nat.zero_le _ }
  | leaveResults => exact hs
  | wait => exact { hs with }
  | start begun request created =>
    obtain ⟨hsender, hreceiver, houtlet, hcrew⟩ := hs.created created
    have hreplicate : List.replicate s.workers Worker.arriving ≠ [] := by
      simpa using Nat.pos_iff_ne_zero.1 hs.workers_pos
    have hmanned : (List.replicate s.workers Worker.arriving).any Worker.isAlive = true := by
      simpa [Worker.isAlive] using Nat.pos_iff_ne_zero.1 hs.workers_pos
    exact {
      hs with
      created := by simp
      running := fun _ ↦ ⟨hsender, rfl, houtlet, hreplicate⟩
      stopped := by simp
      crewed := fun _ ↦ List.length_replicate
      emptied := fun hgone ↦ by simp [receives, isManned, hmanned] at hgone
      inLine := fun i ↦ by
        have hline := hs.inLine i
        simp only [hcrew, List.getElem?_nil, reduceCtorEq, iff_false] at hline
        simp [hline, List.getElem?_replicate]
      left := by simp
      held := fun call i h ↦ absurd h (s.turns.lock_release_ne_held call i)
      draining := by simp
      outlet := fun h ↦ by simp [houtlet] at h }
  | passBy begun nothing =>
    exact {
      hs with
      held := fun call i h ↦ absurd h (s.turns.lock_release_ne_held call i)
      draining := fun hstopped ↦ by
        rcases hs.draining hstopped with ⟨call, i, hheld⟩ | houtlet
        · exact absurd hheld (not_held_of_beginning begun call i)
        · exact .inr houtlet }
  | close begun request running =>
    obtain ⟨hsender, hreceiver, houtlet, hcrew⟩ := hs.running running
    exact {
      hs with
      created := by simp
      running := by simp
      stopped := fun _ ↦ ⟨rfl, hreceiver⟩
      left := fun hleft ↦ ⟨rfl, (hs.left hleft).2⟩
      held := fun call i h ↦ by
        simp only [Turns.lock_hold, Lock.held.injEq] at h
        obtain ⟨rfl, rfl⟩ := h
        exact ⟨request, rfl, houtlet, hcrew, fun k _ hk ↦ absurd hk (Nat.not_lt_zero k)⟩
      draining := fun _ ↦ .inl ⟨_, _, rfl⟩
      outlet := fun h ↦ by simp [houtlet] at h }
  | discard begun request created =>
    obtain ⟨-, -, -, hcrew⟩ := hs.created created
    exact {
      hs with
      created := by simp
      running := by simp
      stopped := fun _ ↦ ⟨rfl, rfl⟩
      emptied := fun _ ↦ rfl
      left := fun _ ↦ ⟨rfl, rfl⟩
      held := fun call i h ↦ absurd h (s.turns.lock_release_ne_held call i)
      draining := fun _ ↦ .inr rfl
      outlet := fun _ ↦ ⟨rfl, by simp [isManned, hcrew]⟩
      queue_le := Nat.zero_le _ }
  | arrive arriving =>
    exact hs.of_setWorker_alive arriving rfl rfl (hs.inLine_of_joined arriving)
      (hs.nodup_of_joined arriving) (Nat.le_refl _) hs.channel_le hs.gone
  | pull first next =>
    have hnodup := hs.nodup
    rw [first] at hnodup
    exact hs.of_setWorker_alive (hs.inLine_of_first first) rfl rfl
      (hs.inLine_of_first_out first (by simp)) hnodup.of_cons (by simp [next]) hs.channel_le hs.gone
  | offer busy judged readable room =>
    exact hs.of_setWorker_alive busy rfl rfl (hs.inLine_of_outside busy (by simp) (by simp))
      hs.nodup (Nat.le_refl _) (by simpa using Nat.succ_le_of_lt room)
      fun hgone ↦ absurd hgone readable
  | drop busy judged rejects =>
    exact hs.of_setWorker_alive busy rfl rfl (hs.inLine_of_outside busy (by simp) (by simp))
      hs.nodup (Nat.le_refl _) hs.channel_le hs.gone
  | die busy judged manned =>
    refine hs.of_setWorker busy rfl (hs.inLine_of_outside busy (by simp) (by simp)) hs.nodup
      hs.queue_le hs.channel_le hs.gone (hs.left_of_setWorker (by simp)) fun hunmanned ↦ ?_
    simp [manned] at hunmanned
  | dieLast busy judged unmanned =>
    exact hs.of_setWorker busy rfl (hs.inLine_of_outside busy (by simp) (by simp)) hs.nodup
      (Nat.zero_le _) hs.channel_le hs.gone
      (fun hleft ↦ ⟨(hs.left_of_setWorker (by simp) hleft).1, rfl⟩) fun _ ↦ rfl
  | leave first empty closed =>
    have hnodup := hs.nodup
    rw [first] at hnodup
    exact hs.of_setWorker (hs.inLine_of_first first) rfl
      (hs.inLine_of_first_out first (by simp)) hnodup.of_cons hs.queue_le hs.channel_le hs.gone
      (fun _ ↦ ⟨closed, empty⟩) fun _ ↦ empty
  | @passWorker call i _ held left => exact hs.of_next held left rfl
  | @reportDeath call i _ held dead => exact hs.of_next held dead rfl
  | @finishCall call i _ held all =>
    have hstopped : s.lifecycle = .stopped := (hs.held call i held).2.1
    exact {
      hs with
      created := fun h ↦ by simp [hstopped] at h
      running := fun h ↦ by simp [hstopped] at h
      held := fun call i h ↦ absurd h (s.turns.lock_release_ne_held call i)
      draining := fun _ ↦ .inr rfl
      outlet := fun _ ↦ ⟨hstopped, hs.unmanned_of_held held all⟩ }

end Coupled

/-! ### Runs -/

section Runs

variable {policy : Policy} {s t : State} {a : Action} {as : List Action} {notes new : List Note}

/-- The runs of a pool. -/
theorem run_iff : s.run policy as = some (t, notes) ↔ Runs (act · policy) s as t notes := by
  refine @Runs.iff_of_eqns _ _ _ (act · policy) s t as notes (run · policy) ?_ ?_
  · exact fun _ ↦ rfl
  · intro s a as
    rw [run]
    rcases s.act policy a with - | ⟨t, new⟩
    · rfl
    · cases hrun : t.run policy as <;> simp [hrun]

/-- The parts of the state hang together after every run. -/
theorem Coupled.of_runs (hs : s.Coupled) (h : Runs (act · policy) s as t notes) : t.Coupled := by
  induction h with
  | refl => exact hs
  | tail _ act_eq ih => exact ih.of_change (ih.change act_eq)

/-- An induction over the changes of a run. -/
theorem Coupled.runs_induction {motive : List Action → State → List Note → Prop}
    (hs : s.Coupled) (h : Runs (act · policy) s as t notes) (refl : motive [] s [])
    (tail : ∀ {as t notes a u new}, t.Coupled → Change policy t a u new → motive as t notes →
      motive (as ++ [a]) u (notes ++ new)) : motive as t notes := by
  induction h with
  | refl => exact refl
  | tail run act_eq ih =>
    have ht := hs.of_runs run
    exact tail ht (ht.change act_eq) ih

end Runs

end State

end Conveyor.Moderation.Pool
