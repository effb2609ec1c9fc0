import Conveyor.Proofs.Pipeline.Rest
import Conveyor.Proofs.Server.Changes
import Conveyor.Proofs.Service.Rest

/-!
# The parts of a server

The parts of a server that was run have made runs of their own (`Reached`), so all that is so of
every pipeline and of every service over a new pool is so of them: the pipeline hangs together and
its task has not died, and the service is sound.
-/

namespace Conveyor.Server

open Moderation Time

/-- The parts of the server have made runs of their own, from their beginning. -/
structure Reached (s : State) : Prop where
  /-- The pipeline has made a run in which no sink died. -/
  pipeline : ∃ capacity minLevel as notes,
    Runs Pipeline.State.act (.new capacity minLevel) as s.pipeline notes ∧
      ∀ a ∈ as, a.isHarmless = true
  /-- The service has made a run over a new pool. -/
  moderation : ∃ workers capacity as notes,
    Runs (Service.State.act · s.banned.policy)
      (Service.State.ofPool (.new workers capacity)).1 as s.moderation notes

namespace Reached

variable {s t u : State} {id : Nat} {ids : List Nat} {stages : List Stage} {b : PartAction}
  {a : Action} {as : List Action} {notes : List Note} {entries : List Entry}

/-! ### Every server is reached -/

/-- Sinks are registered in a run in which none dies. -/
theorem runs_register (pipeline : Pipeline.State Outlet) (sinks : List Outlet) :
    ∃ as notes,
      Runs Pipeline.State.act pipeline as
        (sinks.foldl (fun s o ↦ (s.register o).2.1) pipeline) notes ∧
      ∀ a ∈ as, a.isHarmless = true := by
  induction sinks generalizing pipeline with
  | nil => exact ⟨[], [], .refl, by simp⟩
  | cons o sinks ih =>
    obtain ⟨as, notes, hruns, hharmless⟩ := ih (pipeline.register o).2.1
    have hfirst : Runs Pipeline.State.act pipeline [.register o] (pipeline.register o).2.1
        (pipeline.register o).2.2 := .single rfl
    refine ⟨.register o :: as, _, hfirst.trans hruns, fun a ha ↦ ?_⟩
    rcases List.mem_cons.1 ha with rfl | ha
    · rfl
    · exact hharmless a ha

/-- A new server. -/
theorem of_new (settings : Settings.Server) : Reached (State.new settings).1 where
  pipeline := by
    obtain ⟨as, notes, hruns, hharmless⟩ := runs_register
      (.new settings.pipeline.queueSize settings.pipeline.minLevel)
      ([.recent, .stdout] ++ if settings.pipeline.forwardUrl.isSome then [.webhook] else [])
    exact ⟨_, _, as, notes, hruns, hharmless⟩
  moderation := ⟨settings.moderation.workers, settings.moderation.queueSize, [], [], .refl⟩

/-- A part acts. -/
theorem of_acts (h : Reached s) (hacts : Acts s b t notes) : Reached t := by
  cases hacts with
  | pipeline acts harmless =>
    obtain ⟨capacity, minLevel, as, before, hruns, hharmless⟩ := h.pipeline
    refine ⟨⟨capacity, minLevel, _, _, hruns.tail acts, fun a ha ↦ ?_⟩, h.moderation⟩
    rcases List.mem_append.1 ha with hold | hnew
    · exact hharmless a hold
    · rw [List.mem_singleton.1 hnew, harmless]
  | moderation acts =>
    obtain ⟨workers, capacity, as, before, hruns⟩ := h.moderation
    exact ⟨h.pipeline, workers, capacity, _, _, hruns.tail acts⟩

/-- Calls come and go. -/
theorem with_pending (h : Reached s) (pending : List Pending) : Reached { s with pending } :=
  ⟨h.pipeline, h.moderation⟩

/-- A call goes through its stages. -/
theorem of_goes (h : Reached s) (hgoes : Goes id s stages t notes) : Reached t := by
  induction hgoes with
  | returns => exact h
  | waits acts => exact (h.of_acts acts).with_pending _
  | passes acts _ _ ih => exact ih (h.of_acts acts)

/-- Calls go on. -/
theorem of_proceeds (h : Reached s) (hproceeds : Proceeds s ids t notes) : Reached t := by
  induction hproceeds with
  | done => exact h
  | skip _ _ ih => exact ih h
  | next _ goes _ ih => exact ih ((h.with_pending _).of_goes goes)

/-- Something happens in the server. -/
theorem of_change (h : Reached s) (hchange : Change s a t entries) : Reached t := by
  cases hchange with
  | answer => exact ⟨h.pipeline, h.moderation⟩
  | ask acts => exact h.of_acts acts
  | issue goes => exact h.of_goes goes
  | step _ acts proceeds => exact (h.of_acts acts).of_proceeds proceeds

theorem of_runs (h : Reached s) (hruns : Runs State.act s as t entries) : Reached t := by
  induction hruns with
  | refl => exact h
  | tail _ act_eq ih => exact ih.of_change (State.change act_eq)

/-! ### What is so of the parts -/

/-- The parts of the pipeline hang together. -/
theorem coupled (h : Reached s) : s.pipeline.Coupled := by
  obtain ⟨capacity, minLevel, as, notes, hruns, -⟩ := h.pipeline
  exact (Pipeline.State.Coupled.of_new capacity minLevel).of_runs hruns

/-- The calls to the pipeline take turns. -/
theorem inOrder (h : Reached s) : s.pipeline.turns.InOrder := by
  obtain ⟨capacity, minLevel, as, notes, hruns, -⟩ := h.pipeline
  exact (Pipeline.State.Coupled.of_new capacity minLevel).inOrder_of_runs (fun _ ↦ rfl) hruns

/-- The task of the pipeline has not died. -/
theorem task_ne_failed (h : Reached s) : s.pipeline.task ≠ .failed := by
  obtain ⟨capacity, minLevel, as, notes, hruns, hharmless⟩ := h.pipeline
  exact Pipeline.task_ne_failed capacity minLevel hruns hharmless

/-- The collector reads the channel of the pool. -/
theorem reader (h : Reached s) : s.moderation.pool.reader = .taken := by
  obtain ⟨workers, capacity, as, notes, hruns⟩ := h.moderation
  exact (Service.pool_runs_of_new .refl rfl hruns).1

/-- The moderation service is sound, for its policy judges every job. -/
theorem sound (h : Reached s) : Service.Sound s.moderation := by
  obtain ⟨workers, capacity, as, notes, hruns⟩ := h.moderation
  exact .of_runs (by simp [BannedTerms.policy]) hruns

end Reached

end Conveyor.Server
