import Conveyor.Guarded
import Conveyor.Proofs.Metrics.PerKey
import Conveyor.Proofs.Sink.Ring

/-!
# Values behind a lock, holder after holder

Behind a lock there is what the holders made of the value one after the other, whether each gave the
lock back or died with it (`read_updateAll`). So whatever is known of a value after changes in order
is known of it behind a lock as well. The ring of recent events and the aggregator lie behind locks:
`recent_guarded` and `perKey_guarded` say that they lose nothing to holders that die.
-/

namespace Conveyor

namespace Guarded

variable {α β : Type} {change : β → α → α}

/-- Lets holders change the value in order, each in the way that `change` gives for what it brings. -/
def updateAll (change : β → α → α) (g : Guarded α) (holders : List (β × Release)) : Guarded α :=
  holders.foldl (fun g holder ↦ g.update (change holder.1) holder.2) g

/-- All changes are made in order, and how the holders end does not matter. -/
theorem read_updateAll (g : Guarded α) (holders : List (β × Release)) :
    (g.updateAll change holders).read =
      (holders.map Prod.fst).foldl (fun a b ↦ change b a) g.read := by
  induction holders generalizing g with
  | nil => rfl
  | cons holder holders ih =>
    rw [updateAll, List.foldl_cons, ← updateAll, ih, read_update, List.map_cons, List.foldl_cons]

/-- The lock remembers that a holder died, for good. -/
theorem poisoned_updateAll (g : Guarded α) (holders : List (β × Release)) :
    (g.updateAll change holders).poisoned =
      (g.poisoned || holders.any fun holder ↦ holder.2 == .died) := by
  induction holders generalizing g with
  | nil => exact (Bool.or_false _).symm
  | cons holder holders ih =>
    rw [updateAll, List.foldl_cons, ← updateAll, ih, update, List.any_cons, Bool.or_assoc]

end Guarded

/-- A ring behind a lock keeps the latest of the events that were put in, by whomever. -/
theorem Sink.Ring.recent_guarded (n : Nat) (holders : List (Event × Release)) :
    (Guarded.updateAll (fun e r ↦ r.push e) ⟨ofCapacity n, false⟩ holders).read.recent =
      (holders.map Prod.fst).rtake (ofCapacity n).capacity := by
  rw [Guarded.read_updateAll]
  exact recent_foldl_push n _

/-- An aggregator behind a lock holds one summary for each key of the samples that were brought, by
whomever. -/
theorem Metrics.perKey_guarded (holders : List (Arrival × Release)) :
    PerKey (holders.map Prod.fst)
      (Guarded.updateAll (fun p a ↦ (a.ingest p.1 p.2).2) ⟨.empty, false⟩ holders).read := by
  rw [Guarded.read_updateAll]
  exact .of_arrivals _

end Conveyor
