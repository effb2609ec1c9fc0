/-!
# Faults

What can be wrong with an item (`ItemFault`), why a queue turns an item or a registration away
(`QueueRefusal`), and the wording of each.

Only a full queue is worth another try later; the other refusals are final.
-/

namespace Conveyor

/-- A fault found while an item is checked. -/
inductive ItemFault where
  /-- The item lacks something it needs. -/
  | invalid (text : String)
  /-- The check itself failed. -/
  | internal (text : String)
  deriving DecidableEq, Repr

namespace ItemFault

/-- The wording of a fault. -/
def message : ItemFault → String
  | invalid text => "Validation failed: " ++ text
  | internal text => "Internal error: " ++ text

end ItemFault

/-- Why a queue turned something away. -/
inductive QueueRefusal where
  /-- The queue holds as many items as it can. -/
  | full (queue : String) (capacity : Nat)
  /-- The queue takes no items any more. -/
  | closed (queue : String)
  /-- The queue is already being emptied, so nothing can be registered with it. -/
  | alreadyStarted (queue : String)
  deriving DecidableEq, Repr

namespace QueueRefusal

/-- The wording of a refusal. -/
def message : QueueRefusal → String
  | full queue capacity => queue ++ " backpressure: queue full (capacity " ++ toString capacity ++ ")"
  | closed queue => queue ++ " is stopped and no longer accepts items"
  | alreadyStarted queue => queue ++ " has already started; registration must happen before start"

/-- The refusal says that the queue is full. -/
def isFull : QueueRefusal → Bool
  | full _ _ => true
  | _ => false

end QueueRefusal

/-- The answer of a queue to an item: taken, or why not. -/
abbrev Admission := Except QueueRefusal Unit

end Conveyor
