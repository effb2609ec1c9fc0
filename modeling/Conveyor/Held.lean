import Conveyor.Event.Codec
import Conveyor.Moderation.Job
import Conveyor.Time.DateTime

/-!
# Items as they are held

An item in memory has its times as `DateTime`s, and these hold leap seconds that no text denotes. It
is written as the item with what clocks show at those times (`heldJson`), and what is read from a text
is held with the times that the text denotes (`heldDecoder`).

The parts of the program take items as clocks show them. The form here is for what can only be said of
items in memory: which of them come back from the text that is written for them.
-/

namespace Conveyor

open Json Moderation Time

/-- A kind of items with times in them, which may have any form. -/
class Timed (F : Type → Type) where
  /-- The item with its times in another form. -/
  mapTime {τ υ : Type} (f : τ → υ) : F τ → F υ
  /-- All times in the item have a property. -/
  AllTimes {τ : Type} (p : τ → Prop) : F τ → Prop
  mapTime_id {τ : Type} (a : F τ) : mapTime id a = a
  mapTime_mapTime {τ υ ω : Type} (g : υ → ω) (f : τ → υ) (a : F τ) :
    mapTime g (mapTime f a) = mapTime (g ∘ f) a
  mapTime_eq_self_iff {τ : Type} (f : τ → τ) (a : F τ) :
    mapTime f a = a ↔ AllTimes (fun t ↦ f t = t) a

/-- An event has one time. -/
instance : Timed @Event where
  mapTime f e :=
    { source := e.source, level := e.level, message := e.message, fields := e.fields,
      timestamp := f e.timestamp }
  AllTimes p e := p e.timestamp
  mapTime_id _ := rfl
  mapTime_mapTime _ _ _ := rfl
  mapTime_eq_self_iff f e := by
    cases e
    simp

/-- A job has one time, which may not be known. -/
instance : Timed @Job where
  mapTime f j :=
    { contentId := j.contentId, authorId := j.authorId, body := j.body,
      submitted := j.submitted.map f }
  AllTimes p j := ∀ t ∈ j.submitted, p t
  mapTime_id j := by simp
  mapTime_mapTime g f j := by simp
  mapTime_eq_self_iff f j := by
    obtain ⟨contentId, authorId, body, submitted⟩ := j
    cases submitted <;> simp

/-- A verdict has a time of its own besides that of its job. -/
instance : Timed @Verdict where
  mapTime f v :=
    { job := Timed.mapTime f v.job, decision := v.decision, reason := v.reason,
      processedAt := f v.processedAt }
  AllTimes p v := Timed.AllTimes p v.job ∧ p v.processedAt
  mapTime_id v := by simp [Timed.mapTime_id]
  mapTime_mapTime g f v := by simp [Timed.mapTime_mapTime]
  mapTime_eq_self_iff f v := by
    cases v
    simp [Timed.mapTime_eq_self_iff]

namespace Timed

variable {F : Type → Type} [Timed F]

/-- An item in memory as JSON, by the way in which it is written with what clocks show. -/
def heldJson (json : F Timestamp → Value) (a : F DateTime) : Value :=
  json (mapTime DateTime.shown a)

/-- The decoder of an item in memory, by the decoder of what clocks show. -/
def heldDecoder (d : Decoder (F Timestamp)) : Decoder (F DateTime) :=
  d.map (mapTime Timestamp.held)

/-- The item with every leap second inside a minute taken for the second that follows. -/
def settled (a : F DateTime) : F DateTime :=
  mapTime DateTime.settled a

/-- All times in the item are regular. -/
def IsRegular (a : F DateTime) : Prop :=
  AllTimes DateTime.IsRegular a

/-- What is held is shown as it was. -/
theorem shown_held (a : F Timestamp) : mapTime DateTime.shown (mapTime Timestamp.held a) = a := by
  have hshown : DateTime.shown ∘ Timestamp.held = id := funext Timestamp.shown_held
  rw [mapTime_mapTime, hshown, mapTime_id]

/-- What is shown is held settled. -/
theorem held_shown (a : F DateTime) :
    mapTime Timestamp.held (mapTime DateTime.shown a) = settled a := by
  have hheld : Timestamp.held ∘ DateTime.shown = DateTime.settled := funext DateTime.held_shown
  rw [mapTime_mapTime, hheld, settled]

/-- An item is settled if and only if it is regular. -/
theorem settled_eq_self_iff (a : F DateTime) : settled a = a ↔ IsRegular a := by
  simp only [settled, mapTime_eq_self_iff, DateTime.settled_eq_self_iff, IsRegular]

end Timed

end Conveyor
