import Conveyor.Held
import Conveyor.Proofs.Dict
import Conveyor.Proofs.Json.Written
import Conveyor.Proofs.Time.Written

/-!
# Items as JSON

Events, jobs and verdicts are read back from the text that is written for them, and what is read
from any other text has that text as its one canonical form. The main statement is
`roundTrips_items`, which is about items as they are held in memory. Those may be in a leap second
inside a minute, which is written as the second that follows, so an item comes back with its times
*settled*: as it was if all of them are regular, and only then (`Event.inLeapSecond_not_read_back`).

A decoder meets a value in the middle of a text as the tree that the reader makes of it. `Decodes`
joins the two sides, the tree and what the decoder makes of it, and is shown for the parts of an item
first: texts, levels, points in time, maps of texts.
-/

namespace Conveyor

namespace Json

open Decoder Time

variable {α : Type}

/-- The decoder makes this of the value, as it is read. -/
def Decodes (d : Decoder α) (v : Value) (a : α) : Prop := ∃ n, v.ReadsAs n ∧ d n = .ok a

/-- A text that is written is decoded. -/
theorem Decodes.decode_render {d : Decoder α} {v : Value} {a : α} (h : Decodes d v a) :
    (Document.ofText v.render).decode d = .ok a := by
  obtain ⟨n, hreads, hdecoded⟩ := h
  rw [hreads.ofText_render, Document.decode, hdecoded]
  rfl

/-! ### Parts of items -/

theorem decodes_text (s : String) : Decodes text (.text s) s :=
  ⟨_, Value.readsAs_text s, rfl⟩

/-- A text is read as what a partial function makes of it. -/
theorem decodes_ofText? {f : String → Option α} {s : String} {a : α} (h : f s = some a) :
    Decodes (ofText? f) (.text s) a := by
  refine ⟨_, Value.readsAs_text s, ?_⟩
  show known f s = .ok a
  rw [known, h]

/-- A level is read back from its name. -/
theorem decodes_level (l : Level) : Decodes level (.text l.name) l :=
  decodes_ofText? (congrArg some l.parse_name)

theorem decodes_timestamp (t : Timestamp) : Decodes timestamp (.ofTimestamp t) t :=
  decodes_ofText? t.ofText?_text

/-- What is decoded as a point in time is decoded as one that may be absent. -/
theorem optional_timestamp_of_ok {n : Node} {t : Timestamp} (h : timestamp n = .ok t) :
    Decoder.optional timestamp n = .ok (some t) := by
  cases n with
  | null => exact absurd h (by simp [timestamp, ofText?, text, bind, Except.bind])
  | _ => simp only [Decoder.optional, h, Except.map]

theorem decodes_optional_timestamp (t : Option Timestamp) :
    Decodes (Decoder.optional timestamp) (.ofOption .ofTimestamp t) t := by
  cases t with
  | none => exact ⟨.null, Value.readsAs_null, rfl⟩
  | some t =>
    obtain ⟨n, hreads, hdecoded⟩ := decodes_timestamp t
    exact ⟨n, hreads, optional_timestamp_of_ok hdecoded⟩

/-- A map of texts is filled again entry by entry. -/
theorem foldlM_fieldsMember (entries : List (String × String)) (d : Dict String) :
    (entries.map fun e ↦ (some e.1, Node.string (some e.2))).foldlM fieldsMember d =
      .ok (entries.foldl (fun d e ↦ d.insert e.1 e.2) d) := by
  induction entries generalizing d with
  | nil => rfl
  | cons e entries ih =>
    rw [List.map_cons, List.foldlM_cons, List.foldl_cons, ← ih]
    rfl

theorem decodes_fields (d : Dict String) : Decodes fields (.ofFields d) d := by
  refine ⟨.object (d.toList.map fun e ↦ (some e.1, .string (some e.2))) true, ?_, ?_⟩
  · refine Value.readsAs_object (List.forall₂_map_left_iff.2 (List.forall₂_map_right_iff.2 ?_))
    exact List.forall₂_same.2 fun e _ ↦ ⟨rfl, Value.readsAs_text e.2⟩
  · have hfilled := foldlM_fieldsMember d.toList .empty
    have hsame : d.toList.foldl (fun d e ↦ d.insert e.1 e.2) Dict.empty = d := d.ofList_toList
    simp only [fields, hfilled, hsame]
    rfl

/-! ### Records -/

/-- What a decoder makes of a value may be turned into something else. -/
theorem Decodes.andThen {β : Type} {d : Decoder α} {v : Value} {a : α} {b : β}
    (h : Decodes d v a) {f : α → Except Refusal β} (hf : f a = .ok b) :
    Decodes (fun n ↦ do f (← d n)) v b := by
  obtain ⟨n, hreads, hdecoded⟩ := h
  refine ⟨n, hreads, ?_⟩
  simp only [hdecoded]
  exact hf

/-- A member whose key is that of a field that is not set is decoded and put into its place. -/
theorem readMember_of_known {σ : Type} {fs : List (Decoder.Field σ)} {key name : String}
    {get : σ → Option α} {put : σ → α → σ} {d : Decoder α} {draft : σ} (n : Node)
    (known : fs.find? (·.name == key) = some (.of name get put d)) (unset : get draft = none) :
    readMember fs draft (some key, n) = (d n).map (put draft) := by
  simp only [readMember, Decoder.key, bind, Except.bind, known, Decoder.Field.of, unset]
  rfl

/-- Members whose keys are those of fields that are not set fill a draft, one after the other. -/
inductive Fills {σ : Type} (fs : List (Decoder.Field σ)) : List (String × Value) → σ → σ → Prop where
  /-- No member is left. -/
  | done {draft : σ} : Fills fs [] draft draft
  /-- The member is decoded and put into its place. -/
  | next {members : List (String × Value)} {draft last : σ} {α : Type} {name : String}
      {get : σ → Option α} {put : σ → α → σ} {d : Decoder α} {v : Value} {a : α}
      (known : fs.find? (·.name == name) = some (.of name get put d)) (unset : get draft = none)
      (decodes : Decodes d v a) (later : Fills fs members (put draft a) last) :
      Fills fs ((name, v) :: members) draft last

/-- An object is decoded into the draft that its members fill. -/
theorem Fills.decodes {σ : Type} {fs : List (Decoder.Field σ)} {members : List (String × Value)}
    {start last : σ} (h : Fills fs members start last) :
    Decodes (record fs start) (.object members) last := by
  have hnodes : ∃ nodes, List.Forall₂ Value.MemberReadsAs members nodes ∧
      nodes.foldlM (readMember fs) start = .ok last := by
    induction h with
    | done => exact ⟨[], .nil, rfl⟩
    | @next members draft last α name get put d v a known unset decodes later ih =>
      obtain ⟨n, hreads, hdecoded⟩ := decodes
      obtain ⟨nodes, hmembers, hlater⟩ := ih
      refine ⟨(some name, n) :: nodes, .cons ⟨rfl, hreads⟩ hmembers, ?_⟩
      have hmember : readMember fs draft (some name, n) = .ok (put draft a) := by
        rw [readMember_of_known n known unset, hdecoded]
        rfl
      rw [List.foldlM_cons, hmember]
      exact hlater
  obtain ⟨nodes, hmembers, hfilled⟩ := hnodes
  refine ⟨.object nodes true, Value.readsAs_object hmembers, ?_⟩
  simp only [record, hfilled]
  rfl

end Json

/-! ### Items -/

namespace Event

open Json Time

theorem decodes_json (e : Event) : Decodes decoder e.json e := by
  have htime : Decodes (fun n ↦ (Decoder.timestamp n).map some) (.ofTimestamp e.timestamp)
      (some e.timestamp) := (decodes_timestamp e.timestamp).andThen rfl
  exact Decodes.andThen (Fills.decodes <| .next rfl rfl (decodes_text e.source) <|
    .next rfl rfl (decodes_level e.level) <| .next rfl rfl (decodes_text e.message) <|
    .next rfl rfl (decodes_fields e.fields) <| .next rfl rfl htime .done) rfl

end Event

namespace Moderation

open Json Time

theorem Job.decodes_json (j : Job) : Decodes decoder j.json j :=
  Decodes.andThen (Fills.decodes <| .next rfl rfl (decodes_text j.contentId) <|
    .next rfl rfl (decodes_text j.authorId) <| .next rfl rfl (decodes_text j.body) <|
    .next rfl rfl (decodes_optional_timestamp j.submitted) .done) rfl

/-- A decision is read back from its name. -/
theorem Decision.decodes_json (d : Decision) : Decodes decoder d.json d := by
  refine ⟨_, Value.readsAs_text d.name, ?_⟩
  show Decoder.known ofName? d.name = .ok d
  cases d <;> rfl

theorem Verdict.decodes_json (v : Verdict) : Decodes decoder v.json v :=
  Decodes.andThen (Fills.decodes <| .next rfl rfl v.job.decodes_json <|
    .next rfl rfl v.decision.decodes_json <| .next rfl rfl (decodes_text v.reason) <|
    .next rfl rfl (decodes_timestamp v.processedAt) .done) rfl

end Moderation

/-! ### The statement -/

open Json Time

namespace Timed

variable {F : Type → Type} [Timed F]

/-- What is written and what is read of a kind of item go together. -/
structure RoundTrips (d : Decoder (F Timestamp)) (json : F Timestamp → Value) : Prop where
  /-- What is written for an item is read, as the item with its times settled. -/
  decode_render : ∀ a : F DateTime,
    (Document.ofText (heldJson json a).render).decode (heldDecoder d) = .ok (settled a)
  /-- An item is read back as it was if and only if it is regular. -/
  read_back_iff : ∀ a : F DateTime,
    (Document.ofText (heldJson json a).render).decode (heldDecoder d) = .ok a ↔ IsRegular a
  /-- What is read from any text is regular. -/
  isRegular_of_decode : ∀ text a, (Document.ofText text).decode (heldDecoder d) = .ok a → IsRegular a
  /-- What is read from any text is read again from the text that is then written for it. -/
  decode_again : ∀ text a, (Document.ofText text).decode (heldDecoder d) = .ok a →
    (Document.ofText (heldJson json a).render).decode (heldDecoder d) = .ok a
  /-- That text is a canonical form: two texts that can be read have the same one if and only if they
  say the same. -/
  render_eq_iff : ∀ text other a b, (Document.ofText text).decode (heldDecoder d) = .ok a →
    (Document.ofText other).decode (heldDecoder d) = .ok b →
      ((heldJson json a).render = (heldJson json b).render ↔ a = b)

/-- Items that go through a text unchanged as clocks show them go through it settled as they are held.
-/
theorem RoundTrips.of_decodes {d : Decoder (F Timestamp)} {json : F Timestamp → Value}
    (h : ∀ a, Decodes d (json a) a) : RoundTrips d json := by
  have hrender (a : F DateTime) :
      (Document.ofText (heldJson json a).render).decode (heldDecoder d) = .ok (settled a) :=
    Document.decode_map_eq_ok_iff.2 ⟨mapTime DateTime.shown a, (h _).decode_render, held_shown a⟩
  have hback (a : F DateTime) :
      (Document.ofText (heldJson json a).render).decode (heldDecoder d) = .ok a ↔ IsRegular a := by
    rw [hrender, Except.ok.injEq, settled_eq_self_iff]
  have hregular (text : String) (a : F DateTime)
      (hdecoded : (Document.ofText text).decode (heldDecoder d) = .ok a) : IsRegular a := by
    obtain ⟨b, -, rfl⟩ := Document.decode_map_eq_ok_iff.1 hdecoded
    rw [← settled_eq_self_iff, ← held_shown, shown_held]
  have hagain (text : String) (a : F DateTime)
      (hdecoded : (Document.ofText text).decode (heldDecoder d) = .ok a) :
      (Document.ofText (heldJson json a).render).decode (heldDecoder d) = .ok a :=
    (hback a).2 (hregular text a hdecoded)
  refine ⟨hrender, hback, hregular, hagain, ?_⟩
  intro text other a b ha hb
  constructor
  · intro heq
    have hboth := hagain text a ha
    rw [heq, hagain other b hb] at hboth
    exact (Except.ok.inj hboth).symm
  · intro heq
    rw [heq]

end Timed

/-- **Round trip.** Every event, every job and every verdict in memory is read back from the text that
is written for it, whatever characters and fields are in it, with its times settled. So it is read
back as it was if and only if its times are regular, and those of what is read from a text are. -/
theorem roundTrips_items :
    Timed.RoundTrips Event.decoder Event.json ∧
      Timed.RoundTrips Moderation.Job.decoder Moderation.Job.json ∧
      Timed.RoundTrips Moderation.Verdict.decoder Moderation.Verdict.json :=
  ⟨.of_decodes Event.decodes_json, .of_decodes Moderation.Job.decodes_json,
    .of_decodes Moderation.Verdict.decodes_json⟩

/-- An event in a leap second half a minute after noon. -/
def Event.inLeapSecond : Event DateTime where
  source := "clock"
  level := .info
  message := "tick"
  fields := .empty
  timestamp := ⟨.epoch, 43230, 1500000000, by decide, by decide⟩

/-- It is written with the second that follows, and not read back. -/
theorem Event.inLeapSecond_not_read_back :
    inLeapSecond.timestamp.shown.text = "1970-01-01T12:00:31.500Z" ∧
      (Document.ofText (Timed.heldJson json inLeapSecond).render).decode
        (Timed.heldDecoder decoder) ≠ .ok inLeapSecond := by
  have hread := (Timed.RoundTrips.of_decodes decodes_json).read_back_iff inLeapSecond
  have hirregular : ¬inLeapSecond.timestamp.IsRegular := by decide
  exact ⟨by decide, fun h ↦ hirregular (hread.1 h)⟩

end Conveyor
