import Conveyor.Proofs.Json.Items

/-!
# Submissions extend items

Whatever text reads as an event reads as a submission of that very event, and the same goes for jobs.
The two sides are read through tables of the same fields, so the reason is said of tables: if each
field of a table takes all that a field of another one takes, and puts it into the same place
(`Decoder.Field.Extends`), then so do the records (`Decoder.record_of_extends`), in the form of an
object as in that of an array. What is left is that a draft with all required parts is the submission
of its item.
-/

namespace Conveyor

namespace Json

variable {α σ : Type}

/-- A chain of two decisions comes to a result if the first one does and the second one does with
that. -/
theorem bind_eq_ok_iff {β : Type} {x : Except Refusal α} {f : α → Except Refusal β} {b : β} :
    (x >>= f) = .ok b ↔ ∃ a, x = .ok a ∧ f a = .ok b := by
  cases x <;> simp [bind, Except.bind]

/-! ### Tables of fields -/

namespace Decoder

/-- The second field has the name and the place of the first one, and takes whatever that takes. -/
structure Field.Extends (f g : Field σ) : Prop where
  /-- Both have one name. -/
  name_eq : g.name = f.name
  /-- Both have one place. -/
  isSet_eq : g.isSet = f.isSet
  /-- What the first one takes the second one takes, with the same draft as result. -/
  set_of_ok : ∀ n draft last, f.set n draft = .ok last → g.set n draft = .ok last

theorem Field.Extends.refl (f : Field σ) : f.Extends f := ⟨rfl, rfl, fun _ _ _ h ↦ h⟩

variable {fs gs : List (Field σ)} {n : Node} {draft last : σ}

/-- A key finds fields that extend one another, or none in both tables. -/
theorem find?_of_extends (h : List.Forall₂ Field.Extends fs gs) (k : String) :
    Option.Rel Field.Extends (fs.find? (·.name == k)) (gs.find? (·.name == k)) := by
  induction h with
  | nil => exact .none
  | @cons f g fs gs hfg _ ih =>
    rw [List.find?_cons, List.find?_cons, hfg.name_eq]
    split
    · exact .some hfg
    · exact ih

/-- A member that is taken into a draft by one table is taken by one that extends it. -/
theorem readMember_of_extends (h : List.Forall₂ Field.Extends fs gs) {member : Option String × Node}
    (hread : readMember fs draft member = .ok last) : readMember gs draft member = .ok last := by
  rcases member with ⟨- | k, n⟩
  · exact hread
  have hfind := find?_of_extends h k
  rw [readMember, bind_eq_ok_iff] at hread ⊢
  obtain ⟨_, hkey, hread⟩ := hread
  obtain rfl := Except.ok.inj hkey
  refine ⟨k, rfl, ?_⟩
  generalize fs.find? (·.name == k) = f at hfind hread
  generalize gs.find? (·.name == k) = g at hfind
  cases hfind with
  | none => exact hread
  | @some f g hfg =>
    cases hset : f.isSet draft with
    | true => simp [hset] at hread
    | false =>
      simp only [hset, Bool.false_eq_true, if_false] at hread
      simp only [hfg.isSet_eq, hset, Bool.false_eq_true, if_false]
      exact hfg.set_of_ok n draft last hread

/-- So are the members of an object, one after the other. -/
theorem foldlM_readMember_of_extends (h : List.Forall₂ Field.Extends fs gs)
    (members : List (Option String × Node)) (hread : members.foldlM (readMember fs) draft = .ok last) :
    members.foldlM (readMember gs) draft = .ok last := by
  induction members generalizing draft with
  | nil => exact hread
  | cons member members ih =>
    rw [List.foldlM_cons, bind_eq_ok_iff] at hread ⊢
    obtain ⟨next, hfirst, hrest⟩ := hread
    exact ⟨next, readMember_of_extends h hfirst, ih hrest⟩

/-- So are the elements of an array. -/
theorem readElements_of_extends (h : List.Forall₂ Field.Extends fs gs) (closed : Bool)
    (elements : List Node) (hread : readElements closed fs elements draft = .ok last) :
    readElements closed gs elements draft = .ok last := by
  induction h generalizing elements draft with
  | nil => exact hread
  | @cons f g fs gs hfg _ ih =>
    cases elements with
    | nil => exact hread
    | cons n elements =>
      rw [readElements, bind_eq_ok_iff] at hread ⊢
      obtain ⟨next, hfirst, hrest⟩ := hread
      exact ⟨next, hfg.set_of_ok n draft next hfirst, ih elements hrest⟩

/-- A record that is read by one table is read by one that extends it, in either form. -/
theorem record_of_extends (h : List.Forall₂ Field.Extends fs gs)
    (hread : record fs draft n = .ok last) : record gs draft n = .ok last := by
  cases n with
  | object members closed =>
    simp only [record, bind_eq_ok_iff] at hread ⊢
    obtain ⟨next, hmembers, hclosed⟩ := hread
    exact ⟨next, foldlM_readMember_of_extends h members hmembers, hclosed⟩
  | array elements closed => exact readElements_of_extends h closed elements hread
  | _ => exact hread

/-- A required part that is there. -/
theorem required_eq_ok_iff {v : Option α} {a : α} : required v = .ok a ↔ v = some a := by
  cases v <;> simp [required]

end Decoder

/-- A document is decoded if nothing but its value is in it, and that is decoded. -/
theorem Document.decode_eq_ok_iff {d : Decoder α} {doc : Document} {a : α} :
    doc.decode d = .ok a ↔ d doc.root = .ok a ∧ doc.clean = true := by
  rw [Document.decode, bind_eq_ok_iff]
  cases doc.clean <;> simp [Decoder.closing]

end Json

/-! ### Events -/

namespace Event

open Json Time

/-- A submission may have all that an event has. -/
theorem Draft.table_extends :
    List.Forall₂ Decoder.Field.Extends (table fun n ↦ (Decoder.timestamp n).map some)
      (table (.optional .timestamp)) := by
  refine .cons (.refl _) <| .cons (.refl _) <| .cons (.refl _) <| .cons (.refl _) <|
    .cons ⟨rfl, rfl, ?_⟩ .nil
  intro n draft last hset
  rcases htime : Decoder.timestamp n with why | t
  · simp [Decoder.Field.of, htime, Except.map] at hset
  · simpa [Decoder.Field.of, htime, optional_timestamp_of_ok htime, Except.map] using hset

/-- A draft that makes an event makes a submission of it, whatever the time. -/
theorem Draft.submission_of_event {draft : Draft} {e : Event} (h : draft.event = .ok e)
    (now : Timestamp) : (Submission.ofDraft draft).event now = e := by
  simp only [Draft.event, bind_eq_ok_iff, Decoder.required_eq_ok_iff] at h
  obtain ⟨source, hsource, level, hlevel, message, hmessage, timestamp, htime, he⟩ := h
  obtain rfl := Except.ok.inj he
  simp [Submission.ofDraft, Submission.event, hsource, hlevel, hmessage, htime, Event.new,
    withFields, withTimestamp]

/-- What reads as an event reads as a submission of that event. -/
theorem submission_of_decode {doc : Document} {e : Event} (h : doc.decode decoder = .ok e) :
    ∃ x, doc.decode Submission.decoder = .ok x ∧ ∀ now, x.event now = e := by
  obtain ⟨hroot, hclean⟩ := Document.decode_eq_ok_iff.1 h
  obtain ⟨draft, hdraft, hevent⟩ := bind_eq_ok_iff.1 hroot
  have hread := Decoder.record_of_extends Draft.table_extends hdraft
  refine ⟨.ofDraft draft, Document.decode_eq_ok_iff.2 ⟨?_, hclean⟩, fun now ↦ ?_⟩
  · exact bind_eq_ok_iff.2 ⟨draft, hread, rfl⟩
  · exact Draft.submission_of_event hevent now

end Event

/-! ### Jobs -/

namespace Moderation.Job

open Json

/-- A draft that makes a job makes a submission of it. -/
theorem Draft.submission_of_job {draft : Draft} {j : Job} (h : draft.job = .ok j) :
    (Submission.ofDraft draft).job = j := by
  simp only [Draft.job, bind_eq_ok_iff, Decoder.required_eq_ok_iff] at h
  obtain ⟨contentId, hcontent, authorId, hauthor, body, hbody, hj⟩ := h
  obtain rfl := Except.ok.inj hj
  simp [Submission.ofDraft, Submission.job, hcontent, hauthor, hbody]

/-- What reads as a job reads as a submission of that job. -/
theorem submission_of_decode {doc : Document} {j : Job} (h : doc.decode decoder = .ok j) :
    ∃ x, doc.decode Submission.decoder = .ok x ∧ x.job = j := by
  obtain ⟨hroot, hclean⟩ := Document.decode_eq_ok_iff.1 h
  obtain ⟨draft, hdraft, hjob⟩ := bind_eq_ok_iff.1 hroot
  refine ⟨.ofDraft draft, Document.decode_eq_ok_iff.2 ⟨?_, hclean⟩, Draft.submission_of_job hjob⟩
  exact bind_eq_ok_iff.2 ⟨draft, hdraft, rfl⟩

end Moderation.Job

end Conveyor
