import Conveyor.Proofs.Policy.Matching
import Conveyor.Proofs.Text.LowerTwice

/-!
# Laws of banned terms

A configured term that counts is not empty, has no blank at either end and is in lower case already,
so it may be configured as it is compared (`ofTerms_terms`). Bodies are compared in lower case, and a
body that is in lower case already is judged as before (`firstMatch?_lower`).

Terms are looked for in configured order. So of two lists of terms the second one only counts if none
of the first occurs (`evaluate_append`), and a job is flagged or not whatever the order is, which only
shows in the term that is named. The main statement is `matching_laws`.
-/

namespace Conveyor.Moderation.BannedTerms

open Text Time

variable {terms more : List String} {t body : String}

/-! ### How terms are compared -/

theorem trim_normalise (term : String) : trim (normalise term) = normalise term := by
  have htrimmed : Trimmed (normalise term).toList := by
    rw [toList_normalise, toList_trim]
    exact (trimmed_trimChars _).lowerChars
  rw [trim, trimChars_eq_self_iff.2 htrimmed, String.ofList_toList]

/-- What a term is compared as is compared as it is. -/
theorem normalise_normalise (term : String) : normalise (normalise term) = normalise term := by
  rw [normalise, trim_normalise, lower, toList_normalise, lowerChars_lowerChars, ← toList_normalise,
    String.ofList_toList]

theorem mem_terms_iff : t ∈ (ofTerms terms).terms ↔ t ≠ "" ∧ ∃ term ∈ terms, normalise term = t := by
  rw [ofTerms, List.mem_filter, List.mem_map, Bool.not_eq_true', String.isEmpty_eq_false_iff,
    and_comm]

theorem normalise_of_mem (h : t ∈ (ofTerms terms).terms) : normalise t = t := by
  obtain ⟨-, term, -, rfl⟩ := mem_terms_iff.1 h
  exact normalise_normalise term

/-- The policy for the terms as they are compared is the same. -/
theorem ofTerms_terms (terms : List String) : ofTerms (ofTerms terms).terms = ofTerms terms := by
  have hmap : (ofTerms terms).terms.map normalise = (ofTerms terms).terms :=
    (List.map_congr_left (g := id) fun _ ↦ normalise_of_mem).trans (List.map_id _)
  have hfilter : ((ofTerms terms).terms.filter fun t ↦ !t.isEmpty) = (ofTerms terms).terms := by
    refine List.filter_eq_self.2 fun t ht ↦ ?_
    rw [Bool.not_eq_true', String.isEmpty_eq_false_iff]
    exact (mem_terms_iff.1 ht).1
  rw [ofTerms, hmap, hfilter]

/-- Configured one after the other, terms are compared one after the other. -/
theorem terms_append (terms more : List String) :
    (ofTerms (terms ++ more)).terms = (ofTerms terms).terms ++ (ofTerms more).terms := by
  rw [ofTerms, List.map_append, List.filter_append]
  rfl

/-! ### Which term is named -/

section Judged

variable (b : BannedTerms) (now : Timestamp) (job : Job)

/-- The lower case of a body has the same terms in it. -/
theorem firstMatch?_lower (body : String) : b.firstMatch? (lower body) = b.firstMatch? body := by
  rw [firstMatch?, firstMatch?, lower, String.toList_ofList, lowerChars_lowerChars]

/-- The term that is named is the first one that occurs. -/
theorem firstMatch?_eq_some_iff : b.firstMatch? body = some t ↔
    t.toList <:+: (lower body).toList ∧
      ∃ front back, b.terms = front ++ t :: back ∧
        ∀ u ∈ front, ¬u.toList <:+: (lower body).toList := by
  have hnot (u : String) : (!occurs u.toList (lowerChars body.toList)) = true ↔
      ¬u.toList <:+: lowerChars body.toList := by
    rw [Bool.not_eq_true', ← Bool.not_eq_true, occurs_iff]
  rw [firstMatch?, List.find?_eq_some_iff_append, lower, String.toList_ofList, occurs_iff]
  simp only [hnot]

theorem isSome_firstMatch? : (b.firstMatch? body).isSome = true ↔
    ∃ t ∈ b.terms, t.toList <:+: (lower body).toList := by
  rw [firstMatch?, List.find?_isSome, lower, String.toList_ofList]
  simp only [occurs_iff]

theorem decision_eq_flagged_iff :
    (b.evaluate now job).decision = .flagged ↔ (b.firstMatch? job.body).isSome = true := by
  rw [evaluate]
  cases b.firstMatch? job.body <;> simp

theorem job_evaluate : (b.evaluate now job).job = job := by
  rw [evaluate]
  cases b.firstMatch? job.body <;> rfl

end Judged

/-- Further terms count for a job for which the first ones do not. -/
theorem evaluate_append (terms more : List String) (now : Timestamp) (job : Job) :
    (ofTerms (terms ++ more)).evaluate now job =
      if ((ofTerms terms).evaluate now job).decision = .flagged then
        (ofTerms terms).evaluate now job
      else (ofTerms more).evaluate now job := by
  have hfirst : (ofTerms (terms ++ more)).firstMatch? job.body =
      ((ofTerms terms).firstMatch? job.body).or ((ofTerms more).firstMatch? job.body) := by
    rw [firstMatch?, terms_append, List.find?_append]
    rfl
  simp only [decision_eq_flagged_iff]
  rw [evaluate, hfirst, evaluate, evaluate]
  cases (ofTerms terms).firstMatch? job.body <;> rfl

/-- A job that is flagged for some terms is flagged for all lists that have these terms. -/
theorem flagged_of_subset (h : terms ⊆ more) (now : Timestamp) (job : Job)
    (hflagged : ((ofTerms terms).evaluate now job).decision = .flagged) :
    ((ofTerms more).evaluate now job).decision = .flagged := by
  rw [decision_eq_flagged_iff, isSome_firstMatch?] at hflagged ⊢
  obtain ⟨t, ht, hoccurs⟩ := hflagged
  obtain ⟨hne, term, hterm, hnormalise⟩ := mem_terms_iff.1 ht
  exact ⟨t, mem_terms_iff.2 ⟨hne, term, h hterm, hnormalise⟩, hoccurs⟩

/-! ### All laws -/

/-- What holds of the terms of a policy, and of a job that is judged by it at some time, with
further terms or with the same terms in another order. -/
structure Laws (terms more : List String) (now : Timestamp) (job : Job) : Prop where
  /-- The terms that count are not empty, trimmed, and compared as they are. -/
  settled : ∀ t ∈ (ofTerms terms).terms, t ≠ "" ∧ trim t = t ∧ normalise t = t
  /-- They may be configured in place of the terms that they come from. -/
  again : ofTerms (ofTerms terms).terms = ofTerms terms
  /-- Further terms count only if none of the first occurs. -/
  append : (ofTerms (terms ++ more)).evaluate now job =
    if ((ofTerms terms).evaluate now job).decision = .flagged then
      (ofTerms terms).evaluate now job
    else (ofTerms more).evaluate now job
  /-- No job is flagged for some terms and not for these with others. -/
  subset : terms ⊆ more → ((ofTerms terms).evaluate now job).decision = .flagged →
    ((ofTerms more).evaluate now job).decision = .flagged
  /-- The decision does not show the order of the terms. -/
  perm : terms.Perm more → ((ofTerms terms).evaluate now job).decision =
    ((ofTerms more).evaluate now job).decision
  /-- The body in lower case is judged as the body is. -/
  lowered : ((ofTerms terms).evaluate now { job with body := lower job.body }).decision =
      ((ofTerms terms).evaluate now job).decision ∧
    ((ofTerms terms).evaluate now { job with body := lower job.body }).reason =
      ((ofTerms terms).evaluate now job).reason
  /-- The verdict is on the job as it is. -/
  unchanged : ((ofTerms terms).evaluate now job).job = job
  /-- A job is flagged if and only if a term occurs in its body in lower case. -/
  flagged_iff : ((ofTerms terms).evaluate now job).decision = .flagged ↔
    ∃ t ∈ (ofTerms terms).terms, t.toList <:+: (lower job.body).toList
  /-- The reason names the first term that occurs. -/
  named : ((ofTerms terms).evaluate now job).decision = .flagged →
    ∃ front t back, (ofTerms terms).terms = front ++ t :: back ∧
      t.toList <:+: (lower job.body).toList ∧
      (∀ u ∈ front, ¬u.toList <:+: (lower job.body).toList) ∧
      ((ofTerms terms).evaluate now job).reason = "contains banned term: " ++ t
  /-- A job that is not flagged has passed. -/
  passed : ((ofTerms terms).evaluate now job).decision ≠ .flagged →
    ((ofTerms terms).evaluate now job).reason = "passed automated moderation"

/-- **Laws of matching.** Whatever the terms, the job and the time are: the terms that count are
settled, they are looked for in order and in the body in lower case, and the job stays as it is. -/
theorem matching_laws (terms more : List String) (now : Timestamp) (job : Job) :
    Laws terms more now job where
  settled t ht := by
    obtain ⟨hne, term, -, rfl⟩ := mem_terms_iff.1 ht
    exact ⟨hne, trim_normalise term, normalise_normalise term⟩
  again := ofTerms_terms terms
  append := evaluate_append terms more now job
  subset h := flagged_of_subset h now job
  perm h := by
    have hext {d e : Decision} (hiff : d = .flagged ↔ e = .flagged) : d = e := by
      cases d <;> cases e <;> simp at hiff ⊢
    exact hext ⟨flagged_of_subset h.subset now job, flagged_of_subset h.symm.subset now job⟩
  lowered := by
    rw [evaluate, evaluate, firstMatch?_lower]
    cases (ofTerms terms).firstMatch? job.body <;> exact ⟨rfl, rfl⟩
  unchanged := job_evaluate _ now job
  flagged_iff := by rw [decision_eq_flagged_iff, isSome_firstMatch?]
  named hflagged := by
    obtain ⟨t, hfirst⟩ := Option.isSome_iff_exists.1 ((decision_eq_flagged_iff ..).1 hflagged)
    obtain ⟨hoccurs, front, back, hsplit, hfront⟩ := (firstMatch?_eq_some_iff _).1 hfirst
    refine ⟨front, t, back, hsplit, hoccurs, hfront, ?_⟩
    rw [evaluate, hfirst]
  passed hpassed := by
    rw [Ne, decision_eq_flagged_iff, Option.not_isSome_iff_eq_none] at hpassed
    rw [evaluate, hpassed]

/-- The same terms in two orders: the decision is the same, and another term is named. -/
theorem matching_laws_sample :
    (ofTerms [" Zebra", "", "ÄPFEL"]).terms = ["zebra", "äpfel"] ∧
      ((ofTerms [" Zebra", "", "ÄPFEL"]).evaluate .epoch (samplePost "Äpfel, ZEBRA")).decision =
        ((ofTerms ["ÄPFEL", " Zebra", ""]).evaluate .epoch (samplePost "Äpfel, ZEBRA")).decision ∧
      ((ofTerms [" Zebra", "", "ÄPFEL"]).evaluate .epoch (samplePost "Äpfel, ZEBRA")).reason =
        "contains banned term: zebra" ∧
      ((ofTerms ["ÄPFEL", " Zebra", ""]).evaluate .epoch (samplePost "Äpfel, ZEBRA")).reason =
        "contains banned term: äpfel" := by
  have hperm : [" Zebra", "", "ÄPFEL"].Perm ["ÄPFEL", " Zebra", ""] := by decide
  have hlaws := matching_laws [" Zebra", "", "ÄPFEL"] ["ÄPFEL", " Zebra", ""] .epoch
    (samplePost "Äpfel, ZEBRA")
  refine ⟨by decide +kernel, hlaws.perm hperm, by decide +kernel, by decide +kernel⟩

end Conveyor.Moderation.BannedTerms
