import Conveyor.Moderation.Policy
import Conveyor.Proofs.Text.Lower

/-!
# Terms that are caught

A policy compares terms and bodies in lower case, and each of them is lower-cased by itself. A body
in which a configured term stands as it is written is flagged if the lower case of the term is found
in that of the body. In the place where the term stands it is found if and only if the sigmas of the
term do not change there (`caught_of_keepsSigmas`).

A term may slip through otherwise: `ΟΔΟΣ` ends in a sigma that ends a word, and in `ΟΔΟΣΑ` the same
sigma does not (`approved_of_last_sigma`).
-/

namespace Conveyor.Moderation

open Text Time

/-- A term occurs in a text if and only if it is a piece of it. -/
theorem occurs_iff {term cs : List Char} : occurs term cs = true ↔ term <:+: cs := by
  induction cs with
  | nil => rw [occurs, List.isEmpty_iff, List.infix_nil]
  | cons c cs ih =>
    rw [occurs, Bool.or_eq_true, List.isPrefixOf_iff_prefix, ih, List.infix_cons_iff]

namespace BannedTerms

variable {terms : List String} {term : String}

theorem toList_normalise (term : String) :
    (normalise term).toList = lowerChars (trim term).toList := by
  rw [normalise, lower, String.toList_ofList]

/-- A term with a character that is not blank is among those that are compared. -/
theorem normalise_mem (hterm : term ∈ terms) (hsolid : isBlankText term = false) :
    normalise term ∈ (ofTerms terms).terms := by
  have htrim : (trim term).toList ≠ [] := by
    intro hnil
    have hempty : trim term = "" := String.toList_inj.1 hnil
    rw [trim_eq_empty_iff, hsolid] at hempty
    exact Bool.false_ne_true hempty
  have hlower : normalise term ≠ "" := by
    intro hempty
    refine lowerChars_ne_nil htrim ?_
    rw [← toList_normalise, hempty, String.toList_empty]
  refine List.mem_filter.2 ⟨List.mem_map_of_mem hterm, ?_⟩
  rw [Bool.not_eq_true', String.isEmpty_eq_false_iff]
  exact hlower

/-- A job is flagged for one of the terms if and only if one occurs in its body in lower case. -/
theorem flagged_iff (b : BannedTerms) (now : Timestamp) (job : Job) :
    (∃ t ∈ b.terms, b.evaluate now job = ⟨job, .flagged, "contains banned term: " ++ t, now⟩) ↔
      ∃ t ∈ b.terms, t.toList <:+: lowerChars job.body.toList := by
  constructor
  · rintro ⟨t, -, hverdict⟩
    rw [evaluate] at hverdict
    rcases hfirst : b.firstMatch? job.body with - | u
    · simp [hfirst] at hverdict
    · have hoccurs := List.find?_some (p := fun t : String ↦ occurs t.toList _) hfirst
      exact ⟨u, List.mem_of_find?_eq_some hfirst, occurs_iff.1 hoccurs⟩
  · rintro ⟨t, ht, hoccurs⟩
    have hfound : (b.firstMatch? job.body).isSome :=
      List.find?_isSome.2 ⟨t, ht, occurs_iff.2 hoccurs⟩
    obtain ⟨u, hfirst⟩ := Option.isSome_iff_exists.1 hfound
    refine ⟨u, List.mem_of_find?_eq_some hfirst, ?_⟩
    rw [evaluate, hfirst]

/-- **Banned terms.** A job is flagged if and only if one of the terms occurs in its body when both
are in lower case. Let a term that is not blank stand in the body as it is written, but for the
blanks around it. Its lower case is found in that place if and only if its sigmas do not change
there, and the job is flagged then. They do not change if the term has no sigma, or none that sees
an end of the term, or if no cased character comes next to the term. -/
theorem caught_of_keepsSigmas {job : Job} {front back : List Char} (hterm : term ∈ terms)
    (hsolid : isBlankText term = false)
    (hbody : job.body.toList = front ++ (trim term).toList ++ back) (now : Timestamp) :
    ((∃ t ∈ (ofTerms terms).terms, (ofTerms terms).evaluate now job =
          ⟨job, .flagged, "contains banned term: " ++ t, now⟩) ↔
        ∃ t ∈ (ofTerms terms).terms, t.toList <:+: lowerChars job.body.toList) ∧
      (lowerPiece front.reverse (trim term).toList back = (normalise term).toList ↔
        KeepsSigmas front.reverse (trim term).toList back) ∧
      (KeepsSigmas front.reverse (trim term).toList back →
        ∃ t ∈ (ofTerms terms).terms, (ofTerms terms).evaluate now job =
          ⟨job, .flagged, "contains banned term: " ++ t, now⟩) ∧
      ('Σ' ∉ (trim term).toList ∨ SigmasInner (trim term).toList ∨
          meetsCased front.reverse = false ∧ meetsCased back = false →
        KeepsSigmas front.reverse (trim term).toList back) := by
  have hplace : lowerPiece front.reverse (trim term).toList back = (normalise term).toList ↔
      KeepsSigmas front.reverse (trim term).toList back := by
    rw [toList_normalise, lowerPiece_eq_iff]
  refine ⟨flagged_iff .., hplace, fun hkeeps ↦ ?_, ?_⟩
  · refine (flagged_iff ..).2 ⟨normalise term, normalise_mem hterm hsolid, ?_⟩
    rw [hbody, lowerChars_append, hplace.2 hkeeps]
    exact List.infix_append ..
  · rintro (hnone | hinner | ⟨hbefore, hafter⟩)
    · exact .of_inner (.of_not_mem hnone) _ _
    · exact .of_inner hinner _ _
    · exact .of_apart hbefore hafter _

/-- A job with this body. -/
def samplePost (body : String) : Job := ⟨"1", "user", body, none⟩

/-- A term that ends in a sigma, as a word of its own. -/
theorem caught_of_keepsSigmas_sample :
    " ΟΔΟΣ " ∈ ["spam", " ΟΔΟΣ "] ∧ isBlankText " ΟΔΟΣ " = false ∧
      (samplePost "Η ΟΔΟΣ.").body.toList = ['Η', ' '] ++ (trim " ΟΔΟΣ ").toList ++ ['.'] ∧
      KeepsSigmas [' ', 'Η'] (trim " ΟΔΟΣ ").toList ['.'] ∧
      ∃ t ∈ (ofTerms ["spam", " ΟΔΟΣ "]).terms,
        (ofTerms ["spam", " ΟΔΟΣ "]).evaluate .epoch (samplePost "Η ΟΔΟΣ.") =
          ⟨samplePost "Η ΟΔΟΣ.", .flagged, "contains banned term: " ++ t, .epoch⟩ := by
  have hterm : " ΟΔΟΣ " ∈ ["spam", " ΟΔΟΣ "] := by decide
  have hsolid : isBlankText " ΟΔΟΣ " = false := by decide
  have hbody : (samplePost "Η ΟΔΟΣ.").body.toList =
      ['Η', ' '] ++ (trim " ΟΔΟΣ ").toList ++ ['.'] := by decide
  have hbefore : meetsCased ['Η', ' '].reverse = false := by decide +kernel
  have hafter : meetsCased ['.'] = false := by decide +kernel
  obtain ⟨-, -, hcaught, hkeeps⟩ := caught_of_keepsSigmas hterm hsolid hbody .epoch
  have hapart := hkeeps (.inr (.inr ⟨hbefore, hafter⟩))
  exact ⟨hterm, hsolid, hbody, hapart, hcaught hapart⟩

/-- A term that ends in a sigma, with one more letter behind it: the sigma ends a word in the term
and not in the body, and the job is approved. -/
theorem approved_of_last_sigma :
    isBlankText "ΟΔΟΣ" = false ∧
      (samplePost "ΟΔΟΣΑ").body.toList = [] ++ (trim "ΟΔΟΣ").toList ++ ['Α'] ∧
      (ofTerms ["ΟΔΟΣ"]).evaluate .epoch (samplePost "ΟΔΟΣΑ") =
        ⟨samplePost "ΟΔΟΣΑ", .approved, "passed automated moderation", .epoch⟩ := by
  refine ⟨by decide, by decide, ?_⟩
  have hnone : (ofTerms ["ΟΔΟΣ"]).firstMatch? "ΟΔΟΣΑ" = none := by decide +kernel
  rw [evaluate, samplePost, hnone]

end BannedTerms

end Conveyor.Moderation
