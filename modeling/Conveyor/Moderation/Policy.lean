import Conveyor.Moderation.Job
import Conveyor.Text.Lower

/-!
# Moderation policies

A `Policy` judges a job, given what the clock shows, or dies of it. `BannedTerms` is the policy that
flags a job when one of its terms occurs in the body. Terms and body are compared in lower case, and
the first term in the configured order is the one that is named.
-/

namespace Conveyor.Moderation

open Text Time

/-- Judges a job at a given time; `none` means that the judge died of it. -/
abbrev Policy := Timestamp → Job → Option Verdict

/-- The first text occurs in the second as a whole. -/
def occurs (term : List Char) : List Char → Bool
  | [] => term.isEmpty
  | c :: cs => term.isPrefixOf (c :: cs) || occurs term cs

/-- Terms that content must not contain. -/
structure BannedTerms where
  /-- The terms in configured order, trimmed, in lower case and not empty. -/
  terms : List String

namespace BannedTerms

/-- How a configured term is compared: trimmed and in lower case. -/
def normalise (term : String) : String :=
  lower (trim term)

/-- The policy for the configured terms. Terms of blanks only count for nothing. -/
def ofTerms (terms : List String) : BannedTerms :=
  ⟨(terms.map normalise).filter fun t ↦ !t.isEmpty⟩

/-- The first term that occurs in the body in lower case. -/
def firstMatch? (b : BannedTerms) (body : String) : Option String :=
  let low := lowerChars body.toList
  b.terms.find? fun t ↦ occurs t.toList low

/-- Judges a job at a given time. -/
def evaluate (b : BannedTerms) (now : Timestamp) (job : Job) : Verdict :=
  match b.firstMatch? job.body with
  | some t => ⟨job, .flagged, "contains banned term: " ++ t, now⟩
  | none => ⟨job, .approved, "passed automated moderation", now⟩

/-- The terms as a policy that survives every job. -/
def policy (b : BannedTerms) : Policy := fun now job ↦
  some (b.evaluate now job)

end BannedTerms

end Conveyor.Moderation
