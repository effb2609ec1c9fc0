import Mathlib.Data.List.Dedup
import Mathlib.Data.List.Induction
import Conveyor.Proofs.Metrics.Rollup

/-!
# One summary for each key

An aggregator keeps one summary for each key that its samples have. It is the summary of the first
sample of that key with the further ones recorded in the order in which they came, so what it says of
them is said of a plain list of samples (`Summary.Covers`), whatever came between them.

Samples of two keys have nothing to do with each other: a sample finds the same summary before and
after one of another key (`ingest_ingest_fst`), and the two summaries may be put in place in either
order (`ingest_ingest_comm`). So neighbours of two keys may change places and no summary shows it,
neither those that are returned nor those that stay. The main statement is `rolled_up_per_key`.
-/

namespace Conveyor.Metrics

open Time

/-- The time at which a sample was measured, the time at which it came if it has none. -/
def Arrival.time (p : Arrival) : Timestamp := p.1.timestamp.getD p.2

/-- A sample that was measured when the other was, though it may come at another time. -/
def Arrival.Alike (p q : Arrival) : Prop := p.1 = q.1 ∧ p.time = q.time

/-! ### What a summary says of its samples -/

namespace Summary

/-- A summary with more samples recorded in order. -/
def recordAll (s : Summary) (arrivals : List Arrival) : Summary :=
  arrivals.foldl (fun s p ↦ s.record p.1.value p.time) s

/-- A summary is that of these samples, the first of which is apart from the others. -/
structure Covers (s : Summary) (head : Arrival) (rest : List Arrival) : Prop where
  /-- All samples are counted. -/
  count : s.count = rest.length + 1
  /-- The least value is kept from sample to sample. -/
  min : s.min = rest.foldl (fun x p ↦ lesser x p.1.value) head.1.value
  /-- The greatest value is kept from sample to sample. -/
  max : s.max = rest.foldl (fun x p ↦ greater x p.1.value) head.1.value
  /-- The values are added up from the first one to the last one. -/
  sum : s.sum = rest.foldl (fun x p ↦ x + p.1.value) head.1.value
  /-- The mean of a single value is that value, of more values their sum divided by the count. -/
  mean : s.mean = if rest = [] then head.1.value else s.sum / Float.ofNat s.count
  /-- The time is that of the last sample. -/
  last : s.last = (rest.getLastD head).time

namespace Covers

theorem of_first (p : Arrival) : (first p.1.value p.time).Covers p [] :=
  ⟨rfl, rfl, rfl, rfl, rfl, rfl⟩

variable {s : Summary} {head : Arrival} {rest : List Arrival}

/-- A further sample is the last one of those that the summary is then of. -/
theorem record (h : s.Covers head rest) (p : Arrival) :
    (s.record p.1.value p.time).Covers head (rest ++ [p]) where
  count := by rw [Summary.record, h.count, List.length_append, List.length_singleton]
  min := by rw [Summary.record, h.min, List.foldl_append, List.foldl_cons, List.foldl_nil]
  max := by rw [Summary.record, h.max, List.foldl_append, List.foldl_cons, List.foldl_nil]
  sum := by rw [Summary.record, h.sum, List.foldl_append, List.foldl_cons, List.foldl_nil]
  mean := by rw [if_neg (List.append_ne_nil_of_right_ne_nil _ (List.cons_ne_nil _ _)), Summary.record]
  last := by rw [Summary.record, List.getLastD_concat]

/-- Samples that are recorded in order are those that the summary is of. -/
theorem of_recordAll (head : Arrival) (rest : List Arrival) :
    ((first head.1.value head.time).recordAll rest).Covers head rest := by
  induction rest using List.reverseRecOn with
  | nil => exact of_first head
  | append_singleton rest p ih =>
    rw [recordAll, List.foldl_append]
    exact ih.record p

end Covers

end Summary

/-! ### The samples of a key -/

theorem rollAll_some (s : Summary) (arrivals : List Arrival) :
    rollAll (some s) arrivals = some (s.recordAll arrivals) := by
  induction arrivals generalizing s with
  | nil => rfl
  | cons p arrivals ih => exact ih _

/-- The summary of samples is that of the first with the others recorded. -/
theorem rollAll_cons (p : Arrival) (arrivals : List Arrival) :
    rollAll none (p :: arrivals) = some ((Summary.first p.1.value p.time).recordAll arrivals) :=
  rollAll_some _ arrivals

/-- There is a summary as soon as there is a sample. -/
theorem isSome_rollAll {arrivals : List Arrival} :
    (rollAll none arrivals).isSome ↔ arrivals ≠ [] := by
  rcases arrivals with - | ⟨p, arrivals⟩
  · exact iff_of_false Bool.false_ne_true (fun h ↦ h rfl)
  · rw [rollAll_cons]
    exact iff_of_true rfl (List.cons_ne_nil _ _)

namespace Aggregator

variable {a : Aggregator} {s t : Sample} {now now' : Timestamp}

/-- What is returned for samples that are taken in order. -/
def replies (a : Aggregator) : List Arrival → List Summary
  | [] => []
  | p :: arrivals => (a.ingest p.1 p.2).1 :: (a.ingest p.1 p.2).2.replies arrivals

theorem replies_append (a : Aggregator) (front back : List Arrival) :
    a.replies (front ++ back) = a.replies front ++ (a.ingestAll front).replies back := by
  induction front generalizing a with
  | nil => rfl
  | cons p front ih => rw [List.cons_append, replies, replies, ih, List.cons_append]; rfl

theorem length_replies (a : Aggregator) (arrivals : List Arrival) :
    (a.replies arrivals).length = arrivals.length := by
  induction arrivals generalizing a with
  | nil => rfl
  | cons p arrivals ih => rw [replies, List.length_cons, ih, List.length_cons]

/-! ### Samples of two keys -/

/-- What is returned for a sample is made of what is shown for its key. -/
theorem ingest_fst (a : Aggregator) (s : Sample) (now : Timestamp) :
    (a.ingest s now).1 = roll (a.snapshot.get? s.key) s.value (s.timestamp.getD now) :=
  rfl

/-- A sample finds the summary of its key whether or not one of another key came before. -/
theorem ingest_ingest_fst (h : s.key ≠ t.key) :
    ((a.ingest s now).2.ingest t now').1 = (a.ingest t now').1 := by
  rw [ingest_fst, get?_ingest, if_neg h.symm, ← ingest_fst]

/-- Samples of two keys may be taken in either order. -/
theorem ingest_ingest_comm (h : s.key ≠ t.key) :
    ((a.ingest s now).2.ingest t now').2 = ((a.ingest t now').2.ingest s now).2 := by
  have hst : ((a.ingest s now).2.ingest t now').2 =
      ⟨(a.summaries.insert s.key (a.ingest s now).1).insert t.key (a.ingest t now').1⟩ := by
    rw [← ingest_ingest_fst h]
    rfl
  have hts : ((a.ingest t now').2.ingest s now).2 =
      ⟨(a.summaries.insert t.key (a.ingest t now').1).insert s.key (a.ingest s now).1⟩ := by
    rw [← ingest_ingest_fst h.symm]
    rfl
  rw [hst, hts, Dict.insert_comm h]

/-- Of the time at which a sample comes it only counts when the sample was measured. -/
theorem ingest_congr {p q : Arrival} (h : p.Alike q) : a.ingest p.1 p.2 = a.ingest q.1 q.2 := by
  rw [ingest, ingest, ← Arrival.time, ← Arrival.time, h.1, h.2]

/-- Neighbours of two keys may change places: what is held then and after all others is the same, and
so is what is returned for each sample. -/
theorem exchange (a : Aggregator) (front back : List Arrival) {p q p' q' : Arrival}
    (hkeys : p.1.key ≠ q.1.key) (hp : p.Alike p') (hq : q.Alike q') :
    a.ingestAll (front ++ q' :: p' :: back) = a.ingestAll (front ++ p :: q :: back) ∧
      ∃ before x y after, before.length = front.length ∧
        a.replies (front ++ p :: q :: back) = before ++ x :: y :: after ∧
        a.replies (front ++ q' :: p' :: back) = before ++ y :: x :: after := by
  have hcomm (b : Aggregator) : ((b.ingest q'.1 q'.2).2.ingest p'.1 p'.2).2 =
      ((b.ingest p.1 p.2).2.ingest q.1 q.2).2 := by
    rw [← ingest_congr hq, ← ingest_congr hp, ingest_ingest_comm hkeys]
  refine ⟨?_, a.replies front, _, _, _, length_replies a front, replies_append a front _, ?_⟩
  · rw [ingestAll, ingestAll, List.foldl_append, List.foldl_append, List.foldl_cons,
      List.foldl_cons, List.foldl_cons, List.foldl_cons, hcomm]
  · rw [replies_append, replies, replies, hcomm, ← ingest_congr hq, ← ingest_congr hp,
      ingest_ingest_fst hkeys.symm, ingest_ingest_fst hkeys]

end Aggregator

/-! ### What an aggregator holds -/

/-- What an aggregator holds and has returned after samples that came in order. -/
structure PerKey (arrivals : List Arrival) (a : Aggregator) : Prop where
  /-- The keys that occur have one entry each, and no other key has one. -/
  keys : (a.snapshot.toList.map Prod.fst).Perm (arrivals.map fun p ↦ p.1.key).dedup
  /-- The entry of a key is the summary of its first sample with its further samples recorded in
  order, and says of them what such a summary says. -/
  entry : ∀ key head rest, (arrivals.filter fun p ↦ p.1.key = key) = head :: rest →
    ∃ s : Summary, a.snapshot.get? key = some s ∧
      s = (Summary.first head.1.value head.time).recordAll rest ∧ s.Covers head rest
  /-- No count is greater than the number of all samples. -/
  count_le : ∀ key s, a.snapshot.get? key = some s → s.count ≤ arrivals.length
  /-- For a next sample the entry is returned that its key has from then on, and all other entries
  stay as they are. -/
  ingest : ∀ s now key, (a.ingest s now).2.snapshot.get? key =
    if key = s.key then some (a.ingest s now).1 else a.snapshot.get? key

theorem PerKey.of_arrivals (arrivals : List Arrival) :
    PerKey arrivals (Aggregator.empty.ingestAll arrivals) := by
  have hget (key : String) : (Aggregator.empty.ingestAll arrivals).snapshot.get? key =
      rollAll none (arrivals.filter fun p ↦ p.1.key = key) :=
    Aggregator.get?_ingestAll Aggregator.empty arrivals key
  have hentry (key : String) (head : Arrival) (rest : List Arrival)
      (hfilter : (arrivals.filter fun p ↦ p.1.key = key) = head :: rest) :
      ∃ s : Summary, (Aggregator.empty.ingestAll arrivals).snapshot.get? key = some s ∧
        s = (Summary.first head.1.value head.time).recordAll rest ∧ s.Covers head rest := by
    refine ⟨_, ?_, rfl, .of_recordAll head rest⟩
    rw [hget, hfilter, rollAll_cons]
  refine ⟨?_, hentry, fun key s hs ↦ ?_, fun s now key ↦ Aggregator.get?_ingest _ s now key⟩
  · refine (List.perm_ext_iff_of_nodup (Dict.nodup_keys _) (List.nodup_dedup _)).2 fun key ↦ ?_
    rw [Dict.mem_keys_iff, hget, isSome_rollAll, List.mem_dedup, List.mem_map, Ne,
      List.filter_eq_nil_iff]
    simp
  · rcases hfilter : (arrivals.filter fun p ↦ p.1.key = key) with - | ⟨head, rest⟩
    · rw [hget, hfilter] at hs
      exact absurd hs (Option.some_ne_none s).symm
    · obtain ⟨s', hs', -, hcovers⟩ := hentry key head rest hfilter
      rw [Option.some.inj (hs.symm.trans hs'), hcovers.count, ← List.length_cons, ← hfilter]
      exact List.length_filter_le _ _

/-- **One summary for each key.** After samples that came in order an aggregator holds one summary for
each key that occurs, which is that of the samples with that key in order. If two neighbours of two
keys change places, it holds the same summaries and has returned the same ones for all samples. -/
theorem rolled_up_per_key (arrivals : List Arrival) :
    PerKey arrivals (Aggregator.empty.ingestAll arrivals) ∧
      ∀ front p q p' q' back, arrivals = front ++ p :: q :: back → p.1.key ≠ q.1.key →
        p.Alike p' → q.Alike q' →
        (Aggregator.empty.ingestAll (front ++ q' :: p' :: back)).snapshot =
            (Aggregator.empty.ingestAll arrivals).snapshot ∧
          ∃ before x y after, before.length = front.length ∧
            Aggregator.empty.replies arrivals = before ++ x :: y :: after ∧
            Aggregator.empty.replies (front ++ q' :: p' :: back) =
              before ++ y :: x :: after := by
  refine ⟨.of_arrivals arrivals, fun front p q p' q' back hsplit hkeys hp hq ↦ ?_⟩
  obtain ⟨hsame, hreplies⟩ := Aggregator.empty.exchange front back hkeys hp hq
  rw [hsplit, hsame]
  exact ⟨rfl, hreplies⟩

/-- A sample of one metric. -/
def sampleHits : Sample := { namespaceName := "app", name := "hits", value := 1 }

/-- A sample of another metric. -/
def sampleSize : Sample := { namespaceName := "app", name := "size", value := 2 }

theorem rolled_up_per_key_sample :
    sampleHits.key ≠ sampleSize.key ∧
      (Aggregator.empty.ingestAll
          [(sampleSize, .epoch), (sampleHits, .epoch), (sampleHits, .epoch)]).snapshot =
        (Aggregator.empty.ingestAll
          [(sampleHits, .epoch), (sampleSize, .epoch), (sampleHits, .epoch)]).snapshot ∧
      ∃ s : Summary, (Aggregator.empty.ingestAll
          [(sampleHits, .epoch), (sampleSize, .epoch), (sampleHits, .epoch)]).snapshot.get?
            sampleHits.key = some s ∧ s.count = 2 := by
  have hkeys : sampleHits.key ≠ sampleSize.key := by decide
  obtain ⟨hper, hexchange⟩ :=
    rolled_up_per_key [(sampleHits, .epoch), (sampleSize, .epoch), (sampleHits, .epoch)]
  obtain ⟨s, hs, -, hcovers⟩ :=
    hper.entry sampleHits.key (sampleHits, .epoch) [(sampleHits, .epoch)] rfl
  exact ⟨hkeys, (hexchange [] _ _ _ _ _ rfl hkeys ⟨rfl, rfl⟩ ⟨rfl, rfl⟩).1, s, hs, hcovers.count⟩

end Conveyor.Metrics
