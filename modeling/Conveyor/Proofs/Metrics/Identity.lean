import Conveyor.Proofs.Metrics.Rollup

/-!
# Which metrics a key tells apart

The key of a sample is its namespace, its name and its labels, written one after the other with
separators between them and none of them quoted. Samples of one metric have one key. Samples of two
metrics may have one key, too, as `a.b` with the name `c` and `a` with the name `b.c` do
(`key_eq_of_moved_dot`), and are rolled up together then.

## What a key leaves open

A text can be cut at its separators once it is known how many of them stand inside the parts. That
is the `Shape` of a sample, and it is all that is missing: samples are of one metric if and only if
they have one key and one shape (`identity_eq_iff`). So the samples rolled up in a summary are those
of one metric if and only if no other shape comes with its key, and this is so where all parts are
free of the separators that end them (`shape_eq_of_isPlain`). The main statement is
`told_apart_by_shape`.
-/

namespace Conveyor.Metrics

open Time

/-- What makes a metric the one it is. -/
structure Identity where
  /-- The area the metric belongs to. -/
  namespaceName : String
  /-- The name of the metric in its area. -/
  name : String
  /-- Which of the metrics of that name it is. -/
  labels : Dict String
  deriving DecidableEq

/-- How many separators stand inside the parts of a sample. -/
structure Shape where
  /-- The dots in the namespace. -/
  dots : Nat
  /-- The opening braces in the name. -/
  braces : Nat
  /-- The equality signs in the key and the commas in the whole of each label. -/
  marks : List (Nat × Nat)
  deriving DecidableEq

/-- The characters of a label in a key. -/
def labelChars (label : String × String) : List Char :=
  label.1.toList ++ '=' :: label.2.toList

/-- The characters of the labels in a key. -/
def labelsChars (labels : List (String × String)) : List Char :=
  List.intercalate [','] (labels.map labelChars)

/-- The separators inside a label. -/
def labelMarks (label : String × String) : Nat × Nat :=
  (label.1.toList.count '=', (labelChars label).count ',')

namespace Sample

/-- The metric of a sample. -/
def identity (s : Sample) : Identity := ⟨s.namespaceName, s.name, s.labels⟩

/-- The separators inside the parts of a sample. -/
def shape (s : Sample) : Shape where
  dots := s.namespaceName.toList.count '.'
  braces := s.name.toList.count '\x7b'
  marks := s.labels.toList.map labelMarks

/-- No part of the sample has a separator that ends it. -/
structure IsPlain (s : Sample) : Prop where
  /-- The namespace has no dot. -/
  namespaceName : '.' ∉ s.namespaceName.toList
  /-- The name has no opening brace. -/
  name : '\x7b' ∉ s.name.toList
  /-- The keys of labels have no equality sign and no comma, and the values have no comma. -/
  labels : ∀ label ∈ s.labels.toList,
    '=' ∉ label.1.toList ∧ ',' ∉ label.1.toList ∧ ',' ∉ label.2.toList

theorem toList_key (s : Sample) :
    s.key.toList = s.namespaceName.toList ++
      '.' :: (s.name.toList ++ '\x7b' :: (labelsChars s.labels.toList ++ ['\x7d'])) := by
  have hlabels : (String.intercalate "," (s.labels.toList.map labelText)).toList =
      labelsChars s.labels.toList := by
    rw [String.toList_intercalate, List.map_map]
    refine congrArg (List.intercalate [',']) (List.map_congr_left fun label _ ↦ ?_)
    rw [Function.comp_apply, labelText, String.toList_append, String.toList_append, labelChars,
      List.append_assoc]
    rfl
  rw [key, String.toList_append, String.toList_append, String.toList_append, String.toList_append,
    String.toList_append, hlabels]
  simp

end Sample

/-! ### Cutting a text at a separator -/

/-- Two texts are cut at a separator in the same place if as many of them stand before it. -/
theorem append_cons_inj_of_count {c : Char} {xs ys rest rest' : List Char}
    (hcount : xs.count c = ys.count c) (h : xs ++ c :: rest = ys ++ c :: rest') :
    xs = ys ∧ rest = rest' := by
  induction xs generalizing ys with
  | nil =>
    rcases ys with - | ⟨y, ys⟩
    · exact ⟨rfl, (List.cons.inj h).2⟩
    · obtain ⟨rfl, -⟩ := List.cons.inj h
      simp at hcount
  | cons x xs ih =>
    rcases ys with - | ⟨y, ys⟩
    · obtain ⟨rfl, -⟩ := List.cons.inj h
      simp at hcount
    · obtain ⟨rfl, htail⟩ := List.cons.inj h
      have hrest : xs.count c = ys.count c := by
        rw [List.count_cons, List.count_cons] at hcount
        exact Nat.add_right_cancel hcount
      obtain ⟨rfl, rfl⟩ := ih hrest htail
      exact ⟨rfl, rfl⟩

/-- A label can be read off its characters when the equality signs in its key are counted. -/
theorem labelChars_inj {p q : String × String}
    (hmarks : p.1.toList.count '=' = q.1.toList.count '=') (h : labelChars p = labelChars q) :
    p = q := by
  obtain ⟨hkey, hvalue⟩ := append_cons_inj_of_count hmarks h
  exact Prod.ext (String.toList_inj.1 hkey) (String.toList_inj.1 hvalue)

/-- Labels can be read off their characters when the separators inside them are counted. -/
theorem labelsChars_inj {ps qs : List (String × String)}
    (hmarks : ps.map labelMarks = qs.map labelMarks) (h : labelsChars ps = labelsChars qs) :
    ps = qs := by
  induction ps generalizing qs with
  | nil => exact (List.map_eq_nil_iff.1 hmarks.symm).symm
  | cons p ps ih =>
    rcases qs with - | ⟨q, qs⟩
    · simp at hmarks
    · obtain ⟨hmark, hmarks⟩ := List.cons.inj hmarks
      obtain ⟨hequals, hcommas⟩ := Prod.mk.inj hmark
      rcases ps with - | ⟨p', ps⟩ <;> rcases qs with - | ⟨q', qs⟩
      · have hlast : labelChars p = labelChars q := by simpa [labelsChars] using h
        rw [labelChars_inj hequals hlast]
      · simp at hmarks
      · simp at hmarks
      · rw [labelsChars, labelsChars, List.map_cons, List.map_cons, List.map_cons, List.map_cons,
          List.intercalate_cons_cons, List.intercalate_cons_cons, List.append_assoc,
          List.append_assoc] at h
        obtain ⟨hfirst, hrest⟩ := append_cons_inj_of_count hcommas h
        rw [labelChars_inj hequals hfirst, ih hmarks hrest]

/-! ### Keys and shapes -/

section Keys

variable {s t : Sample}

theorem key_eq_of_identity_eq (h : s.identity = t.identity) : s.key = t.key := by
  obtain ⟨hnamespace, hname, hlabels⟩ := Identity.mk.inj h
  rw [Sample.key, Sample.key, hnamespace, hname, hlabels]

theorem shape_eq_of_identity_eq (h : s.identity = t.identity) : s.shape = t.shape := by
  obtain ⟨hnamespace, hname, hlabels⟩ := Identity.mk.inj h
  rw [Sample.shape, Sample.shape, hnamespace, hname, hlabels]

/-- Samples are of one metric if and only if they have one key and one shape. -/
theorem identity_eq_iff : s.identity = t.identity ↔ s.key = t.key ∧ s.shape = t.shape := by
  refine ⟨fun h ↦ ⟨key_eq_of_identity_eq h, shape_eq_of_identity_eq h⟩, ?_⟩
  rintro ⟨hkey, hshape⟩
  obtain ⟨hdots, hbraces, hmarks⟩ := Shape.mk.inj hshape
  have hchars := congrArg String.toList hkey
  rw [s.toList_key, t.toList_key] at hchars
  obtain ⟨hnamespace, hchars⟩ := append_cons_inj_of_count hdots hchars
  obtain ⟨hname, hchars⟩ := append_cons_inj_of_count hbraces hchars
  have hlabels := labelsChars_inj hmarks (List.append_cancel_right hchars)
  rw [Sample.identity, Sample.identity, String.toList_inj.1 hnamespace, String.toList_inj.1 hname,
    Dict.ext hlabels]

/-- The number of labels without commas shows in their characters. -/
theorem length_of_labelsChars {ps : List (String × String)}
    (h : ∀ p ∈ ps, (labelChars p).count ',' = 0) :
    ps.length = if labelsChars ps = [] then 0 else (labelsChars ps).count ',' + 1 := by
  induction ps with
  | nil => rfl
  | cons p ps ih =>
    have hfirst := h p List.mem_cons_self
    have hrest := ih fun q hq ↦ h q (List.mem_cons_of_mem _ hq)
    rcases ps with - | ⟨q, ps⟩
    · have hchars : labelsChars [p] = labelChars p := by simp [labelsChars]
      have hne : labelChars p ≠ [] := by simp [labelChars]
      rw [hchars, if_neg hne, hfirst, List.length_singleton]
    · have hchars : labelsChars (p :: q :: ps) =
          labelChars p ++ ',' :: labelsChars (q :: ps) := by
        simp [labelsChars, List.intercalate_cons_cons]
      have hne : labelsChars (q :: ps) ≠ [] := by
        intro hnil
        simp [hnil] at hrest
      have hne' : labelChars p ++ ',' :: labelsChars (q :: ps) ≠ [] := by simp
      rw [if_neg hne] at hrest
      rw [hchars, if_neg hne', List.length_cons, hrest, List.count_append, hfirst,
        List.count_cons_self, Nat.zero_add]

namespace Sample.IsPlain

/-- No separator is counted in the labels of a plain sample. -/
theorem labelMarks_eq (h : s.IsPlain) {label : String × String} (hlabel : label ∈ s.labels.toList) :
    labelMarks label = (0, 0) := by
  obtain ⟨hequals, hkey, hvalue⟩ := h.labels label hlabel
  have hcommas : ',' ∉ labelChars label := by simp [labelChars, hkey, hvalue]
  rw [labelMarks, List.count_eq_zero.2 hequals, List.count_eq_zero.2 hcommas]

/-- No separator is counted in a plain sample. -/
theorem shape_eq (h : s.IsPlain) :
    s.shape = ⟨0, 0, List.replicate s.labels.size (0, 0)⟩ := by
  have hmarks : s.labels.toList.map labelMarks = List.replicate s.labels.size (0, 0) := by
    refine List.eq_replicate_iff.2 ⟨List.length_map .., fun mark hmark ↦ ?_⟩
    obtain ⟨label, hlabel, rfl⟩ := List.mem_map.1 hmark
    exact h.labelMarks_eq hlabel
  rw [shape, List.count_eq_zero.2 h.namespaceName, List.count_eq_zero.2 h.name, hmarks]

end Sample.IsPlain

/-- Plain samples with one key have one shape. -/
theorem shape_eq_of_isPlain (hs : s.IsPlain) (ht : t.IsPlain) (hkey : s.key = t.key) :
    s.shape = t.shape := by
  have hchars := congrArg String.toList hkey
  rw [s.toList_key, t.toList_key] at hchars
  have hdots : s.namespaceName.toList.count '.' = t.namespaceName.toList.count '.' := by
    rw [List.count_eq_zero.2 hs.namespaceName, List.count_eq_zero.2 ht.namespaceName]
  have hbraces : s.name.toList.count '\x7b' = t.name.toList.count '\x7b' := by
    rw [List.count_eq_zero.2 hs.name, List.count_eq_zero.2 ht.name]
  obtain ⟨-, hchars⟩ := append_cons_inj_of_count hdots hchars
  obtain ⟨-, hchars⟩ := append_cons_inj_of_count hbraces hchars
  have hlabels := List.append_cancel_right hchars
  have hcommas {r : Sample} (hr : r.IsPlain) :
      ∀ label ∈ r.labels.toList, (labelChars label).count ',' = 0 :=
    fun label hlabel ↦ congrArg Prod.snd (hr.labelMarks_eq hlabel)
  have hsize : s.labels.size = t.labels.size := by
    have hsizes := length_of_labelsChars (hcommas hs)
    rw [hlabels] at hsizes
    exact hsizes.trans (length_of_labelsChars (hcommas ht)).symm
  rw [hs.shape_eq, ht.shape_eq, hsize]

end Keys

/-! ### Which samples are rolled up together -/

/-- A sample is of one metric in whichever order its labels were given. -/
theorem identity_ofList_perm (s : Sample) {ps qs : List (String × String)} (h : ps.Perm qs)
    (hnodup : (ps.map Prod.fst).Nodup) :
    { s with labels := .ofList ps }.identity = { s with labels := .ofList qs }.identity := by
  rw [Dict.ofList_perm h hnodup]

/-- What the summaries are made of after samples that came in order. -/
structure Accounts (arrivals : List Arrival) : Prop where
  /-- A key has the samples that have it rolled up, in order, and no summary if there are none. -/
  summary : ∀ key, (Aggregator.empty.ingestAll arrivals).snapshot.get? key =
    rollAll none (arrivals.filter fun p ↦ p.1.key = key)
  /-- All samples of a metric are among those with its key. -/
  together : ∀ p ∈ arrivals,
    (arrivals.filter fun q ↦ q.1.identity = p.1.identity).Sublist
      (arrivals.filter fun q ↦ q.1.key = p.1.key)
  /-- They are all of them if and only if the key comes with one shape. -/
  apart_iff : ∀ p ∈ arrivals,
    (arrivals.filter fun q ↦ q.1.identity = p.1.identity) =
        (arrivals.filter fun q ↦ q.1.key = p.1.key) ↔
      ∀ q ∈ arrivals, q.1.key = p.1.key → q.1.shape = p.1.shape

theorem Accounts.of_arrivals (arrivals : List Arrival) : Accounts arrivals where
  summary key := Aggregator.get?_ingestAll Aggregator.empty arrivals key
  together p _ := by
    refine List.monotone_filter_right _ fun q hq ↦ ?_
    rw [decide_eq_true_iff] at hq ⊢
    exact key_eq_of_identity_eq hq
  apart_iff p _ := by
    constructor
    · intro hfilters q hq hkey
      have hmem : q ∈ arrivals.filter fun q ↦ q.1.key = p.1.key :=
        List.mem_filter.2 ⟨hq, decide_eq_true hkey⟩
      rw [← hfilters, List.mem_filter, decide_eq_true_iff] at hmem
      exact shape_eq_of_identity_eq hmem.2
    · intro hshape
      refine List.filter_congr fun q hq ↦ decide_eq_decide.2 ?_
      exact ⟨key_eq_of_identity_eq, fun hkey ↦ identity_eq_iff.2 ⟨hkey, hshape q hq hkey⟩⟩

/-- **Metrics told apart.** Samples are of one metric if and only if they have one key and one
shape, for which the key is enough where all parts are plain and the order of the labels does not
count. A summary rolls up all samples of a metric, and no others if and only if no sample comes with
its key and another shape. -/
theorem told_apart_by_shape (arrivals : List Arrival) :
    (∀ s t : Sample, s.identity = t.identity ↔ s.key = t.key ∧ s.shape = t.shape) ∧
      (∀ s t : Sample, s.IsPlain → t.IsPlain → (s.key = t.key ↔ s.identity = t.identity)) ∧
      (∀ (s : Sample) (ps qs : List (String × String)), ps.Perm qs → (ps.map Prod.fst).Nodup →
        { s with labels := .ofList ps }.identity = { s with labels := .ofList qs }.identity) ∧
      Accounts arrivals := by
  refine ⟨fun s t ↦ identity_eq_iff, fun s t hs ht ↦ ?_, fun s ps qs ↦ identity_ofList_perm s,
    .of_arrivals arrivals⟩
  exact ⟨fun hkey ↦ identity_eq_iff.2 ⟨hkey, shape_eq_of_isPlain hs ht hkey⟩,
    key_eq_of_identity_eq⟩

/-- A sample with a dot in its namespace. -/
def sampleArea : Sample := { namespaceName := "a.b", name := "c", value := 1 }

/-- A sample with a dot in its name. -/
def sampleName : Sample := { namespaceName := "a", name := "b.c", value := 2 }

/-- A sample whose parts have no separators in them. -/
def samplePlain : Sample := { namespaceName := "a", name := "b", labels := .ofList [("x", "1")] }

/-- The two samples that are not told apart, and one that is. -/
def sampleArrivals : List Arrival :=
  [(sampleArea, .epoch), (sampleName, .epoch), (samplePlain, .epoch)]

theorem told_apart_by_shape_sample :
    (sampleArea.key = sampleName.key ∧ sampleArea.shape ≠ sampleName.shape ∧
        sampleArea.identity ≠ sampleName.identity) ∧
      (samplePlain.IsPlain ∧ ∀ t : Sample, t.IsPlain →
        (samplePlain.key = t.key ↔ samplePlain.identity = t.identity)) ∧
      { samplePlain with labels := .ofList [("x", "1"), ("y", "2")] }.identity =
        { samplePlain with labels := .ofList [("y", "2"), ("x", "1")] }.identity ∧
      Accounts sampleArrivals ∧
      ∃ summary, (Aggregator.empty.ingestAll sampleArrivals).snapshot.get? "a.b.c\x7b\x7d" =
        some summary ∧ summary.count = 2 := by
  obtain ⟨hiff, hplain, hperm, haccounts⟩ := told_apart_by_shape sampleArrivals
  have hkey : sampleArea.key = sampleName.key := by decide
  have hshape : sampleArea.shape ≠ sampleName.shape := by decide
  have hsample : samplePlain.IsPlain := ⟨by decide, by decide, by decide⟩
  refine ⟨⟨hkey, hshape, fun h ↦ hshape ((hiff _ _).1 h).2⟩,
    ⟨hsample, fun t ht ↦ hplain _ t hsample ht⟩,
    hperm _ _ _ (List.Perm.swap ..) (by decide), haccounts, ?_⟩
  rw [haccounts.summary]
  exact ⟨_, rfl, rfl⟩

/-- Samples of two metrics with one key: the summary of the second one counts both. -/
theorem key_eq_of_moved_dot :
    sampleArea.check = .ok () ∧ sampleName.check = .ok () ∧
      sampleArea.identity ≠ sampleName.identity ∧ sampleArea.key = sampleName.key ∧
      ((Aggregator.empty.ingest sampleArea .epoch).2.ingest sampleName .epoch).1.count = 2 :=
  ⟨by decide, by decide, by decide, by decide, rfl⟩

end Conveyor.Metrics
