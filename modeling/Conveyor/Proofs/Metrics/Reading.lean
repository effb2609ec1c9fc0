import Conveyor.Proofs.Metrics.Identity
import Conveyor.Proofs.Text.Bytes
import Conveyor.Proofs.Text.Split
import Mathlib.Data.Option.Basic

/-!
# Metrics read off their keys

A key is cut at its first dot, at the first brace behind it and, inside the braces, at the commas, and
each label at its first equality sign (`Identity.ofKey?`). Where no part holds the separator that ends
it, this gives the metric back (`Identity.ofKey?_key`). The values of labels end at commas alone and
may hold the other separators. A map without labels leaves nothing between the braces and an empty
label leaves its equality sign, so these two are told apart.

The labels stand in the order of their keys, byte by byte, however the pairs of the map were
enumerated. The main statement is `key_read_back`.
-/

namespace Conveyor.Metrics

open Text

/-! ### Reading -/

/-- What stands before the first separator and what behind it. -/
def cut? (separator : Char) : List Char → Option (List Char × List Char)
  | [] => none
  | c :: cs =>
    if c = separator then some ([], cs)
    else (cut? separator cs).map fun parts ↦ (c :: parts.1, parts.2)

/-- A label, whose key ends at the first equality sign. -/
def readLabel? (cs : List Char) : Option (String × String) :=
  (cut? '=' cs).map fun parts ↦ (.ofList parts.1, .ofList parts.2)

/-- The labels between commas, none if there is nothing to read. -/
def readLabels? (cs : List Char) : Option (List (String × String)) :=
  if cs = [] then some [] else (pieces cs).mapM readLabel?

/-- The metric that has a key, with the namespace up to the first dot, the name up to the first brace
and the labels up to the last brace. -/
def Identity.ofKey? (key : String) : Option Identity := do
  let (namespaceName, rest) ← cut? '.' key.toList
  let (name, rest) ← cut? '\x7b' rest
  guard (rest.getLast? = some '\x7d')
  let labels ← readLabels? rest.dropLast
  return { namespaceName := .ofList namespaceName, name := .ofList name, labels := .ofList labels }

/-! ### What is read was written -/

/-- A text is cut at the separator that ends a part without any. -/
theorem cut?_append {separator : Char} {cs : List Char} (h : separator ∉ cs) (rest : List Char) :
    cut? separator (cs ++ separator :: rest) = some (cs, rest) := by
  induction cs with
  | nil => rw [List.nil_append, cut?, if_pos rfl]
  | cons c cs ih =>
    rw [List.cons_append, cut?, if_neg (List.ne_of_not_mem_cons h).symm,
      ih (List.not_mem_of_not_mem_cons h), Option.map_some]

theorem readLabel?_labelChars {label : String × String} (h : '=' ∉ label.1.toList) :
    readLabel? (labelChars label) = some label := by
  rw [readLabel?, labelChars, cut?_append h, Option.map_some, String.ofList_toList,
    String.ofList_toList]

theorem mapM_readLabel? {labels : List (String × String)}
    (h : ∀ label ∈ labels, '=' ∉ label.1.toList) :
    (labels.map labelChars).mapM readLabel? = some labels := by
  induction labels with
  | nil => rfl
  | cons label labels ih =>
    obtain ⟨hfirst, hrest⟩ := List.forall_mem_cons.1 h
    rw [List.map_cons, List.mapM_cons, readLabel?_labelChars hfirst, ih hrest]
    rfl

/-- Labels without the separators that end their parts can be read off their characters. -/
theorem readLabels?_labelsChars {labels : List (String × String)}
    (h : ∀ label ∈ labels,
      '=' ∉ label.1.toList ∧ ',' ∉ label.1.toList ∧ ',' ∉ label.2.toList) :
    readLabels? (labelsChars labels) = some labels := by
  by_cases hnil : labels = []
  · rw [hnil]
    rfl
  · have hmap : labels.map labelChars ≠ [] := mt List.map_eq_nil_iff.1 hnil
    have hcommas : ∀ part ∈ labels.map labelChars, ',' ∉ part := by
      refine List.forall_mem_map.2 fun label hlabel ↦ ?_
      obtain ⟨-, hkey, hvalue⟩ := h label hlabel
      simp [labelChars, hkey, hvalue]
    have hpieces : pieces (labelsChars labels) = labels.map labelChars :=
      pieces_intercalate hmap hcommas
    have hne : labelsChars labels ≠ [] := by
      -- The text without characters is one piece, and not that of a label.
      intro hchars
      rw [hchars] at hpieces
      have hlabel : [] ∈ labels.map labelChars := by
        rw [← hpieces]
        exact List.mem_singleton_self _
      obtain ⟨label, -, hempty⟩ := List.mem_map.1 hlabel
      simp [labelChars] at hempty
    rw [readLabels?, if_neg hne, hpieces, mapM_readLabel? fun label hlabel ↦ (h label hlabel).1]

/-- The metric of a plain sample can be read off its key. -/
theorem Identity.ofKey?_key {s : Sample} (h : s.IsPlain) : ofKey? s.key = some s.identity := by
  rw [ofKey?, s.toList_key, cut?_append h.namespaceName]
  simp only [Option.bind_eq_bind, Option.bind_some]
  rw [cut?_append h.name]
  simp [readLabels?_labelsChars h.labels, Dict.ofList_toList, Sample.identity]

/-! ### The order of the labels -/

/-- The labels of a map stand in the order of the bytes of their keys. -/
theorem bytes_ascending (labels : Dict String) :
    labels.toList.Pairwise fun p q ↦ bytes p.1 < bytes q.1 :=
  labels.ascending.imp bytes_lt_iff.2

/-- **Keys read back.** The metric of a plain sample is what is read off its key. The key is the same
in whichever order the pairs of the map of labels come, and lists them in the order of the bytes of
their keys. -/
theorem key_read_back (s : Sample) :
    (s.IsPlain → Identity.ofKey? s.key = some s.identity) ∧
      ∀ ps : List (String × String), (ps.map Prod.fst).Nodup →
        ∃ sorted : List (String × String), sorted.Perm ps ∧
          (sorted.Pairwise fun p q ↦ bytes p.1 < bytes q.1) ∧
          ∀ qs : List (String × String), qs.Perm ps →
            { s with labels := .ofList qs }.key = s.namespaceName ++ "." ++ s.name ++ "\x7b" ++
              String.intercalate "," (sorted.map Sample.labelText) ++ "\x7d" := by
  refine ⟨Identity.ofKey?_key, fun ps hnodup ↦ ?_⟩
  refine ⟨(Dict.ofList ps).toList, Dict.toList_ofList_perm hnodup, bytes_ascending _, fun qs hqs ↦ ?_⟩
  rw [← Dict.ofList_perm hqs.symm hnodup]
  rfl

/-- A sample with no labels. -/
def sampleBare : Sample := { namespaceName := "app", name := "hits" }

/-- A sample with one label, both parts of which are empty. -/
def sampleBlank : Sample := { sampleBare with labels := .ofList [("", "")] }

/-- A sample with separators in its name and in the values of its labels. -/
def sampleMarked : Sample where
  namespaceName := "app"
  name := "hits.per=s"
  labels := .ofList [("z", "a=b.c"), ("a", "\x7b\x7d")]

theorem key_read_back_sample :
    sampleBare.identity ≠ sampleBlank.identity ∧
      Identity.ofKey? sampleBare.key = some sampleBare.identity ∧
      Identity.ofKey? sampleBlank.key = some sampleBlank.identity ∧
      Identity.ofKey? sampleMarked.key = some sampleMarked.identity ∧
      { sampleMarked with labels := .ofList [("a", "1"), ("z", "2")] }.key =
        { sampleMarked with labels := .ofList [("z", "2"), ("a", "1")] }.key := by
  have hbare : sampleBare.IsPlain := ⟨by decide, by decide, by decide⟩
  have hblank : sampleBlank.IsPlain := ⟨by decide, by decide, by decide⟩
  have hmarked : sampleMarked.IsPlain := ⟨by decide, by decide, by decide⟩
  obtain ⟨sorted, -, -, hkey⟩ :=
    (key_read_back sampleMarked).2 [("a", "1"), ("z", "2")] (by decide)
  refine ⟨by decide, (key_read_back sampleBare).1 hbare, (key_read_back sampleBlank).1 hblank,
    (key_read_back sampleMarked).1 hmarked, ?_⟩
  rw [hkey _ (.refl _), hkey _ (List.Perm.swap ..)]

end Conveyor.Metrics
