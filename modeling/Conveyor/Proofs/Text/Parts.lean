import Mathlib.Logic.Relation
import Conveyor.Proofs.Text.Split
import Conveyor.Proofs.Text.Trim

/-!
# The parts of a list

What counts of a comma-separated list is its parts. A part is a text that is not empty, trimmed and
without commas (`IsPart`), these are the texts that `splitList` yields, and each list of them is the
list of the parts of what it is joined to (`splitList_intercalate`). The main statement is
`list_laws`.

## What does not count

A list may be spelled in many ways. A *change of spelling* adds or removes blanks next to a comma, or
an empty entry with the comma that goes with it, and two texts are spelled differently if some changes
lead from one to the other (`Respelled`). Each text can be changed into its parts, joined
(`respelled_intercalate`), so the parts are not only kept by changes of spelling, they are all that is
kept. Blanks at the ends of a text need no rule of their own: beside an empty entry they are next to a
comma.
-/

namespace Conveyor.Text

variable {a b s blanks : String} {parts : List String}

/-! ### Parts -/

/-- A text that can be a part of a list. -/
structure IsPart (s : String) : Prop where
  /-- There is something in it. -/
  ne_empty : s ≠ ""
  /-- It has no blanks around it. -/
  trim_eq : trim s = s
  /-- It is not cut in two. -/
  comma_notMem : ',' ∉ s.toList

/-! ### Texts around a comma -/

/-- An induction over the entries of a list. -/
theorem entry_induction {motive : String → Prop} (entry : ∀ s, ',' ∉ s.toList → motive s)
    (comma : ∀ a b, ',' ∉ a.toList → motive b → motive (a ++ "," ++ b)) (s : String) : motive s := by
  have hchars (cs : List Char) : motive (String.ofList cs) := by
    induction cs using comma_induction with
    | piece cs hcs => exact entry _ (by rwa [String.toList_ofList])
    | comma xs ys hxs ih =>
      have hsplit : String.ofList (xs ++ ',' :: ys) =
          String.ofList xs ++ "," ++ String.ofList ys := by
        rw [← String.toList_inj]
        simp
      rw [hsplit]
      exact comma _ _ (by rwa [String.toList_ofList]) ih
  simpa using hchars s.toList

/-- A comma separates the parts of the texts around it. -/
theorem splitList_append (a b : String) :
    splitList (a ++ "," ++ b) = splitList a ++ splitList b := by
  have hchars : (a ++ "," ++ b).toList = a.toList ++ ',' :: b.toList := by simp
  rw [splitList, hchars, splitChars, pieces_append, List.map_append, List.filter_append,
    List.map_append]
  rfl

/-- A text without commas is one entry, which is a part unless it is blank. -/
theorem splitList_of_notMem (h : ',' ∉ s.toList) :
    splitList s = if trim s = "" then [] else [trim s] := by
  rw [splitList, splitChars, pieces_of_not_mem h, List.map_singleton, List.filter_singleton, trim]
  rcases trimChars s.toList with - | ⟨c, cs⟩
  · rfl
  · rw [if_neg (by simp [← String.toList_inj])]
    rfl

/-- The parts of a list are parts. -/
theorem isPart_of_mem_splitList {part : String} (h : part ∈ splitList s) : IsPart part := by
  rw [splitList, List.mem_map] at h
  obtain ⟨cs, hcs, rfl⟩ := h
  rw [splitChars, List.mem_filter, List.mem_map] at hcs
  obtain ⟨⟨piece, hpiece, rfl⟩, hne⟩ := hcs
  exact {
    ne_empty := by simpa [← String.toList_inj] using hne
    trim_eq := by
      rw [trim, String.toList_ofList, trimChars_eq_self_iff.2 (trimmed_trimChars piece)]
    comma_notMem := fun hmem ↦ by
      obtain ⟨front, back, -, -, haround⟩ := exists_blanks_around piece
      refine comma_notMem_of_mem_pieces hpiece ?_
      rw [haround]
      exact List.mem_append_left _ (List.mem_append_right _ (by simpa using hmem)) }

/-- A part is the only part of itself. -/
theorem splitList_of_isPart (h : IsPart s) : splitList s = [s] := by
  rw [splitList_of_notMem h.comma_notMem, h.trim_eq, if_neg h.ne_empty]

/-- Parts are the parts of what they are joined to. -/
theorem splitList_intercalate (h : ∀ part ∈ parts, IsPart part) :
    splitList (",".intercalate parts) = parts := by
  induction parts with
  | nil => rfl
  | cons part parts ih =>
    obtain ⟨hpart, hrest⟩ := List.forall_mem_cons.1 h
    rcases parts with - | ⟨next, parts⟩
    · rw [String.intercalate_singleton, splitList_of_isPart hpart]
    · rw [String.intercalate_cons_cons, splitList_append, splitList_of_isPart hpart, ih hrest,
        List.singleton_append]

/-! ### Blanks -/

theorem isBlank_of_isBlankText (h : isBlankText blanks = true) :
    ∀ c ∈ blanks.toList, isBlank c = true :=
  List.all_eq_true.1 h

theorem comma_notMem_of_isBlankText (h : isBlankText blanks = true) : ',' ∉ blanks.toList :=
  fun hmem ↦ absurd (isBlank_of_isBlankText h ',' hmem) (by decide)

/-- Blanks around an entry do not count. -/
theorem splitList_blanks_around {front back : String} (hfront : isBlankText front = true)
    (hback : isBlankText back = true) (hs : ',' ∉ s.toList) :
    splitList (front ++ s ++ back) = splitList s := by
  have hentry : ',' ∉ (front ++ s ++ back).toList := by
    simpa using ⟨comma_notMem_of_isBlankText hfront, hs, comma_notMem_of_isBlankText hback⟩
  have htrim : trim (front ++ s ++ back) = trim s := by
    rw [trim, trim, String.toList_append, String.toList_append,
      trimChars_append_blanks (isBlank_of_isBlankText hback),
      trimChars_blanks_append (isBlank_of_isBlankText hfront)]
  rw [splitList_of_notMem hentry, splitList_of_notMem hs, htrim]

/-- Blanks in front of a list do not count. -/
theorem splitList_blanks_append (h : isBlankText blanks = true) (s : String) :
    splitList (blanks ++ s) = splitList s := by
  have hnone : isBlankText "" = true := rfl
  have hentry {s : String} (hs : ',' ∉ s.toList) : splitList (blanks ++ s) = splitList s := by
    simpa using splitList_blanks_around h hnone hs
  induction s using entry_induction with
  | entry s hs => exact hentry hs
  | comma a b ha =>
    rw [← String.append_assoc, ← String.append_assoc, splitList_append, splitList_append, hentry ha]

/-- Blanks behind a list do not count. -/
theorem splitList_append_blanks (h : isBlankText blanks = true) (s : String) :
    splitList (s ++ blanks) = splitList s := by
  have hnone : isBlankText "" = true := rfl
  induction s using entry_induction with
  | entry s hs => simpa using splitList_blanks_around hnone h hs
  | comma a b ha ih =>
    rw [String.append_assoc, splitList_append, splitList_append, ih]

/-! ### Spelling -/

/-- A text is another one with blanks or an empty entry added. -/
inductive Padded : String → String → Prop
  /-- Blanks in front of a comma. -/
  | before {blanks : String} (a b : String) (h : isBlankText blanks = true) :
      Padded (a ++ blanks ++ "," ++ b) (a ++ "," ++ b)
  /-- Blanks behind a comma. -/
  | behind {blanks : String} (a b : String) (h : isBlankText blanks = true) :
      Padded (a ++ "," ++ (blanks ++ b)) (a ++ "," ++ b)
  /-- An empty entry between two others. -/
  | between (a b : String) : Padded (a ++ "," ++ ("," ++ b)) (a ++ "," ++ b)
  /-- An empty entry in front of all others. -/
  | first (s : String) : Padded ("," ++ s) s
  /-- An empty entry behind all others. -/
  | last (s : String) : Padded (s ++ ",") s

/-- One text is the other with blanks around commas and empty entries added and removed. -/
def Respelled : String → String → Prop := Relation.EqvGen Padded

/-- What is added has no parts. -/
theorem Padded.splitList_eq (h : Padded a b) : splitList a = splitList b := by
  have hempty : splitList "" = [] := rfl
  cases h with
  | before a b h => rw [splitList_append, splitList_append, splitList_append_blanks h]
  | behind a b h => rw [splitList_append, splitList_append, splitList_blanks_append h]
  | between a b =>
    have hnone := splitList_append "" b
    rw [String.empty_append, hempty, List.nil_append] at hnone
    rw [splitList_append, splitList_append, hnone]
  | first =>
    have hnone := splitList_append "" b
    rwa [String.empty_append, hempty, List.nil_append] at hnone
  | last =>
    have hnone := splitList_append b ""
    rwa [String.append_empty, hempty, List.append_nil] at hnone

namespace Respelled

theorem of_padded (h : Padded a b) : Respelled a b := .rel _ _ h

theorem refl (s : String) : Respelled s s := Relation.EqvGen.refl s

theorem symm (h : Respelled a b) : Respelled b a := Relation.EqvGen.symm _ _ h

theorem trans {c : String} (h : Respelled a b) (h' : Respelled b c) : Respelled a c :=
  Relation.EqvGen.trans _ _ _ h h'

/-- Changes of spelling keep the parts. -/
theorem splitList_eq (h : Respelled a b) : splitList a = splitList b := by
  induction h with
  | rel _ _ h => exact h.splitList_eq
  | refl => rfl
  | symm _ _ _ ih => exact ih.symm
  | trans _ _ _ _ _ ih ih' => exact ih.trans ih'

/-- What is changed in each step may be changed with something around it. -/
theorem map {f : String → String} (hf : ∀ {a b}, Padded a b → Padded (f a) (f b))
    (h : Respelled a b) : Respelled (f a) (f b) := by
  induction h with
  | rel _ _ h => exact of_padded (hf h)
  | refl => exact refl _
  | symm _ _ _ ih => exact ih.symm
  | trans _ _ _ _ _ ih ih' => exact ih.trans ih'

/-- A text may be changed behind a comma. -/
theorem behind_comma (front : String) (h : Respelled a b) :
    Respelled (front ++ "," ++ a) (front ++ "," ++ b) := by
  refine h.map (f := fun s ↦ front ++ "," ++ s) fun {a b} hpadded ↦ ?_
  cases hpadded with
  | before a b h => simpa [String.append_assoc] using Padded.before (front ++ "," ++ a) b h
  | behind a b h => simpa [String.append_assoc] using Padded.behind (front ++ "," ++ a) b h
  | between a b => simpa [String.append_assoc] using Padded.between (front ++ "," ++ a) b
  -- What is first here is between two commas behind the one in front.
  | first s => exact .between front b
  | last s => simpa [String.append_assoc] using Padded.last (front ++ "," ++ b)

/-- A text may be changed in front of a comma. -/
theorem before_comma (back : String) (h : Respelled a b) :
    Respelled (a ++ "," ++ back) (b ++ "," ++ back) := by
  refine h.map (f := fun s ↦ s ++ "," ++ back) fun {a b} hpadded ↦ ?_
  cases hpadded with
  | before a b h => simpa [String.append_assoc] using Padded.before a (b ++ "," ++ back) h
  | behind a b h => simpa [String.append_assoc] using Padded.behind a (b ++ "," ++ back) h
  | between a b => simpa [String.append_assoc] using Padded.between a (b ++ "," ++ back)
  | first s => simpa [String.append_assoc] using Padded.first (b ++ "," ++ back)
  | last =>
    have hbetween := Padded.between b back
    rwa [← String.append_assoc] at hbetween

/-- Blanks in front of a text can be removed: with an empty entry in front they are behind a comma. -/
theorem blanks_append (h : isBlankText blanks = true) (s : String) :
    Respelled (blanks ++ s) s := by
  have hbehind : Padded ("," ++ (blanks ++ s)) ("," ++ s) := by
    simpa using Padded.behind "" s h
  exact (of_padded (.first (blanks ++ s))).symm.trans
    ((of_padded hbehind).trans (of_padded (.first s)))

/-- Blanks behind a text can be removed. -/
theorem append_blanks (h : isBlankText blanks = true) (s : String) :
    Respelled (s ++ blanks) s := by
  have hbefore : Padded (s ++ blanks ++ ",") (s ++ ",") := by
    simpa using Padded.before s "" h
  exact (of_padded (.last (s ++ blanks))).symm.trans
    ((of_padded hbefore).trans (of_padded (.last s)))

/-- An entry can be changed into what is left of it. -/
theorem trim (s : String) : Respelled s (Text.trim s) := by
  obtain ⟨front, back, hfront, hback, haround⟩ := exists_blanks_around s.toList
  have hsplit : s = String.ofList front ++ (Text.trim s ++ String.ofList back) := by
    rw [← String.toList_inj]
    simpa using haround
  have hblank {cs : List Char} (h : ∀ c ∈ cs, isBlank c = true) :
      isBlankText (String.ofList cs) = true := by
    rw [isBlankText, String.toList_ofList, List.all_eq_true]
    exact h
  have hdropped := (blanks_append (hblank hfront) (Text.trim s ++ String.ofList back)).trans
    (append_blanks (hblank hback) (Text.trim s))
  rwa [← hsplit] at hdropped

/-- Lists that are joined can be joined with a comma between them, even if one is empty. -/
theorem intercalate_append (ps qs : List String) :
    Respelled (",".intercalate ps ++ "," ++ ",".intercalate qs) (",".intercalate (ps ++ qs)) := by
  by_cases hps : ps = []
  · rw [hps, String.intercalate_nil, String.empty_append, List.nil_append]
    exact of_padded (.first _)
  · by_cases hqs : qs = []
    · rw [hqs, String.intercalate_nil, String.append_empty, List.append_nil]
      exact of_padded (.last _)
    · rw [String.intercalate_append_of_ne_nil hps hqs]
      exact refl _

end Respelled

/-- Every text can be changed into its parts, joined. -/
theorem respelled_intercalate (s : String) : Respelled s (",".intercalate (splitList s)) := by
  have hentry {s : String} (hs : ',' ∉ s.toList) : Respelled s (",".intercalate (splitList s)) := by
    have htrim := Respelled.trim s
    rw [splitList_of_notMem hs]
    split
    case isTrue hempty => rwa [String.intercalate_nil, ← hempty]
    case isFalse => rwa [String.intercalate_singleton]
  induction s using entry_induction with
  | entry s hs => exact hentry hs
  | comma a b ha ih =>
    -- The entry in front is changed first, then what is behind it, and then both are joined.
    have hfront := (hentry ha).before_comma b
    have hback := ih.behind_comma (",".intercalate (splitList a))
    rw [splitList_append]
    exact (hfront.trans hback).trans (.intercalate_append _ _)

/-- Two texts have the same parts if and only if they are spellings of one list. -/
theorem respelled_iff : Respelled a b ↔ splitList a = splitList b := by
  refine ⟨Respelled.splitList_eq, fun h ↦ ?_⟩
  have hb := (respelled_intercalate b).symm
  rw [← h] at hb
  exact (respelled_intercalate a).trans hb

/-! ### All laws -/

/-- What holds of the parts of two texts, and of any parts. -/
structure ListLaws (a b : String) (parts : List String) : Prop where
  /-- A comma separates the parts of the texts around it. -/
  append : splitList (a ++ "," ++ b) = splitList a ++ splitList b
  /-- Every part is not empty, trimmed and without commas. -/
  isPart : ∀ part ∈ splitList a, IsPart part
  /-- Such texts are the parts of what they are joined to. -/
  join : (∀ part ∈ parts, IsPart part) → splitList (",".intercalate parts) = parts
  /-- Joined and split again, parts are the same. -/
  again : splitList (",".intercalate (splitList a)) = splitList a
  /-- The parts are the same just when blanks around commas and empty entries are all that makes a
  difference between the texts. -/
  respelled : Respelled a b ↔ splitList a = splitList b

/-- **Laws of lists.** Splitting a text at its commas turns a comma into an append, it is the inverse
of joining, and it forgets nothing but blanks around commas and empty entries. -/
theorem list_laws (a b : String) (parts : List String) : ListLaws a b parts where
  append := splitList_append a b
  isPart _ := isPart_of_mem_splitList
  join := splitList_intercalate
  again := splitList_intercalate fun _ ↦ isPart_of_mem_splitList
  respelled := respelled_iff

example : splitList " spam, ,scam ," = ["spam", "scam"] := by decide

end Conveyor.Text
