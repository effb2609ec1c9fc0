/-!
# Maps in key order

A `Dict α` maps texts to values of `α`. Its entries are kept in strictly ascending order of the keys,
by code point, so two maps with the same entries are equal whatever order they were filled in, and
every listing of a map comes out in one order.

The order is a field of the type: `insert` is the only operation that adds an entry, and its proof
that the order survives is the only one needed.
-/

namespace Conveyor

/-- A map from texts to `α`, kept in ascending order of the keys. -/
structure Dict (α : Type) where
  /-- The keys with their values. -/
  entries : List (String × α)
  /-- The keys ascend, so no key occurs twice. -/
  ascending : entries.Pairwise fun a b ↦ a.1 < b.1

namespace Dict

variable {α : Type}

/-- The map without entries. -/
def empty : Dict α := ⟨[], .nil⟩

instance : EmptyCollection (Dict α) := ⟨empty⟩

instance : Inhabited (Dict α) := ⟨empty⟩

theorem ext {d e : Dict α} (h : d.entries = e.entries) : d = e := by
  cases d; cases e; cases h; rfl

instance [DecidableEq α] : DecidableEq (Dict α) := fun d e ↦
  decidable_of_iff (d.entries = e.entries) ⟨ext, congrArg entries⟩

/-- Puts a value at its place among ascending entries, over the value the key had before. -/
def insertEntry (key : String) (value : α) : List (String × α) → List (String × α)
  | [] => [(key, value)]
  | (k, v) :: rest =>
    if key < k then (key, value) :: (k, v) :: rest
    else if key = k then (key, value) :: rest
    else (k, v) :: insertEntry key value rest

theorem fst_of_mem_insertEntry {key : String} {value : α} {e : String × α} :
    ∀ {entries : List (String × α)}, e ∈ insertEntry key value entries →
      e.1 = key ∨ e ∈ entries
  | [], h => by simp [insertEntry] at h; simp [h]
  | (k, v) :: rest, h => by
    unfold insertEntry at h
    split at h
    · rcases List.mem_cons.mp h with rfl | h
      · exact .inl rfl
      · exact .inr h
    · split at h
      · rcases List.mem_cons.mp h with rfl | h
        · exact .inl rfl
        · exact .inr (List.mem_cons_of_mem _ h)
      · rcases List.mem_cons.mp h with rfl | h
        · exact .inr List.mem_cons_self
        · exact (fst_of_mem_insertEntry h).imp_right (List.mem_cons_of_mem _)

theorem ascending_insertEntry (key : String) (value : α) :
    ∀ {entries : List (String × α)}, entries.Pairwise (fun a b ↦ a.1 < b.1) →
      (insertEntry key value entries).Pairwise fun a b ↦ a.1 < b.1
  | [], _ => by simp [insertEntry]
  | (k, v) :: rest, h => by
    obtain ⟨hk, hrest⟩ := List.pairwise_cons.mp h
    unfold insertEntry
    split
    · rename_i hlt
      refine List.pairwise_cons.mpr ⟨fun e he ↦ ?_, h⟩
      rcases List.mem_cons.mp he with rfl | he
      · exact hlt
      · exact String.lt_trans hlt (hk e he)
    · rename_i hlt
      split
      · rename_i heq
        exact List.pairwise_cons.mpr ⟨fun e he ↦ heq ▸ hk e he, hrest⟩
      · rename_i hne
        refine List.pairwise_cons.mpr ⟨fun e he ↦ ?_, ascending_insertEntry key value hrest⟩
        rcases fst_of_mem_insertEntry he with he | he
        · rw [he]
          exact Std.lt_of_le_of_ne (String.not_lt.mp hlt) (Ne.symm hne)
        · exact hk e he

/-- Maps `key` to `value`, in place of what it was mapped to before. -/
def insert (d : Dict α) (key : String) (value : α) : Dict α :=
  ⟨insertEntry key value d.entries, ascending_insertEntry key value d.ascending⟩

/-- The value of a key. -/
def get? (d : Dict α) (key : String) : Option α :=
  d.entries.lookup key

/-- The map of a list of pairs; of two pairs with one key the later counts. -/
def ofList (pairs : List (String × α)) : Dict α :=
  pairs.foldl (fun d p ↦ d.insert p.1 p.2) empty

/-- The entries in ascending order of their keys. -/
def toList (d : Dict α) : List (String × α) := d.entries

/-- The number of entries. -/
def size (d : Dict α) : Nat := d.entries.length

@[simp] theorem entries_empty : (empty : Dict α).entries = [] := rfl

@[simp] theorem entries_insert (d : Dict α) (key : String) (value : α) :
    (d.insert key value).entries = insertEntry key value d.entries := rfl

end Dict

end Conveyor
