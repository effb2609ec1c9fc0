import Mathlib.Data.List.Nodup
import Conveyor.Dict

/-!
# Maps by their look-ups

A map is what its look-ups say (`Dict.ext_get?`), and `get?_insert` says what they say after an
insertion. What is known of maps elsewhere follows from these two, as that a map does not show the
order in which it was filled in (`Dict.ofList_perm`), and no proof needs the order of the entries
again.
-/

namespace Conveyor.Dict

variable {α : Type} {d e : Dict α}

theorem lookup_cons_eq (key : String) (value : α) (entries : List (String × α)) (k : String) :
    ((key, value) :: entries).lookup k = if k = key then some value else entries.lookup k := by
  rw [List.lookup_cons]
  by_cases hk : k = key
  · rw [if_pos hk, beq_iff_eq.2 hk]
  · rw [if_neg hk, beq_false_of_ne hk]

theorem lookup_insertEntry (key : String) (value : α) (entries : List (String × α)) (k : String) :
    (insertEntry key value entries).lookup k =
      if k = key then some value else entries.lookup k := by
  induction entries with
  | nil => exact lookup_cons_eq key value [] k
  | cons entry entries ih =>
    rcases entry with ⟨key', value'⟩
    rw [insertEntry]
    split
    · exact lookup_cons_eq key value _ k
    · split
      case isTrue heq =>
        rw [lookup_cons_eq, lookup_cons_eq, heq]
        split <;> rfl
      case isFalse hne =>
        rw [lookup_cons_eq, lookup_cons_eq, ih]
        by_cases hk : k = key'
        · rw [if_pos hk, if_neg (hk ▸ Ne.symm hne), if_pos hk]
        · rw [if_neg hk, if_neg hk]

/-- What a look-up says after an insertion. -/
theorem get?_insert (d : Dict α) (key : String) (value : α) (k : String) :
    (d.insert key value).get? k = if k = key then some value else d.get? k :=
  lookup_insertEntry key value d.entries k

/-- The entries are what the look-ups say. -/
theorem mem_entries_iff {k : String} {v : α} : (k, v) ∈ d.entries ↔ d.get? k = some v := by
  rw [get?, List.lookup_eq_some_iff]
  constructor
  · intro hmem
    obtain ⟨front, back, hsplit⟩ := List.append_of_mem hmem
    refine ⟨front, back, hsplit, fun p hp ↦ ?_⟩
    -- A key in front is less than this one.
    have hascending := d.ascending
    rw [hsplit, List.pairwise_append] at hascending
    have hlt : p.1 < k := hascending.2.2 p hp (k, v) List.mem_cons_self
    exact bne_iff_ne.2 fun heq ↦ String.lt_irrefl k (heq ▸ hlt)
  · rintro ⟨front, back, hsplit, -⟩
    rw [hsplit]
    exact List.mem_append_right _ List.mem_cons_self

/-- The keys are those that look-ups find. -/
theorem mem_keys_iff {k : String} : k ∈ d.toList.map Prod.fst ↔ (d.get? k).isSome := by
  rw [List.mem_map, Option.isSome_iff_exists]
  constructor
  · rintro ⟨⟨k, v⟩, hmem, rfl⟩
    exact ⟨v, mem_entries_iff.1 hmem⟩
  · rintro ⟨v, hv⟩
    exact ⟨(k, v), mem_entries_iff.2 hv, rfl⟩

/-- No key has two entries. -/
theorem nodup_keys (d : Dict α) : (d.toList.map Prod.fst).Nodup := by
  refine List.pairwise_map.2 (d.ascending.imp fun {p q} hlt heq ↦ ?_)
  exact String.lt_irrefl p.1 (heq ▸ hlt)

/-- A map is what its look-ups say. -/
theorem ext_get? (h : ∀ k, d.get? k = e.get? k) : d = e := by
  have hnodup (c : Dict α) : c.entries.Nodup := c.nodup_keys.of_map
  have hperm : d.entries.Perm e.entries := by
    rw [List.perm_ext_iff_of_nodup (hnodup d) (hnodup e)]
    rintro ⟨k, v⟩
    rw [mem_entries_iff, mem_entries_iff, h]
  refine ext (hperm.eq_of_pairwise (fun a b _ _ hab hba ↦ ?_) d.ascending e.ascending)
  exact absurd (String.lt_trans hab hba) (String.lt_irrefl a.1)

/-- Entries of two keys may be inserted in either order. -/
theorem insert_comm {k k' : String} (h : k ≠ k') (v v' : α) :
    (d.insert k v).insert k' v' = (d.insert k' v').insert k v := by
  refine ext_get? fun x ↦ ?_
  rw [get?_insert, get?_insert, get?_insert, get?_insert]
  by_cases hx : x = k'
  · rw [if_pos hx, if_neg (hx ▸ Ne.symm h), if_pos hx]
  · rw [if_neg hx, if_neg hx]

/-- A map does not show the order of the pairs that it was made of. -/
theorem ofList_perm {ps qs : List (String × α)} (h : ps.Perm qs) (hnodup : (ps.map Prod.fst).Nodup) :
    ofList ps = ofList qs := by
  refine h.foldl_eq' (fun p hp q hq c ↦ ?_) empty
  by_cases heq : p = q
  · rw [heq]
  · exact insert_comm (fun hkey ↦ heq (List.inj_on_of_nodup_map hnodup hp hq hkey)) p.2 q.2

/-- A new key has an entry beside those before. -/
theorem insertEntry_perm {key : String} {value : α} {entries : List (String × α)}
    (h : key ∉ entries.map Prod.fst) :
    (insertEntry key value entries).Perm ((key, value) :: entries) := by
  induction entries with
  | nil => exact .refl _
  | cons entry entries ih =>
    rw [List.map_cons] at h
    rw [insertEntry]
    split
    · exact .refl _
    · rw [if_neg (List.ne_of_not_mem_cons h)]
      exact ((ih (List.not_mem_of_not_mem_cons h)).cons entry).trans (.swap ..)

/-- Pairs with keys of their own are the entries that a map has more after it was filled with them. -/
theorem entries_foldl_insert_perm (ps : List (String × α)) (d : Dict α)
    (h : ((d.entries ++ ps).map Prod.fst).Nodup) :
    (ps.foldl (fun d p ↦ d.insert p.1 p.2) d).entries.Perm (d.entries ++ ps) := by
  induction ps generalizing d with
  | nil => simp
  | cons p ps ih =>
    have hnew : p.1 ∉ d.entries.map Prod.fst := by
      rw [List.map_append, List.nodup_append] at h
      exact fun hmem ↦ h.2.2 _ hmem _ (List.mem_map_of_mem List.mem_cons_self) rfl
    have hentries : ((d.insert p.1 p.2).entries ++ ps).Perm (d.entries ++ p :: ps) :=
      ((insertEntry_perm hnew).append_right ps).trans List.perm_middle.symm
    rw [List.foldl_cons]
    exact (ih _ ((hentries.map _).nodup_iff.2 h)).trans hentries

/-- A map that is made of pairs with keys of their own has these pairs as entries. -/
theorem toList_ofList_perm {ps : List (String × α)} (hnodup : (ps.map Prod.fst).Nodup) :
    (ofList ps).toList.Perm ps :=
  entries_foldl_insert_perm ps empty hnodup

/-! ### Filling a map -/

/-- A key has the last value that it was given, or else the one that it had before. -/
theorem get?_foldl_insert (ps : List (String × α)) (d : Dict α) (k : String) :
    (ps.foldl (fun d p ↦ d.insert p.1 p.2) d).get? k = (ps.reverse.lookup k).or (d.get? k) := by
  induction ps generalizing d with
  | nil => rfl
  | cons p ps ih =>
    have hfirst : [p].lookup k = if k = p.1 then some p.2 else none := lookup_cons_eq p.1 p.2 [] k
    rw [List.foldl_cons, ih, get?_insert, List.reverse_cons, List.lookup_append, hfirst,
      Option.or_assoc]
    split <;> rfl

/-- The last values are the same in every order if no key has two. -/
theorem lookup_reverse_perm {ps qs : List (String × α)} (h : ps.Perm qs)
    (hnodup : (ps.map Prod.fst).Nodup) (k : String) : ps.reverse.lookup k = qs.reverse.lookup k := by
  have hlast (ps : List (String × α)) : (ofList ps).get? k = ps.reverse.lookup k := by
    rw [ofList, get?_foldl_insert]
    exact Option.or_none
  rw [← hlast, ofList_perm h hnodup, hlast]

/-! ### Filling a map in key order -/

/-- A key that is greater than all others comes last. -/
theorem insertEntry_of_forall_lt {key : String} {value : α} {entries : List (String × α)}
    (h : ∀ e ∈ entries, e.1 < key) :
    insertEntry key value entries = entries ++ [(key, value)] := by
  induction entries with
  | nil => rfl
  | cons entry entries ih =>
    obtain ⟨hlt, hentries⟩ := List.forall_mem_cons.1 h
    have hne : key ≠ entry.1 := fun heq ↦ String.lt_irrefl key (heq ▸ hlt)
    rw [insertEntry, if_neg (fun hgt ↦ String.lt_irrefl key (String.lt_trans hgt hlt)),
      if_neg hne, ih hentries, List.cons_append]

/-- Entries that are inserted in ascending order come one after the other. -/
theorem entries_foldl_insert (ps : List (String × α)) (d : Dict α)
    (h : (d.entries ++ ps).Pairwise fun a b ↦ a.1 < b.1) :
    (ps.foldl (fun d p ↦ d.insert p.1 p.2) d).entries = d.entries ++ ps := by
  induction ps generalizing d with
  | nil => simp
  | cons p ps ih =>
    have hlast : (d.insert p.1 p.2).entries = d.entries ++ [p] :=
      insertEntry_of_forall_lt fun e he ↦
        (List.pairwise_append.1 h).2.2 e he p List.mem_cons_self
    rw [List.foldl_cons, ih _ (by rwa [hlast, ← List.append_cons]), hlast, ← List.append_cons]

/-- A map is made of its entries. -/
theorem ofList_toList (d : Dict α) : ofList d.toList = d :=
  ext (entries_foldl_insert d.entries empty d.ascending)

end Conveyor.Dict
