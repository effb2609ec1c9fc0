import Conveyor.Metrics.Summary
import Conveyor.Proofs.Json.Doubles
import Conveyor.Proofs.Json.Finite
import Conveyor.Proofs.Json.Items
import Conveyor.Proofs.Metrics.Rollup

/-!
# Summaries are read back

A summary is written with all its parts, and its decoder wants all of them. Whether it accepts them
hangs on one thing: an infinite double is written as `null`, which is no number. The values of
samples are finite, so the least and the greatest of them are, and the mean is finite when the sum is.
But a sum of finite doubles may be infinite, and then the summary is refused.

`Summary.isSound_first` and `Summary.IsSound.record` keep account of that sample by sample, and
`Summary.readBack_json` says what becomes of the summary.
-/

namespace Conveyor.Metrics

open Json Decoder Double Time

variable {n : ℕ} {x y : Float} {s s' : Summary} {time : Timestamp}

/-! ### Samples -/

/-- No field of a sample takes a value that is not finite. -/
theorem Sample.Draft.isFinite_of_set {f : Decoder.Field Draft} (hf : f ∈ table) {node : Node}
    (hn : node.IsFinite) {draft draft' : Draft} (h : ∀ x ∈ draft.value, x.isFinite = true)
    (hset : f.set node draft = .ok draft') : ∀ x ∈ draft'.value, x.isFinite = true := by
  simp only [table, List.mem_cons, List.not_mem_nil, or_false] at hf
  obtain rfl | rfl | rfl | rfl | rfl := hf <;> obtain ⟨a, ha, rfl⟩ := exists_of_set hset
  case inr.inr.inl =>
    rintro _ ⟨rfl⟩
    exact isFinite_of_float hn ha
  all_goals exact h

/-- The value of a sample that was decoded is finite. -/
theorem Sample.isFinite_of_decoder {node : Node} {sample : Sample} (hn : node.IsFinite)
    (h : decoder node = .ok sample) : sample.value.isFinite = true := by
  obtain ⟨draft, hdraft, h⟩ := bind_eq_ok_iff.1 h
  obtain rfl := Except.ok.inj h
  have hvalue : ∀ x ∈ draft.value, x.isFinite = true :=
    record_induction (P := fun draft : Draft ↦ ∀ x ∈ draft.value, x.isFinite = true)
      (fun _ hf _ _ _ hn hP hset ↦ Draft.isFinite_of_set hf hn hP hset) hn
      (fun x hx ↦ absurd hx (Option.not_mem_none x)) hdraft
  show (draft.value.getD 0).isFinite = true
  generalize draft.value = value at hvalue
  cases value with
  | none => rfl
  | some x => exact hvalue x rfl

/-! ### Finite parts -/

/-- The quotient by a count is finite. -/
theorem isFinite_div_ofNat (hx : x.isFinite = true) (hpos : 0 < n) (hlt : n < 2 ^ 64) :
    (x / Float.ofNat n).isFinite = true := by
  obtain ⟨s, a, ha⟩ := exists_denotes hx
  obtain ⟨b, hb, hnear⟩ := exists_denotes_ofNat hlt
  obtain ⟨hround, hlt⟩ := exists_denotes_div ha hb (hnear hpos).2
  obtain ⟨c, hc, -⟩ := hround.exists_denotes hlt
  exact hc.isFinite

namespace Summary

/-- Every part is finite that can be, if the values of the samples are. -/
structure IsSound (s : Summary) : Prop where
  /-- The least value is one of the values. -/
  min : s.min.isFinite = true
  /-- The greatest value is one of the values. -/
  max : s.max.isFinite = true
  /-- The mean is no greater than the sum. -/
  mean : s.sum.isFinite = true → s.count < 2 ^ 64 → s.mean.isFinite = true

theorem isSound_first (hx : x.isFinite = true) (time : Timestamp) : (first x time).IsSound where
  min := hx
  max := hx
  mean _ _ := hx

theorem IsSound.record (h : s.IsSound) (hx : x.isFinite = true) (time : Timestamp) :
    (s.record x time).IsSound where
  min := by
    show (lesser s.min x).isFinite = true
    rw [lesser]
    split_ifs
    exacts [hx, hx, h.min]
  max := by
    show (greater s.max x).isFinite = true
    rw [greater]
    split_ifs
    exacts [hx, hx, h.max]
  mean hsum hcount := isFinite_div_ofNat hsum (Nat.succ_pos _) hcount

/-! ### Decoding -/

/-- The tree of a summary. -/
def node (count min max sum mean last : Node) : Node :=
  .object [(some "count", count), (some "min", min), (some "max", max), (some "sum", sum),
    (some "mean", mean), (some "last", last)] true

theorem foldlM_readMember_cons_eq_ok_iff {α σ : Type} {fs : List (Decoder.Field σ)}
    {key name : String} {get : σ → Option α} {put : σ → α → σ} {d : Decoder α} {draft last : σ}
    {n : Node} {members : List (Option String × Node)}
    (known : fs.find? (·.name == key) = some (.of name get put d)) (unset : get draft = none) :
    ((some key, n) :: members).foldlM (readMember fs) draft = .ok last ↔
      ∃ a, d n = .ok a ∧ members.foldlM (readMember fs) (put draft a) = .ok last := by
  rw [List.foldlM_cons, readMember_of_known n known unset]
  cases d n with
  | error why => exact iff_of_false nofun fun ⟨_, h, _⟩ ↦ nomatch h
  | ok a => exact ⟨fun h ↦ ⟨a, rfl, h⟩, fun ⟨_, ha, h⟩ ↦ Except.ok.inj ha ▸ h⟩

/-- A summary is decoded if all its parts are. -/
theorem decoder_node_eq_ok_iff {count min max sum mean last : Node} :
    decoder (node count min max sum mean last) = .ok s ↔
      natural count = .ok s.count ∧ float min = .ok s.min ∧ float max = .ok s.max ∧
        float sum = .ok s.sum ∧ float mean = .ok s.mean ∧ timestamp last = .ok s.last := by
  constructor
  · intro h
    obtain ⟨draft, hdraft, hs⟩ := bind_eq_ok_iff.1 h
    obtain ⟨draft', h, hclosed⟩ := bind_eq_ok_iff.1 hdraft
    obtain rfl := Except.ok.inj hclosed
    obtain ⟨a, ha, h⟩ := (foldlM_readMember_cons_eq_ok_iff rfl rfl).1 h
    obtain ⟨b, hb, h⟩ := (foldlM_readMember_cons_eq_ok_iff rfl rfl).1 h
    obtain ⟨c, hc, h⟩ := (foldlM_readMember_cons_eq_ok_iff rfl rfl).1 h
    obtain ⟨d, hd, h⟩ := (foldlM_readMember_cons_eq_ok_iff rfl rfl).1 h
    obtain ⟨e, he, h⟩ := (foldlM_readMember_cons_eq_ok_iff rfl rfl).1 h
    obtain ⟨f, hf, h⟩ := (foldlM_readMember_cons_eq_ok_iff rfl rfl).1 h
    obtain rfl := Except.ok.inj h
    obtain rfl := Except.ok.inj hs
    exact ⟨ha, hb, hc, hd, he, hf⟩
  · rintro ⟨ha, hb, hc, hd, he, hf⟩
    let draft : Draft :=
      ⟨some s.count, some s.min, some s.max, some s.sum, some s.mean, some s.last⟩
    refine bind_eq_ok_iff.2 ⟨draft, bind_eq_ok_iff.2 ⟨draft, ?_, rfl⟩, rfl⟩
    exact (foldlM_readMember_cons_eq_ok_iff rfl rfl).2 ⟨_, ha,
      (foldlM_readMember_cons_eq_ok_iff rfl rfl).2 ⟨_, hb,
      (foldlM_readMember_cons_eq_ok_iff rfl rfl).2 ⟨_, hc,
      (foldlM_readMember_cons_eq_ok_iff rfl rfl).2 ⟨_, hd,
      (foldlM_readMember_cons_eq_ok_iff rfl rfl).2 ⟨_, he,
      (foldlM_readMember_cons_eq_ok_iff rfl rfl).2 ⟨_, hf, rfl⟩⟩⟩⟩⟩⟩

/-! ### What is read back -/

/-- What is read where a summary was written. -/
structure ReadBack (s s' : Summary) : Prop where
  /-- The count is the same. -/
  count : s'.count = s.count
  /-- The least value is read back. -/
  min : IsReadBack s.min s'.min
  /-- The greatest value is read back. -/
  max : IsReadBack s.max s'.max
  /-- The sum is read back. -/
  sum : IsReadBack s.sum s'.sum
  /-- The mean is read back. -/
  mean : IsReadBack s.mean s'.mean
  /-- The time is the same. -/
  last : s'.last = s.last

/-- If the decimals of all parts are short, the summary is read back as it was. -/
theorem ReadBack.eq_of_isShort (h : s.ReadBack s') (hmin : IsShort s.min) (hmax : IsShort s.max)
    (hsum : IsShort s.sum) (hmean : IsShort s.mean) : s' = s := by
  obtain ⟨count, min, max, sum, mean, last⟩ := s'
  obtain rfl := h.count
  obtain rfl := h.min.eq_of_isShort hmin
  obtain rfl := h.max.eq_of_isShort hmax
  obtain rfl := h.sum.eq_of_isShort hsum
  obtain rfl := h.mean.eq_of_isShort hmean
  obtain rfl := h.last
  rfl

/-- What is read where a summary was written is decoded if the sum is finite, and not otherwise. -/
structure IsReadAs (s : Summary) (n : Node) : Prop where
  /-- The text of the summary is read as this. -/
  reads : s.json.ReadsAs n
  /-- With a finite sum it is accepted. -/
  accepted : s.sum.isFinite = true → s.count < 2 ^ 64 → ∃ s', decoder n = .ok s' ∧ s.ReadBack s'
  /-- With an infinite sum it is refused. -/
  refused : s.sum.isFinite = false ∨ 2 ^ 64 ≤ s.count → ∀ s', decoder n ≠ .ok s'

theorem eq_natural_of_ok {number : Option Number} (h : natural (.number number) = .ok n) :
    number = some (.natural n) := by
  rcases number with - | (m | m | x)
  · cases h
  · rw [Except.ok.inj h]
  · cases h
  · cases h

/-- What is read for a double. -/
theorem exists_readsAs_float (x : Float) : ∃ n, (Value.float x).ReadsAs n ∧
    (x.isFinite = true → ∃ y, float n = .ok y ∧ IsReadBack x y) ∧
    (x.isFinite = false → ∀ y, float n ≠ .ok y) := by
  cases hx : x.isFinite with
  | true =>
    obtain ⟨y, hreads, hback⟩ := Value.readsAs_float hx
    exact ⟨_, hreads, fun _ ↦ ⟨y, rfl, hback⟩, nofun⟩
  | false => exact ⟨_, Value.readsAs_float_of_not_isFinite hx, nofun, fun _ _ ↦ nofun⟩

/-- **A summary is read back if its sum is finite.** -/
theorem IsSound.exists_isReadAs (h : s.IsSound) : ∃ n, s.IsReadAs n := by
  obtain ⟨number, hcount, hfits, hgreat⟩ := Value.readsAs_natural s.count
  obtain ⟨nmin, hmin, hminOk, -⟩ := exists_readsAs_float s.min
  obtain ⟨nmax, hmax, hmaxOk, -⟩ := exists_readsAs_float s.max
  obtain ⟨nsum, hsum, hsumOk, hsumNone⟩ := exists_readsAs_float s.sum
  obtain ⟨nmean, hmean, hmeanOk, -⟩ := exists_readsAs_float s.mean
  obtain ⟨nlast, hlast, hlastOk⟩ := decodes_timestamp s.last
  refine ⟨node (.number number) nmin nmax nsum nmean nlast, ?_, fun hfinite hlt ↦ ?_, ?_⟩
  · exact Value.readsAs_object <| .cons ⟨rfl, hcount⟩ <| .cons ⟨rfl, hmin⟩ <|
      .cons ⟨rfl, hmax⟩ <| .cons ⟨rfl, hsum⟩ <| .cons ⟨rfl, hmean⟩ <| .cons ⟨rfl, hlast⟩ .nil
  · obtain ⟨min, hminOk, hminBack⟩ := hminOk h.min
    obtain ⟨max, hmaxOk, hmaxBack⟩ := hmaxOk h.max
    obtain ⟨sum, hsumOk, hsumBack⟩ := hsumOk hfinite
    obtain ⟨mean, hmeanOk, hmeanBack⟩ := hmeanOk (h.mean hfinite hlt)
    have hcountOk : natural (.number number) = .ok s.count := by
      rw [hfits (Nat.le_pred_of_lt hlt)]
      rfl
    exact ⟨⟨s.count, min, max, sum, mean, s.last⟩,
      decoder_node_eq_ok_iff.2 ⟨hcountOk, hminOk, hmaxOk, hsumOk, hmeanOk, hlastOk⟩,
      ⟨rfl, hminBack, hmaxBack, hsumBack, hmeanBack, rfl⟩⟩
  · rintro hrefused s' hok
    obtain ⟨hcountOk, -, -, hsumOk, -, -⟩ := decoder_node_eq_ok_iff.1 hok
    obtain hinfinite | hge := hrefused
    · exact hsumNone hinfinite _ hsumOk
    · exact hgreat (Nat.lt_of_lt_of_le (by decide) hge) s'.count (eq_natural_of_ok hcountOk)

end Summary

/-! ### Aggregators -/

namespace Aggregator

variable {a : Aggregator}

/-- Every summary is of finite samples. -/
def IsSound (a : Aggregator) : Prop :=
  ∀ key s, a.snapshot.get? key = some s → s.IsSound

theorem isSound_empty : empty.IsSound := by
  intro key s hs
  have hnone : empty.snapshot.get? key = none := rfl
  rw [hnone] at hs
  cases hs

/-- A finite sample leaves every summary sound. -/
theorem IsSound.ingest (h : a.IsSound) {x : Sample} (hx : x.value.isFinite = true)
    (now : Timestamp) : (a.ingest x now).2.IsSound := by
  intro key s hs
  rw [get?_ingest] at hs
  split_ifs at hs
  · obtain rfl := Option.some.inj hs
    show (roll (a.snapshot.get? x.key) x.value (x.timestamp.getD now)).IsSound
    cases hbefore : a.snapshot.get? x.key with
    | none => exact Summary.isSound_first hx _
    | some before => exact (h _ _ hbefore).record hx _
  · exact h key s hs

end Aggregator

end Conveyor.Metrics
