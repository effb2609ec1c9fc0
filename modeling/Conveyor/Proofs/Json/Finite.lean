import Conveyor.Proofs.Json.Scaling
import Conveyor.Proofs.Json.Submissions

/-!
# Numbers that are read are finite

A number above the greatest double has no value, so no text makes the reader come upon an infinite
double or one that is no number. `Node.IsFinite` says this of a whole tree. The reader is a machine
with a stack, so the tree is accounted for in pieces: one step keeps every piece finite
(`Reading.IsFinite.step`), and so does a whole text (`Document.isFinite_ofBytes`).

What a decoder of records puts into a draft it takes from the tree. `Decoder.record_induction` is
the rule by which something that is true of all values in a tree is carried over to the draft.
-/

namespace Conveyor.Json

open Double

variable {n : ℕ} {ds : List Char} {t : NumberText} {node : Node} {x : Float} {lexeme : Lexeme}
  {r : Reading} {s rest : List Symbol}

/-! ### Numbers -/

theorem gather_fst_le (hn : n ≤ maxSignificand) : (gather n ds).1 ≤ maxSignificand := by
  induction ds generalizing n with
  | nil => exact hn
  | cons d ds ih =>
    rw [gather]
    split
    case isTrue hnext => exact ih hnext
    case isFalse => exact hn

/-- The number is finite as a double. -/
def Number.IsFinite (number : Number) : Prop :=
  number.toFloat.isFinite = true

theorem isFinite_ofNat (h : n ≤ maxSignificand) : (Float.ofNat n).isFinite = true := by
  obtain ⟨a, ha, -⟩ := exists_denotes_ofNat (h.trans_lt (by decide))
  exact ha.isFinite

theorem isFinite_neg (h : x.isFinite = true) : (-x).isFinite = true := by
  obtain ⟨s, a, ha⟩ := exists_denotes h
  exact ha.neg.isFinite

namespace NumberText

theorem scaled_fst_le (t : NumberText) : t.scaled.1 ≤ maxSignificand := by
  have hwhole : (gather 0 t.whole).1 ≤ maxSignificand := gather_fst_le (Nat.zero_le _)
  rw [scaled]
  generalize gather 0 t.whole = whole at hwhole ⊢
  cases t.fraction with
  | none => exact hwhole
  | some ds => exact gather_fst_le hwhole

theorem isFinite_of_magnitude? (h : t.magnitude? = some x) : x.isFinite = true := by
  have hlt : t.scaled.1 < 2 ^ 64 := t.scaled_fst_le.trans_lt (by decide)
  rw [magnitude?] at h
  dsimp only at h
  split at h
  case h_1 => exact isFinite_of_scale? hlt h
  case h_2 =>
    split_ifs at h
    · obtain rfl := Option.some.inj h
      rfl
    all_goals exact isFinite_of_scale? hlt h

theorem isFinite_of_real? {number : Number} (h : t.real? = some number) : number.IsFinite := by
  rw [real?, Option.map_eq_some_iff] at h
  obtain ⟨x, hx, rfl⟩ := h
  have hfinite := isFinite_of_magnitude? hx
  show (if t.negated then -x else x).isFinite = true
  split
  case isTrue => exact isFinite_neg hfinite
  case isFalse => exact hfinite

/-- Every number that has a value is finite. -/
theorem isFinite_of_value? {number : Number} (h : t.value? = some number) : number.IsFinite := by
  have hle : (gather 0 t.whole).1 ≤ maxSignificand := gather_fst_le (Nat.zero_le _)
  rw [value?] at h
  split at h
  case h_1 =>
    split at h
    case h_1 n hgather =>
      rw [hgather] at hle
      split_ifs at h
      · obtain rfl := Option.some.inj h
        exact isFinite_ofNat hle
      · obtain rfl := Option.some.inj h
        exact isFinite_neg (isFinite_ofNat hle)
      · obtain rfl := Option.some.inj h
        exact isFinite_neg (isFinite_ofNat hle)
    case h_2 => exact isFinite_of_real? h
  case h_2 => exact isFinite_of_real? h

end NumberText

/-! ### Lexemes -/

/-- The lexeme is no number, or one that is finite. -/
def Lexeme.IsFinite (lexeme : Lexeme) : Prop :=
  ∀ number, lexeme = .number (some number) → number.IsFinite

theorem Lexeme.isFinite_number {n : Option Number} (h : ∀ number ∈ n, number.IsFinite) :
    (Lexeme.number n).IsFinite :=
  fun number heq ↦ h number (Lexeme.number.inj heq)

theorem isFinite_lexemeFrom (c : Char) (rest : List Symbol) : (lexemeFrom c rest).1.IsFinite := by
  unfold lexemeFrom
  repeat' split
  all_goals first
    | exact Lexeme.isFinite_number fun _ h ↦ NumberText.isFinite_of_value? h
    | exact nofun

theorem isFinite_of_nextLexeme? (h : nextLexeme? s = some (lexeme, rest)) : lexeme.IsFinite := by
  rw [nextLexeme?] at h
  split at h
  case h_1 => cases h
  case h_2 =>
    obtain ⟨rfl, rfl⟩ := Prod.mk.inj (Option.some.inj h)
    intro number heq
    cases heq
  case h_3 c others _ =>
    have hfinite := isFinite_lexemeFrom c others
    rwa [Option.some.inj h] at hfinite

/-! ### Trees -/

/-- All numbers in the tree are finite. -/
inductive Node.IsFinite : Node → Prop where
  /-- There is no number. -/
  | null : IsFinite .null
  /-- There is no number. -/
  | bool (b : Bool) : IsFinite (.bool b)
  /-- The number is finite. -/
  | number {n : Option Number} (h : ∀ number ∈ n, number.IsFinite) : IsFinite (.number n)
  /-- There is no number. -/
  | string (s : Option String) : IsFinite (.string s)
  /-- All elements are finite. -/
  | array {elements : List Node} (h : ∀ node ∈ elements, node.IsFinite) (closed : Bool) :
    IsFinite (.array elements closed)
  /-- All values are finite. -/
  | object {members : List (Option String × Node)} (h : ∀ member ∈ members, member.2.IsFinite)
    (closed : Bool) : IsFinite (.object members closed)
  /-- There is no number. -/
  | broken : IsFinite .broken

/-- All numbers in an open container are finite. -/
def Frame.IsFinite : Frame → Prop
  | array done => ∀ node ∈ done, node.IsFinite
  | object done _ => ∀ member ∈ done, member.2.IsFinite

/-- All numbers that have been read are finite. -/
def Reading.IsFinite : Reading → Prop
  | value stack => ∀ frame ∈ stack, frame.IsFinite
  | first stack => ∀ frame ∈ stack, frame.IsFinite
  | key _ done stack => (∀ member ∈ done, member.2.IsFinite) ∧ ∀ frame ∈ stack, frame.IsFinite
  | colon done _ stack => (∀ member ∈ done, member.2.IsFinite) ∧ ∀ frame ∈ stack, frame.IsFinite
  | after n stack => n.IsFinite ∧ ∀ frame ∈ stack, frame.IsFinite
  | halted n => n.IsFinite

theorem Node.isFinite_array {done : List Node} (hn : node.IsFinite)
    (h : ∀ node ∈ done, node.IsFinite) (closed : Bool) :
    (Node.array (node :: done).reverse closed).IsFinite :=
  .array (fun x hx ↦ List.forall_mem_cons.2 ⟨hn, h⟩ x (List.mem_reverse.1 hx)) closed

theorem Node.isFinite_object {done : List (Option String × Node)} (hn : node.IsFinite)
    (h : ∀ member ∈ done, member.2.IsFinite) (key : Option String) (closed : Bool) :
    (Node.object ((key, node) :: done).reverse closed).IsFinite :=
  .object (fun x hx ↦ List.forall_mem_cons (p := fun member ↦ member.2.IsFinite).2 ⟨hn, h⟩ x
    (List.mem_reverse.1 hx)) closed

theorem Frame.IsFinite.cut {frame : Frame} (h : frame.IsFinite) (hn : node.IsFinite) :
    (frame.cut node).IsFinite := by
  cases frame with
  | array done => exact Node.isFinite_array hn h false
  | object done key => exact Node.isFinite_object hn h key false

namespace Reading

theorem isFinite_unwind {stack : List Frame} (hn : node.IsFinite)
    (h : ∀ frame ∈ stack, frame.IsFinite) : (unwind node stack).IsFinite := by
  induction stack generalizing node with
  | nil => exact hn
  | cons frame stack ih =>
    obtain ⟨hframe, hstack⟩ := List.forall_mem_cons.1 h
    exact ih (hframe.cut hn) hstack

theorem IsFinite.cut (h : r.IsFinite) : r.cut.IsFinite := by
  have hempty : (Frame.array []).IsFinite := List.forall_mem_nil _
  cases r with
  | value stack => exact isFinite_unwind .broken h
  | first stack => exact isFinite_unwind .broken (List.forall_mem_cons.2 ⟨hempty, h⟩)
  | key fresh done stack => exact isFinite_unwind .broken (List.forall_mem_cons.2 h)
  | colon done key stack => exact isFinite_unwind .broken (List.forall_mem_cons.2 h)
  | after n stack => exact isFinite_unwind h.1 h.2
  | halted n => exact h

theorem isFinite_enter {stack : List Frame} (hlexeme : lexeme.IsFinite)
    (h : ∀ frame ∈ stack, frame.IsFinite) : (enter lexeme stack).IsFinite := by
  cases lexeme with
  | null => exact ⟨.null, h⟩
  | bool b => exact ⟨.bool b, h⟩
  | number n => exact ⟨.number fun number hn ↦ hlexeme number (congrArg _ hn), h⟩
  | string s => exact ⟨.string s, h⟩
  | openArray => exact h
  | openObject => exact ⟨List.forall_mem_nil _, h⟩
  | _ => exact isFinite_unwind .broken h

/-- One lexeme more leaves everything finite. -/
theorem IsFinite.step (h : r.IsFinite) (hlexeme : lexeme.IsFinite) : (r.step lexeme).IsFinite := by
  have hempty : (Frame.array []).IsFinite := List.forall_mem_nil _
  have hcut := h.cut
  unfold Reading.step
  split
  case h_1 => exact isFinite_enter hlexeme h
  case h_2 => exact ⟨.array (List.forall_mem_nil _) true, h⟩
  case h_3 => exact isFinite_enter hlexeme (List.forall_mem_cons.2 ⟨hempty, h⟩)
  case h_4 => exact ⟨.object (List.forall_mem_nil _) true, h.2⟩
  case h_5 => exact h
  case h_6 => exact List.forall_mem_cons.2 h
  case h_7 =>
    obtain ⟨hn, hstack⟩ := h
    obtain ⟨hdone, hstack⟩ := List.forall_mem_cons.1 hstack
    exact List.forall_mem_cons.2 ⟨List.forall_mem_cons.2 ⟨hn, hdone⟩, hstack⟩
  case h_8 =>
    obtain ⟨hn, hstack⟩ := h
    obtain ⟨hdone, hstack⟩ := List.forall_mem_cons.1 hstack
    exact ⟨Node.isFinite_array hn hdone true, hstack⟩
  case h_9 =>
    obtain ⟨hn, hstack⟩ := h
    obtain ⟨hdone, hstack⟩ := List.forall_mem_cons.1 hstack
    refine ⟨fun member hmember ↦ ?_, hstack⟩
    obtain rfl | hmember := List.mem_cons.1 hmember
    · exact hn
    · exact hdone member hmember
  case h_10 =>
    obtain ⟨hn, hstack⟩ := h
    obtain ⟨hdone, hstack⟩ := List.forall_mem_cons.1 hstack
    exact ⟨Node.isFinite_object hn hdone _ true, hstack⟩
  case h_11 => exact hcut

theorem IsFinite.finish (h : r.IsFinite) : r.finish.root.IsFinite := by
  unfold Reading.finish
  split
  case h_1 => exact h.1
  case h_2 => exact h.cut

theorem IsFinite.readFrom (h : r.IsFinite) (s : List Symbol) : (readFrom r s).root.IsFinite := by
  fun_induction Reading.readFrom r s with
  | case1 s n => exact h
  | case2 => exact h.finish
  | case3 r s _ lexeme rest hnext ih => exact ih (h.step (isFinite_of_nextLexeme? hnext))

end Reading

/-- Whatever the bytes are, the numbers that are read of them are finite. -/
theorem Document.isFinite_ofBytes (bytes : ByteArray) : (ofBytes bytes).root.IsFinite := by
  have hstart : (Reading.value []).IsFinite := List.forall_mem_nil _
  exact hstart.readFrom (Symbol.ofBytes bytes)

/-! ### Decoders -/

namespace Decoder

variable {σ : Type} {fs : List (Field σ)} {draft last : σ} {P : σ → Prop}

theorem isFinite_of_float (hn : node.IsFinite) (h : float node = .ok x) : x.isFinite = true := by
  cases hn with
  | @number n hn =>
    cases n with
    | none => cases h
    | some number =>
      obtain rfl := Except.ok.inj h
      exact hn number rfl
  | _ => cases h

/-- A field takes what its decoder makes of the value. -/
theorem exists_of_set {α : Type} {name : String} {get : σ → Option α} {put : σ → α → σ}
    {d : Decoder α} (h : (Field.of name get put d).set node draft = .ok last) :
    ∃ a, d node = .ok a ∧ put draft a = last := by
  have hmap : (d node).map (put draft) = .ok last := h
  cases hd : d node with
  | error why =>
    rw [hd] at hmap
    cases hmap
  | ok a =>
    rw [hd] at hmap
    exact ⟨a, rfl, Except.ok.inj hmap⟩

section
variable (hset : ∀ f ∈ fs, ∀ n draft draft', n.IsFinite → P draft → f.set n draft = .ok draft' →
  P draft')
include hset

theorem readMember_induction {member : Option String × Node} (hn : member.2.IsFinite)
    (hP : P draft) (h : readMember fs draft member = .ok last) : P last := by
  rw [readMember, bind_eq_ok_iff] at h
  obtain ⟨k, -, h⟩ := h
  cases hfind : fs.find? (·.name == k) with
  | none =>
    simp only [hfind, closing] at h
    split at h
    case isTrue => exact Except.ok.inj h ▸ hP
    case isFalse => cases h
  | some f =>
    simp only [hfind] at h
    split at h
    case isTrue => cases h
    case isFalse => exact hset f (List.mem_of_find?_eq_some hfind) member.2 draft last hn hP h

theorem foldlM_readMember_induction {members : List (Option String × Node)}
    (hn : ∀ member ∈ members, member.2.IsFinite) (hP : P draft)
    (h : members.foldlM (readMember fs) draft = .ok last) : P last := by
  induction members generalizing draft with
  | nil => exact Except.ok.inj h ▸ hP
  | cons member members ih =>
    rw [List.foldlM_cons, bind_eq_ok_iff] at h
    obtain ⟨next, hfirst, hrest⟩ := h
    obtain ⟨hmember, hn⟩ := List.forall_mem_cons.1 hn
    exact ih hn (readMember_induction hset hmember hP hfirst) hrest

theorem readElements_induction {closed : Bool} {elements : List Node}
    (hn : ∀ node ∈ elements, node.IsFinite) (hP : P draft)
    (h : readElements closed fs elements draft = .ok last) : P last := by
  induction elements generalizing fs draft with
  | nil =>
    rw [readElements, closing] at h
    split at h
    case isTrue => exact Except.ok.inj h ▸ hP
    case isFalse => cases h
  | cons n elements ih =>
    obtain ⟨hfirst, hn⟩ := List.forall_mem_cons.1 hn
    cases fs with
    | nil => cases h
    | cons f fs =>
      rw [readElements, bind_eq_ok_iff] at h
      obtain ⟨next, hnext, hrest⟩ := h
      have hP := hset f List.mem_cons_self n draft next hfirst hP hnext
      exact ih (fun f hf ↦ hset f (List.mem_cons_of_mem _ hf)) hn hP hrest

/-- What every field keeps to when it takes a value is true of the whole draft. -/
theorem record_induction (hn : node.IsFinite) (hP : P draft) (h : record fs draft node = .ok last) :
    P last := by
  cases hn with
  | object hn closed =>
    rw [record, bind_eq_ok_iff] at h
    obtain ⟨next, hmembers, hclosed⟩ := h
    rw [closing] at hclosed
    split at hclosed
    case isTrue => exact Except.ok.inj hclosed ▸ foldlM_readMember_induction hset hn hP hmembers
    case isFalse => cases hclosed
  | array hn closed => exact readElements_induction hset hn hP h
  | _ => cases h

end

end Decoder

end Conveyor.Json
