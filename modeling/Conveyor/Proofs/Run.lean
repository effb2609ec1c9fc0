import Conveyor.Record

/-!
# Runs of machines

The pipeline, the pool and the service are machines of one kind: an action is possible in a state or
not, and if it is, it leads to another state and says what happened as a list of notes. `Runs act`
is a run of such a machine as an inductive relation.

## A run grows at its end

Each machine runs its actions from the first to the last, but what is shown about runs is shown by
looking at the *last* action, with the whole run before it at hand. So `Runs` is built up at the
end, and `Runs.iff_of_eqns` says once that this comes to the same.

## What can be read off a run

`extract` gathers what the notes of a history say. `collect` gathers what is read off each moment of
a run, the state and the action in it, and knows nothing of notes. That the answers of a machine and
the notes of its history tell the same story is `Runs.collect_eq`. `recordsOf` picks the records of
one kind out of the log.

## How a run ends

A machine comes to rest if each of its steps takes something of a weight: no sequence of steps is
longer than the weight allows (`Runs.weight_add_le`), and some sequence cannot be continued
(`exists_rest`).
-/

namespace Conveyor

variable {S A N B : Type}

/-- A run of the machine `act` from the state `start`: its actions, the state after them and the
notes of what happened. -/
inductive Runs (act : S → A → Option (S × List N)) (start : S) : List A → S → List N → Prop where
  /-- Nothing was done. -/
  | refl : Runs act start [] start []
  /-- After a run one more action was possible. -/
  | tail {as : List A} {s : S} {notes : List N} {a : A} {t : S} {new : List N}
      (run : Runs act start as s notes) (act_eq : act s a = some (t, new)) :
      Runs act start (as ++ [a]) t (notes ++ new)

/-- What the notes of a history say, in order. -/
def extract (say : N → Option B) (notes : List N) : List B := notes.filterMap say

section Extract

variable (say : N → Option B)

@[simp] theorem extract_nil : extract say [] = [] := rfl

@[simp] theorem extract_cons (n : N) (notes : List N) :
    extract say (n :: notes) = (say n).toList ++ extract say notes := by
  cases h : say n <;> simp [extract, h]

@[simp] theorem extract_append (notes later : List N) :
    extract say (notes ++ later) = extract say notes ++ extract say later :=
  List.filterMap_append

variable {say}

/-- Later notes that say nothing add nothing. -/
theorem extract_append_of_silent {notes later : List N} (h : extract say later = []) :
    extract say (notes ++ later) = extract say notes := by
  rw [extract_append, h, List.append_nil]

/-- Notes that say all of something. -/
theorem extract_map_eq_self {note : B → N} (h : ∀ b, say (note b) = some b) (bs : List B) :
    extract say (bs.map note) = bs := by
  have hsay : say ∘ note = some := funext h
  rw [extract, List.filterMap_map, hsay, List.filterMap_some]

/-- Notes that say nothing. -/
theorem extract_map_eq_nil {C : Type} {note : C → N} (h : ∀ c, say (note c) = none)
    (cs : List C) : extract say (cs.map note) = [] := by
  refine List.filterMap_eq_nil_iff.2 fun n hn ↦ ?_
  obtain ⟨c, -, rfl⟩ := List.mem_map.1 hn
  exact h c

/-- Where a note says something just when it is made of it, these notes tell what is said. -/
theorem mem_extract_iff {note : B → N} (h : ∀ {n b}, say n = some b ↔ n = note b)
    {notes : List N} {b : B} : b ∈ extract say notes ↔ note b ∈ notes := by
  rw [extract, List.mem_filterMap]
  constructor
  · rintro ⟨n, hn, hsay⟩
    exact h.1 hsay ▸ hn
  · exact fun hn ↦ ⟨_, hn, h.2 rfl⟩

/-- Where all that is said is different, what a note says tells which note it is. -/
theorem eq_of_nodup_extract {notes : List N} (h : (extract say notes).Nodup) {m n : N} {b : B}
    (hm : m ∈ notes) (hn : n ∈ notes) (hmb : say m = some b) (hnb : say n = some b) : m = n := by
  induction notes with
  | nil => exact absurd hm List.not_mem_nil
  | cons k notes ih =>
    rw [extract_cons, List.nodup_append] at h
    obtain ⟨-, hlater, hother⟩ := h
    have hfirst {x : N} (hx : x ∈ notes) (hk : say k = some b) (hxb : say x = some b) : False := by
      refine hother b ?_ b (List.mem_filterMap.2 ⟨x, hx, hxb⟩) rfl
      rw [hk]
      exact List.mem_singleton_self b
    rcases List.mem_cons.1 hm with rfl | hm' <;> rcases List.mem_cons.1 hn with rfl | hn'
    · rfl
    · exact (hfirst hn' hmb hnb).elim
    · exact (hfirst hm' hnb hmb).elim
    · exact ih hlater hm' hn'

end Extract

/-- The records about a history that have this message, in order. -/
def recordsOf (records : N → List Record) (message : String) (notes : List N) : List Record :=
  (notes.flatMap records).filter (·.message == message)

/-- Where a note leaves a record with this message just when it says something, these records tell
what a history says. -/
theorem recordsOf_eq_map {records : N → List Record} {message : String} {say : N → Option B}
    {record : B → Record}
    (h : ∀ n, (records n).filter (·.message == message) = (say n).toList.map record)
    (notes : List N) : recordsOf records message notes = (extract say notes).map record := by
  induction notes with
  | nil => rfl
  | cons n notes ih =>
    rw [recordsOf] at ih ⊢
    rw [List.flatMap_cons, List.filter_append, h, ih, extract_cons, List.map_append]

/-- What is said is `b`, once and not before `p` is so. -/
structure Once (p : Prop) (b : B) (said : List B) : Prop where
  /-- It is said once. -/
  told : p → said = [b]
  /-- Nothing is said before. -/
  silent : ¬p → said = []

namespace Once

variable {p q : Prop} {b c : B} {said : List B}

/-- Something else is so from the same time on. -/
theorem of_iff (h : Once p b said) (hiff : q ↔ p) : Once q b said :=
  ⟨fun hq ↦ h.told (hiff.1 hq), fun hq ↦ h.silent (mt hiff.2 hq)⟩

/-- Nothing is said as long as it is not so. -/
theorem of_not (h : Once p b said) (hp : ¬p) (hq : ¬q) : Once q c said :=
  ⟨fun h ↦ absurd h hq, fun _ ↦ h.silent hp⟩

/-- It is said when it comes to be so. -/
theorem of_now (h : Once p b said) (hp : ¬p) (hq : q) : Once q c (said ++ [c]) :=
  ⟨fun _ ↦ by rw [h.silent hp, List.nil_append], fun h ↦ absurd hq h⟩

/-- At most one thing is said. -/
theorem length_le_one (h : Once p b said) : said.length ≤ 1 := by
  by_cases hp : p
  · exact Nat.le_of_eq (congrArg List.length (h.told hp))
  · rw [h.silent hp]
    exact Nat.zero_le 1

end Once

/-- What `read` finds at the moments of a run, in order. -/
def collect (act : S → A → Option (S × List N)) (read : S → A → List B) : S → List A → List B
  | _, [] => []
  | s, a :: as =>
    read s a ++
      match act s a with
      | some (t, _) => collect act read t as
      | none => []

/-- What is read off a part of the actions comes first when more of them are done. -/
theorem collect_isPrefix (act : S → A → Option (S × List N)) (read : S → A → List B) (s : S)
    (as bs : List A) : collect act read s as <+: collect act read s (as ++ bs) := by
  induction as generalizing s with
  | nil => exact List.nil_prefix
  | cons a as ih =>
    rw [List.cons_append, collect, collect, List.prefix_append_right_inj]
    rcases act s a with - | ⟨t, new⟩
    · exact List.prefix_refl _
    · exact ih t

/-- Where nothing is found at any moment, nothing is found in a run. -/
theorem collect_eq_nil {act : S → A → Option (S × List N)} {read : S → A → List B} {as : List A}
    (h : ∀ s, ∀ a ∈ as, read s a = []) (s : S) : collect act read s as = [] := by
  induction as generalizing s with
  | nil => rfl
  | cons a as ih =>
    have hlater := ih fun s b hb ↦ h s b (List.mem_cons_of_mem _ hb)
    rw [collect, h s a List.mem_cons_self, List.nil_append]
    split
    · exact hlater _
    · rfl

/-- What is made of the findings at each moment is made of all of them together. -/
theorem collect_comp {C : Type} (act : S → A → Option (S × List N)) (read : S → A → List B)
    {f : List B → List C} (hnil : f [] = []) (happend : ∀ xs ys, f (xs ++ ys) = f xs ++ f ys)
    (s : S) (as : List A) :
    collect act (fun s a ↦ f (read s a)) s as = f (collect act read s as) := by
  induction as generalizing s with
  | nil => exact hnil.symm
  | cons a as ih =>
    rw [collect, collect, happend]
    rcases act s a with - | ⟨t, new⟩
    · exact congrArg _ hnil.symm
    · exact congrArg _ (ih t)

namespace Runs

variable {act : S → A → Option (S × List N)} {s t u : S} {a : A} {as bs : List A}
  {notes later new : List N}

/-- A run of one action. -/
theorem single (h : act s a = some (t, new)) : Runs act s [a] t new :=
  .tail .refl h

/-- Two runs, one after the other. -/
theorem trans (h : Runs act s as t notes) (h' : Runs act t bs u later) :
    Runs act s (as ++ bs) u (notes ++ later) := by
  induction h' with
  | refl => simpa using h
  | tail _ act_eq ih =>
    rw [← List.append_assoc, ← List.append_assoc]
    exact ih.tail act_eq

/-- A run without actions. -/
theorem nil_iff : Runs act s [] t notes ↔ t = s ∧ notes = [] := by
  constructor
  · generalize has : ([] : List A) = as
    intro h
    cases h with
    | refl => exact ⟨rfl, rfl⟩
    | tail => simp at has
  · rintro ⟨rfl, rfl⟩
    exact .refl

/-- A run that begins with an action. -/
theorem cons_iff :
    Runs act s (a :: as) u notes ↔
      ∃ t new later, act s a = some (t, new) ∧ Runs act t as u later ∧ notes = new ++ later := by
  constructor
  · generalize has : a :: as = bs
    intro h
    induction h generalizing as with
    | refl => simp at has
    | @tail bs v notes b w new run act_eq ih =>
      rcases as with - | ⟨a', as⟩
      · obtain ⟨rfl, rfl⟩ : bs = [] ∧ b = a := by
          rcases bs with - | ⟨c, cs⟩ <;> simp_all
        obtain ⟨rfl, rfl⟩ := nil_iff.1 run
        exact ⟨w, new, [], act_eq, .refl, by simp⟩
      · obtain ⟨cs, rfl, hcs⟩ : ∃ cs, bs = a :: cs ∧ a' :: as = cs ++ [b] := by
          rcases bs with - | ⟨c, cs⟩
          · simp at has
          · exact ⟨cs, by simp_all, by simp_all⟩
        obtain ⟨x, first, rest, hfirst, hrest, rfl⟩ := ih rfl
        exact ⟨x, first, rest ++ new, hfirst, hcs ▸ hrest.tail act_eq, by simp⟩
  · rintro ⟨t, new, later, h, hrun, rfl⟩
    exact (single h).trans hrun

/-- A run that is cut in two. -/
theorem append_iff :
    Runs act s (as ++ bs) u notes ↔
      ∃ t first rest, Runs act s as t first ∧ Runs act t bs u rest ∧ notes = first ++ rest := by
  constructor
  · intro h
    induction as generalizing s notes with
    | nil => exact ⟨s, [], notes, .refl, h, rfl⟩
    | cons a as ih =>
      obtain ⟨v, new, later, hact, hrun, rfl⟩ := cons_iff.1 h
      obtain ⟨t, first, rest, hfirst, hrest, rfl⟩ := ih hrun
      exact ⟨t, new ++ first, rest, (single hact).trans hfirst, hrest, by simp⟩
  · rintro ⟨t, first, rest, hfirst, hrest, rfl⟩
    exact hfirst.trans hrest

/-- A function that runs the actions from the first to the last finds exactly the runs. -/
theorem iff_of_eqns {run : S → List A → Option (S × List N)} (hnil : ∀ s, run s [] = some (s, []))
    (hcons : ∀ s a as, run s (a :: as) =
      (act s a).bind fun p ↦ (run p.1 as).map fun q ↦ (q.1, p.2 ++ q.2)) :
    run s as = some (t, notes) ↔ Runs act s as t notes := by
  induction as generalizing s t notes with
  | nil =>
    rw [hnil, nil_iff, Option.some.injEq, Prod.mk.injEq, eq_comm, eq_comm (a := notes)]
  | cons a as ih =>
    rw [hcons, cons_iff]
    simp only [Option.bind_eq_some_iff, Option.map_eq_some_iff, Prod.exists, Prod.mk.injEq, ih]
    constructor
    · rintro ⟨x, new, hact, y, later, hrun, rfl, rfl⟩
      exact ⟨x, new, later, hact, hrun, rfl⟩
    · rintro ⟨x, new, later, hact, hrun, rfl⟩
      exact ⟨x, new, hact, t, later, hrun, rfl, rfl⟩

/-- What is read off a longer run begins with what is read off the run before. -/
theorem collect_append (read : S → A → List B) (h : Runs act s as t notes) :
    collect act read s (as ++ bs) = collect act read s as ++ collect act read t bs := by
  induction as generalizing s notes with
  | nil =>
    obtain ⟨rfl, rfl⟩ := nil_iff.1 h
    rfl
  | cons a as ih =>
    obtain ⟨v, new, later, hact, hrun, rfl⟩ := cons_iff.1 h
    simp only [List.cons_append, collect, hact, ih hrun, List.append_assoc]

/-- What is read off a run with one more action. -/
theorem collect_concat (read : S → A → List B) (h : Runs act s as t notes) :
    collect act read s (as ++ [a]) = collect act read s as ++ read t a := by
  rw [h.collect_append]
  simp only [collect]
  split <;> simp

/-- If reading off a moment gives what `f` makes of the notes of its action, then reading off a
run gives what it makes of the history. -/
theorem collect_eq_of_append {read : S → A → List B} {f : List N → List B} (hnil : f [] = [])
    (happend : ∀ notes later, f (notes ++ later) = f notes ++ f later)
    (hread : ∀ {as t notes a u new}, Runs act s as t notes → act t a = some (u, new) →
      read t a = f new)
    (h : Runs act s as t notes) : collect act read s as = f notes := by
  induction h with
  | refl => exact hnil.symm
  | tail run act_eq ih =>
    rw [run.collect_concat, ih, happend, ← hread run act_eq]

/-- The same, where something is made of each finding. -/
theorem map_collect_eq {C : Type} {read : S → A → List B} {g : B → C} {f : List N → List C}
    (hnil : f [] = []) (happend : ∀ notes later, f (notes ++ later) = f notes ++ f later)
    (hread : ∀ {as t notes a u new}, Runs act s as t notes → act t a = some (u, new) →
      (read t a).map g = f new)
    (h : Runs act s as t notes) : (collect act read s as).map g = f notes := by
  rw [← collect_comp act read List.map_nil fun _ _ ↦ List.map_append]
  exact h.collect_eq_of_append hnil happend hread

/-- If reading off a moment gives what the notes of its action say, then reading off a run gives
what its history says. -/
theorem collect_eq {read : S → A → List B} {say : N → Option B}
    (hread : ∀ {as t notes a u new}, Runs act s as t notes → act t a = some (u, new) →
      read t a = extract say new)
    (h : Runs act s as t notes) : collect act read s as = extract say notes :=
  h.collect_eq_of_append rfl (extract_append say) hread

/-! ### Coming to rest -/

section Rest

variable {X : Type} {f : X → A} {inv : S → Prop} {weight : S → Nat}

/-- Where each step takes something of the weight, a sequence of steps takes something for each of
them. -/
theorem weight_add_le (hstep : ∀ {s x t new}, inv s → act s (f x) = some (t, new) →
      inv t ∧ weight t < weight s) {xs : List X} (h : Runs act s (xs.map f) t notes) (hs : inv s) :
    weight t + xs.length ≤ weight s := by
  induction xs generalizing s notes with
  | nil =>
    obtain ⟨rfl, -⟩ := nil_iff.1 h
    exact Nat.le_refl _
  | cons x xs ih =>
    obtain ⟨u, new, later, hact, hruns, -⟩ := cons_iff.1 h
    obtain ⟨hu, hless⟩ := hstep hs hact
    have hrest := ih hruns hu
    rw [List.length_cons]
    omega

end Rest

end Runs

/-- Where each step takes something of the weight, steps can follow one another until none is
possible. -/
theorem exists_rest {X : Type} {f : X → A} {inv : S → Prop} {weight : S → Nat}
    (act : S → A → Option (S × List N))
    (hstep : ∀ {s x t new}, inv s → act s (f x) = some (t, new) → inv t ∧ weight t < weight s)
    {s : S} (hs : inv s) :
    ∃ (xs : List X) (t : S) (notes : List N),
      Runs act s (xs.map f) t notes ∧ ∀ x, act t (f x) = none := by
  by_cases hrest : ∀ x, act s (f x) = none
  · exact ⟨[], s, [], .refl, hrest⟩
  · obtain ⟨x, hpossible⟩ := Classical.not_forall.1 hrest
    obtain ⟨⟨u, new⟩, hact⟩ := Option.ne_none_iff_exists'.1 hpossible
    obtain ⟨hu, hless⟩ := hstep hs hact
    obtain ⟨xs, t, later, hruns, hend⟩ := exists_rest act hstep hu
    exact ⟨x :: xs, t, new ++ later, (Runs.single hact).trans hruns, hend⟩
termination_by weight s

end Conveyor
