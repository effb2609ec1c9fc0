import Mathlib.Data.List.Basic
import Conveyor.Text.Quoted

/-!
# Quoted text is read in one way

A quoted text says which text it quotes, and where it ends, whatever comes after it
(`quoteChars_append_inj`). So a map of texts that is shown on one line can be told from every other
map (`quoteFields_inj`), even where its keys and values look like quotes, escapes, colons or commas.

## Why nothing is taken for something else

A character is shown in one of three ways (`ShownAs`). What it is shown as never begins like what
another character is shown as: only an escape begins with a backslash, of the short escapes each has a
letter of its own and none of them a `u`, and the digits of a code point end at a brace, which is no
digit. And nothing begins with a double quote, so the first one that stands where a character could
begin is the end of the text.

Since what is shown has no character in it that would have to be escaped
(`ShownAs.isEscaped_eq_false`), a map is on one line.
-/

namespace Conveyor.Text

/-! ### Digits in base sixteen -/

theorem digitChar_inj {m n : Nat} (hm : m < 16) (hn : n < 16) (h : m.digitChar = n.digitChar) :
    m = n := by
  have hall : ∀ m < 16, ∀ n < 16, Nat.digitChar m = Nat.digitChar n → m = n := by decide
  exact hall m hm n hn h

theorem hexDigits_of_lt {n : Nat} (h : n < 16) : hexDigits n = [n.digitChar] :=
  Nat.toDigits_of_lt_base h

theorem hexDigits_of_le {n : Nat} (h : 16 ≤ n) :
    hexDigits n = hexDigits (n / 16) ++ [(n % 16).digitChar] := by
  rw [hexDigits, hexDigits, Nat.toDigits_eq_if (by decide), if_neg (Nat.not_lt.2 h)]

/-- Two numbers with the same digits are the same. -/
theorem hexDigits_inj {m n : Nat} (h : hexDigits m = hexDigits n) : m = n := by
  have hlong {n : Nat} : hexDigits n ≠ [] := Nat.toDigits_ne_nil
  induction m using Nat.strongRecOn generalizing n with
  | ind m ih =>
    rcases Nat.lt_or_ge m 16 with hm | hm <;> rcases Nat.lt_or_ge n 16 with hn | hn
    · rw [hexDigits_of_lt hm, hexDigits_of_lt hn] at h
      exact digitChar_inj hm hn (List.singleton_inj.1 h)
    · -- One digit is not two or more.
      rw [hexDigits_of_lt hm, hexDigits_of_le hn, ← List.nil_append [m.digitChar]] at h
      exact absurd (List.append_inj' h rfl).1.symm hlong
    · rw [hexDigits_of_le hm, hexDigits_of_lt hn, ← List.nil_append [n.digitChar]] at h
      exact absurd (List.append_inj' h rfl).1 hlong
    · rw [hexDigits_of_le hm, hexDigits_of_le hn] at h
      obtain ⟨hfront, hlast⟩ := List.append_inj' h rfl
      have hquotient : m / 16 = n / 16 := ih (m / 16) (by omega) hfront
      have hremainder : m % 16 = n % 16 :=
        digitChar_inj (Nat.mod_lt m (by decide)) (Nat.mod_lt n (by decide))
          (List.singleton_inj.1 hlast)
      omega

/-- The digits are among sixteen characters. -/
theorem exists_of_mem_hexDigits {n : Nat} {c : Char} (h : c ∈ hexDigits n) :
    ∃ d < 16, c = Nat.digitChar d := by
  induction n using Nat.strongRecOn with
  | ind n ih =>
    rcases Nat.lt_or_ge n 16 with hn | hn
    · rw [hexDigits_of_lt hn, List.mem_singleton] at h
      exact ⟨n, hn, h⟩
    · rw [hexDigits_of_le hn, List.mem_append, List.mem_singleton] at h
      rcases h with hfront | hlast
      · exact ih (n / 16) (by omega) hfront
      · exact ⟨n % 16, Nat.mod_lt n (by decide), hlast⟩

theorem brace_notMem_hexDigits (n : Nat) : '}' ∉ hexDigits n := by
  intro h
  obtain ⟨d, -, hd⟩ := exists_of_mem_hexDigits h
  exact Nat.digitChar_ne '}' (by decide) hd.symm

/-- The digits of a code point end at the brace behind them. -/
theorem hexDigits_append_inj {m n : Nat} {rest rest' : List Char}
    (h : hexDigits m ++ '}' :: rest = hexDigits n ++ '}' :: rest') : m = n ∧ rest = rest' := by
  have hmore {m n : Nat} {more rest rest' : List Char} (hmore : hexDigits n = hexDigits m ++ more)
      (h : '}' :: rest = more ++ '}' :: rest') : m = n ∧ rest = rest' := by
    rcases more with - | ⟨c, more⟩
    · rw [List.append_nil] at hmore
      exact ⟨(hexDigits_inj hmore).symm, (List.cons.inj h).2⟩
    · -- The longer one would have the brace among its digits.
      obtain ⟨rfl, -⟩ := List.cons.inj h
      exact absurd (hmore ▸ List.mem_append_right _ List.mem_cons_self) (brace_notMem_hexDigits n)
  rcases List.append_eq_append_iff.1 h with ⟨more, hn, hrest⟩ | ⟨more, hm, hrest⟩
  · exact hmore hn hrest
  · exact (hmore hm hrest).imp Eq.symm Eq.symm

/-! ### How characters are shown -/

/-- The characters with a short escape, with its letter. -/
def shortEscapes : List (Char × Char) :=
  [('"', '"'), ('\\', '\\'), ('\n', 'n'), ('\r', 'r'), ('\t', 't'), ('\x00', '0')]

theorem shortEscapes_inj :
    ∀ p ∈ shortEscapes, ∀ q ∈ shortEscapes, p.2 = q.2 → p.1 = q.1 := by decide

/-- A character is shown as these. -/
inductive ShownAs (c : Char) : List Char → Prop
  /-- As it is. -/
  | itself (quote : c ≠ '"') (backslash : c ≠ '\\') (plain : isEscaped c = false) : ShownAs c [c]
  /-- By a letter behind a backslash. -/
  | short {letter : Char} (escape : (c, letter) ∈ shortEscapes) : ShownAs c ['\\', letter]
  /-- By its code point. -/
  | codePoint : ShownAs c (['\\', 'u', '{'] ++ hexDigits c.toNat ++ ['}'])

theorem shownAs_quoteChar (c : Char) : ShownAs c (quoteChar c) := by
  rw [quoteChar]
  split_ifs with hquote hbackslash hnewline hreturn htab hnul hescaped
  · exact .short (by rw [hquote]; decide)
  · exact .short (by rw [hbackslash]; decide)
  · exact .short (by rw [hnewline]; decide)
  · exact .short (by rw [hreturn]; decide)
  · exact .short (by rw [htab]; decide)
  · exact .short (by rw [hnul]; decide)
  · exact .codePoint
  · exact .itself hquote hbackslash (Bool.not_eq_true _ ▸ hescaped)

namespace ShownAs

variable {c d : Char} {cs ds rest rest' : List Char}

/-- No character is shown as something that begins with a double quote, or as nothing. -/
theorem exists_cons (h : ShownAs c cs) : ∃ x xs, cs = x :: xs ∧ x ≠ '"' := by
  cases h with
  | itself quote => exact ⟨c, [], rfl, quote⟩
  | short => exact ⟨_, _, rfl, by decide⟩
  | codePoint => exact ⟨_, _, rfl, by decide⟩

/-- What begins with a character that is shown begins with no other. -/
theorem append_inj (hc : ShownAs c cs) (hd : ShownAs d ds) (h : cs ++ rest = ds ++ rest') :
    c = d ∧ rest = rest' := by
  have hletter {c letter : Char} (hmem : (c, letter) ∈ shortEscapes) : letter ≠ 'u' := by
    have hall : ∀ p ∈ shortEscapes, p.2 ≠ 'u' := by decide
    exact hall _ hmem
  cases hc with
  | itself _ backslash =>
    cases hd with
    | itself => exact ⟨(List.cons.inj h).1, (List.cons.inj h).2⟩
    | short => exact absurd (List.cons.inj h).1 backslash
    | codePoint => exact absurd (List.cons.inj h).1 backslash
  | short escape =>
    cases hd with
    | itself _ backslash => exact absurd (List.cons.inj h).1.symm backslash
    | short escape' =>
      obtain ⟨hsame, hrest⟩ := List.cons.inj (List.cons.inj h).2
      exact ⟨shortEscapes_inj _ escape _ escape' hsame, hrest⟩
    | codePoint => exact absurd (List.cons.inj (List.cons.inj h).2).1 (hletter escape)
  | codePoint =>
    cases hd with
    | itself _ backslash => exact absurd (List.cons.inj h).1.symm backslash
    | short escape => exact absurd (List.cons.inj (List.cons.inj h).2).1.symm (hletter escape)
    | codePoint =>
      have hdigits : hexDigits c.toNat ++ '}' :: rest = hexDigits d.toNat ++ '}' :: rest' := by
        simpa using h
      exact (hexDigits_append_inj hdigits).imp_left Char.toNat_inj.1

/-- What a character is shown as has no character in it that would have to be escaped. -/
theorem isEscaped_eq_false (h : ShownAs c cs) {x : Char} (hx : x ∈ cs) : isEscaped x = false := by
  have hletter : ∀ p ∈ shortEscapes, isEscaped p.2 = false := by decide
  have hdigit : ∀ d < 16, isEscaped (Nat.digitChar d) = false := by decide
  -- Characters are finitely many, so `decide` on its own would go through all of them.
  have hmarks : ∀ x ∈ ['\\', 'u', '{', '}'], isEscaped x = false := by
    simp only [List.forall_mem_cons, List.not_mem_nil, false_imp_iff, implies_true]
    decide
  cases h with
  | itself _ _ plain => exact List.mem_singleton.1 hx ▸ plain
  | @short letter escape =>
    rcases List.mem_pair.1 hx with rfl | rfl
    · exact hmarks _ (by decide)
    · exact hletter _ escape
  | codePoint =>
    rcases List.mem_append.1 hx with hfront | hbrace
    · rcases List.mem_append.1 hfront with hmark | hmem
      · exact hmarks x (List.mem_append_left ['}'] hmark)
      · obtain ⟨d, hd, rfl⟩ := exists_of_mem_hexDigits hmem
        exact hdigit d hd
    · rw [List.mem_singleton.1 hbrace]
      exact hmarks _ (by decide)

end ShownAs

/-! ### Quoted texts -/

/-- A text that is quoted up to a double quote is told by its characters. -/
theorem flatMap_quoteChar_inj {xs ys rest rest' : List Char}
    (h : xs.flatMap quoteChar ++ '"' :: rest = ys.flatMap quoteChar ++ '"' :: rest') :
    xs = ys ∧ rest = rest' := by
  induction xs generalizing ys with
  | nil =>
    rcases ys with - | ⟨y, ys⟩
    · exact ⟨rfl, (List.cons.inj h).2⟩
    · obtain ⟨c, cs, hshown, hc⟩ := (shownAs_quoteChar y).exists_cons
      rw [List.flatMap_cons, hshown] at h
      exact absurd (List.cons.inj h).1.symm hc
  | cons x xs ih =>
    rcases ys with - | ⟨y, ys⟩
    · obtain ⟨c, cs, hshown, hc⟩ := (shownAs_quoteChar x).exists_cons
      rw [List.flatMap_cons, hshown] at h
      exact absurd (List.cons.inj h).1 hc
    · rw [List.flatMap_cons, List.flatMap_cons, List.append_assoc, List.append_assoc] at h
      obtain ⟨rfl, hbehind⟩ := (shownAs_quoteChar x).append_inj (shownAs_quoteChar y) h
      obtain ⟨rfl, hrest⟩ := ih hbehind
      exact ⟨rfl, hrest⟩

/-- A quoted text says which text it quotes, and where it ends. -/
theorem quoteChars_append_inj {xs ys rest rest' : List Char}
    (h : quoteChars xs ++ rest = quoteChars ys ++ rest') : xs = ys ∧ rest = rest' := by
  refine flatMap_quoteChar_inj ?_
  simpa [quoteChars] using h

/-- An entry says which key and which value it shows, and where it ends. -/
theorem quoteEntry_append_inj {e f : String × String} {rest rest' : List Char}
    (h : quoteEntry e ++ rest = quoteEntry f ++ rest') : e = f ∧ rest = rest' := by
  rw [quoteEntry, quoteEntry, List.append_assoc, List.append_assoc, List.append_assoc,
    List.append_assoc] at h
  obtain ⟨hkey, hbehind⟩ := quoteChars_append_inj h
  obtain ⟨hvalue, hrest⟩ := quoteChars_append_inj (List.append_cancel_left hbehind)
  exact ⟨Prod.ext (String.toList_inj.1 hkey) (String.toList_inj.1 hvalue), hrest⟩

/-- What follows the first of some entries: the others behind a comma, or the brace at the end. -/
def quoteRest : List (String × String) → List Char
  | [] => ['}']
  | e :: es => [',', ' '] ++ (quoteEntries (e :: es) ++ ['}'])

theorem quoteEntries_cons (e : String × String) (es : List (String × String)) :
    quoteEntries (e :: es) ++ ['}'] = quoteEntry e ++ quoteRest es := by
  cases es with
  | nil => rfl
  | cons e' es =>
    rw [quoteEntries, quoteRest, List.append_assoc, List.append_assoc]
    exact List.cons_ne_nil e' es

/-- Entries between braces are told by what is shown of them. -/
theorem quoteEntries_inj {es fs : List (String × String)}
    (h : quoteEntries es ++ ['}'] = quoteEntries fs ++ ['}']) : es = fs := by
  have hnone {e : String × String} {es : List (String × String)} :
      quoteEntries [] ++ ['}'] ≠ quoteEntries (e :: es) ++ ['}'] := by
    rw [quoteEntries_cons]
    exact fun h ↦ absurd (List.cons.inj h).1 (by decide)
  induction es generalizing fs with
  | nil =>
    rcases fs with - | ⟨f, fs⟩
    · rfl
    · exact absurd h hnone
  | cons e es ih =>
    rcases fs with - | ⟨f, fs⟩
    · exact absurd h.symm hnone
    · rw [quoteEntries_cons, quoteEntries_cons] at h
      obtain ⟨rfl, hrest⟩ := quoteEntry_append_inj h
      rcases es with - | ⟨e', es⟩ <;> rcases fs with - | ⟨f', fs⟩
      · rfl
      · exact absurd (List.cons.inj hrest).1 (by decide)
      · exact absurd (List.cons.inj hrest).1 (by decide)
      · rw [ih (List.append_cancel_left hrest)]

/-- A map is told by how it is shown. -/
theorem quoteFields_inj {d e : Dict String} (h : quoteFields d = quoteFields e) : d = e := by
  have hchars := String.ofList_inj.1 h
  exact Dict.ext (quoteEntries_inj (List.cons.inj hchars).2)

/-! ### On one line -/

/-- The character is a control of ASCII. -/
def isControl (c : Char) : Bool :=
  c.toNat < 0x20 || c.toNat == 0x7F

/-- The character breaks a line, in ASCII or beyond. -/
def isLineBreak (c : Char) : Bool :=
  (0x0A ≤ c.toNat && c.toNat ≤ 0x0D) || c.toNat == 0x85 || c.toNat == 0x2028 || c.toNat == 0x2029

/-- Controls and line breaks have to be escaped. -/
theorem isPlain_of_isEscaped_eq_false {c : Char} (h : isEscaped c = false) :
    isControl c = false ∧ isLineBreak c = false := by
  have hranges : ∀ n ∈ [0x7F, 0x85, 0x2028, 0x2029],
      ¬n < 0x7F ∧ escapeRanges.contains n = true := by decide +kernel
  have hlow : ¬c.toNat < 0x20 := by
    intro hlow
    have hbound : c.toNat < 0x7F := Nat.lt_trans hlow (by decide)
    simp [isEscaped, hbound, hlow] at h
  have hother : ∀ n ∈ [0x7F, 0x85, 0x2028, 0x2029], c.toNat ≠ n := by
    intro n hn heq
    obtain ⟨hbound, hcontains⟩ := hranges n hn
    rw [isEscaped, heq, if_neg hbound, hcontains] at h
    exact Bool.noConfusion h
  simp only [List.forall_mem_cons, List.not_mem_nil, false_implies, implies_true, and_true] at hother
  simp only [isControl, isLineBreak, Bool.or_eq_false_iff, Bool.and_eq_false_iff,
    decide_eq_false_iff_not, beq_eq_false_iff_ne]
  omega

theorem isEscaped_of_mem_quoteChars {cs : List Char} {x : Char} (h : x ∈ quoteChars cs) :
    isEscaped x = false := by
  rw [quoteChars, List.mem_cons, List.mem_append, List.mem_singleton, List.mem_flatMap] at h
  rcases h with rfl | ⟨c, -, hx⟩ | rfl
  · decide
  · exact (shownAs_quoteChar c).isEscaped_eq_false hx
  · decide

theorem isEscaped_of_mem_quoteEntries {es : List (String × String)} {x : Char}
    (h : x ∈ quoteEntries es) : isEscaped x = false := by
  have hmarks : ∀ x ∈ [':', ' ', ',', ' '], isEscaped x = false := by
    simp only [List.forall_mem_cons, List.not_mem_nil, false_imp_iff, implies_true]
    decide
  have hentry {e : String × String} (h : x ∈ quoteEntry e) : isEscaped x = false := by
    rw [quoteEntry, List.mem_append, List.mem_append] at h
    rcases h with (hkey | hcolon) | hvalue
    · exact isEscaped_of_mem_quoteChars hkey
    · exact hmarks x (List.mem_append_left [',', ' '] hcolon)
    · exact isEscaped_of_mem_quoteChars hvalue
  induction es using quoteEntries.induct with
  | case1 => exact absurd h List.not_mem_nil
  | case2 e => exact hentry h
  | case3 e es hes ih =>
    rw [quoteEntries, List.mem_append, List.mem_append] at h
    · rcases h with (hfirst | hcomma) | hrest
      · exact hentry hfirst
      · exact hmarks x (List.mem_append_right [':', ' '] hcomma)
      · exact ih hrest
    · exact hes

/-- A map is shown without a character that would have to be escaped. -/
theorem isEscaped_of_mem_quoteFields {d : Dict String} {x : Char}
    (h : x ∈ (quoteFields d).toList) : isEscaped x = false := by
  rw [quoteFields, String.toList_ofList, List.mem_cons, List.mem_append, List.mem_singleton] at h
  rcases h with rfl | hentries | rfl
  · decide
  · exact isEscaped_of_mem_quoteEntries hentries
  · decide

end Conveyor.Text
