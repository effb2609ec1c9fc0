import Conveyor.Json.Node
import Conveyor.Json.Value
import Mathlib.Data.List.Basic

/-!
# Written values are read back

What the writer of JSON writes, the reader reads as the tree that was meant. Reading is a machine with
a stack, so the statement about a value has to say what the machine does in the middle of a text:
`Value.ReadsAs` says that it comes from the place before the value to the place after it, whatever the
stack and whatever follows that may follow a value (`Stops`); only a number would not end otherwise.
Statements of this form are put together as values are, an object out of
its members (`Value.readsAs_object`), so there is no induction over values.

A text may arrive as bytes; `Symbol.ofBytes_toUTF8` says that nothing is lost on that way.
-/

namespace Conveyor.Json

/-! ### Strings -/

theorem hexUnit?_hexPair : ∀ n < 0x20,
    hexUnit? '0' '0' (Nat.digitChar (n / 16)) (Nat.digitChar (n % 16)) = some n := by
  decide

/-- A unit that is a character by itself. -/
theorem Content.pushUnit_of_lt (content : Content) {n : Nat} (h : n < 0x20) :
    content.pushUnit n = content.push (Char.ofNat n) := by
  have hleading : ¬(0xD800 ≤ n) := by omega
  have htrailing : ¬(0xDC00 ≤ n) := by omega
  simp [pushUnit, hleading, htrailing]

/-- One character is read back, however it is written. -/
theorem scanString_writeChar (content : Content) (c : Char) (rest : List Symbol) :
    scanString content ((writeChar c).map .char ++ rest) = scanString (content.push c) rest := by
  unfold writeChar
  split_ifs with hquote hbackslash hbackspace hfeed hline hreturn htab hcontrol
  case pos => subst hquote; simp [scanString, shortEscape?]
  case pos => subst hbackslash; simp [scanString, shortEscape?]
  case pos => subst hbackspace; simp [scanString, shortEscape?]
  case pos => subst hfeed; simp [scanString, shortEscape?]
  case pos => subst hline; simp [scanString, shortEscape?]
  case pos => subst hreturn; simp [scanString, shortEscape?]
  case pos => subst htab; simp [scanString, shortEscape?]
  case pos =>
    simp [scanString, hexPair, hexUnit?_hexPair c.toNat hcontrol,
      content.pushUnit_of_lt hcontrol]
  case neg =>
    show scanString content (.char c :: rest) = _
    rw [scanString.eq_def]
    simp only [hquote, hbackslash, hcontrol, if_false]

/-- Characters are read back one after the other. -/
theorem scanString_flatMap_writeChar (content : Content) (cs : List Char) (rest : List Symbol) :
    scanString content ((cs.flatMap writeChar).map .char ++ rest) =
      scanString (cs.foldl Content.push content) rest := by
  induction cs generalizing content with
  | nil => rfl
  | cons c cs ih =>
    rw [List.flatMap_cons, List.map_append, List.append_assoc, scanString_writeChar, ih,
      List.foldl_cons]

/-- Characters that are pushed are the text. -/
theorem Content.text?_foldl_push (cs done : List Char) :
    (cs.foldl push { done }).text? = some (String.ofList (done.reverse ++ cs)) := by
  induction cs generalizing done with
  | nil => simp [text?]
  | cons c cs ih =>
    have hpush : ({ done } : Content).push c = { done := c :: done } := rfl
    rw [List.foldl_cons, hpush, ih]
    simp

/-! ### Lexemes -/

/-- The first lexeme of a text that does not start with a gap. -/
theorem nextLexeme?_cons {c : Char} (h : isGap (.char c) = false) (rest : List Symbol) :
    nextLexeme? (.char c :: rest) = some (lexemeFrom c rest) := by
  simp [nextLexeme?, h]

/-- A string is read back. -/
theorem nextLexeme?_writeString (s : String) (rest : List Symbol) :
    nextLexeme? ((writeString s).map .char ++ rest) = some (.string (some s), rest) := by
  have hscan : scanString {} ((s.toList.flatMap writeChar).map .char ++ .char '"' :: rest) =
      some (some s, rest) := by
    have htext := Content.text?_foldl_push s.toList []
    rw [List.reverse_nil, List.nil_append, String.ofList_toList] at htext
    rw [scanString_flatMap_writeChar, scanString.eq_def]
    simp only [htext, if_true]
  have hquote : isGap (.char '"') = false := by decide
  simp only [writeString, List.map_cons, List.map_append, List.map_nil, List.cons_append,
    List.append_assoc, List.nil_append, nextLexeme?_cons hquote]
  simp [lexemeFrom, hscan]

/-! ### Reading on -/

namespace Reading

/-- The reader takes the next lexeme. -/
theorem readFrom_of_next {s rest : List Symbol} {t : Lexeme} (h : nextLexeme? s = some (t, rest))
    (r : Reading) : readFrom r s = readFrom (r.step t) rest := by
  cases r with
  | halted n => rw [readFrom]; simp only [step]; rw [cut, readFrom]
  | _ =>
    rw [readFrom.eq_def]
    simp only
    split
    · simp_all
    · simp_all

/-- The text ends. -/
theorem readFrom_nil (r : Reading) : readFrom r [] = r.finish := by
  cases r <;> rw [readFrom.eq_def] <;> rfl

end Reading

/-! ### Values -/

/-- A value may end here: the text ends, or a comma or the closing mark of a container follows. -/
def Stops (rest : List Symbol) : Prop :=
  ∀ x ∈ rest.head?, x = .char ',' ∨ x = .char '}' ∨ x = .char ']'

theorem stops_nil : Stops [] :=
  nofun

theorem stops_comma (rest : List Symbol) : Stops (.char ',' :: rest) :=
  fun _ hx ↦ .inl (Option.some.inj hx).symm

theorem stops_closeObject (rest : List Symbol) : Stops (.char '}' :: rest) :=
  fun _ hx ↦ .inr (.inl (Option.some.inj hx).symm)

/-- Wherever the value stands in a text, it is read as this tree. -/
def Value.ReadsAs (v : Value) (n : Node) : Prop :=
  ∀ (stack : List Frame) (rest : List Symbol), Stops rest →
    Reading.readFrom (.value stack) (v.write.map .char ++ rest) =
      Reading.readFrom (.after n stack) rest

/-- The key and the value of a member are read as these. -/
def Value.MemberReadsAs (member : String × Value) (node : Option String × Node) : Prop :=
  node.1 = some member.1 ∧ member.2.ReadsAs node.2

namespace Value

open Reading

theorem readsAs_null : null.ReadsAs .null := by
  intro stack rest _
  have hnext : nextLexeme? (null.write.map .char ++ rest) = some (.null, rest) :=
    nextLexeme?_cons (by decide) _
  rw [readFrom_of_next hnext]
  rfl

theorem readsAs_text (s : String) : (text s).ReadsAs (.string (some s)) := by
  intro stack rest _
  rw [write, readFrom_of_next (nextLexeme?_writeString s rest)]
  rfl

/-- A member is read with its key. -/
theorem readFrom_key {k : String} {v : Value} {n : Node} (h : v.ReadsAs n) (fresh : Bool)
    (done : List (Option String × Node)) (stack : List Frame) {rest : List Symbol}
    (hrest : Stops rest) :
    readFrom (.key fresh done stack) ((writeString k ++ ':' :: v.write).map .char ++ rest) =
      readFrom (.after n (.object done (some k) :: stack)) rest := by
  have hcolon (rest : List Symbol) : nextLexeme? (.char ':' :: rest) = some (.colon, rest) :=
    nextLexeme?_cons (by decide) rest
  have hkey : step (.key fresh done stack) (.string (some k)) = .colon done (some k) stack := by
    cases fresh <;> rfl
  rw [List.map_append, List.append_assoc, readFrom_of_next (nextLexeme?_writeString k _), hkey,
    List.map_cons, List.cons_append, readFrom_of_next (hcolon _)]
  exact h _ rest hrest

/-- The members of an object are read one after the other, up to the closing mark. -/
theorem readFrom_members {members : List (String × Value)} {nodes : List (Option String × Node)}
    (h : List.Forall₂ MemberReadsAs members nodes) (hne : members ≠ []) (fresh : Bool)
    (done : List (Option String × Node)) (stack : List Frame) (rest : List Symbol) :
    readFrom (.key fresh done stack) ((writeMembers members).map .char ++ .char '}' :: rest) =
      readFrom (.after (.object (done.reverse ++ nodes) true) stack) rest := by
  have hclose (rest : List Symbol) : nextLexeme? (.char '}' :: rest) = some (.closeObject, rest) :=
    nextLexeme?_cons (by decide) rest
  have hcomma (rest : List Symbol) : nextLexeme? (.char ',' :: rest) = some (.comma, rest) :=
    nextLexeme?_cons (by decide) rest
  induction h generalizing fresh done with
  | nil => exact absurd rfl hne
  | @cons member node members nodes hmember hmembers ih =>
    obtain ⟨k, v⟩ := member
    obtain ⟨k', n⟩ := node
    obtain ⟨rfl, hvalue⟩ := hmember
    cases hmembers with
    | nil =>
      rw [writeMembers, readFrom_key hvalue _ _ _ (stops_closeObject rest),
        readFrom_of_next (hclose rest), step, List.reverse_cons]
    | @cons second _ others _ hsecond hothers =>
      have hwrite : writeMembers ((k, v) :: second :: others) =
          (writeString k ++ ':' :: v.write) ++ ',' :: writeMembers (second :: others) := by
        rw [writeMembers]
        simp
      rw [hwrite, List.map_append, List.append_assoc, List.map_cons, List.cons_append,
        readFrom_key hvalue _ _ _ (stops_comma _), readFrom_of_next (hcomma _), step, ih (by simp),
        List.reverse_cons, List.append_assoc, List.singleton_append]

/-- An object is read with all its members. -/
theorem readsAs_object {members : List (String × Value)} {nodes : List (Option String × Node)}
    (h : List.Forall₂ MemberReadsAs members nodes) :
    (object members).ReadsAs (.object nodes true) := by
  intro stack rest _
  have hopen (rest : List Symbol) : nextLexeme? (.char '{' :: rest) = some (.openObject, rest) :=
    nextLexeme?_cons (by decide) rest
  have hclose (rest : List Symbol) : nextLexeme? (.char '}' :: rest) = some (.closeObject, rest) :=
    nextLexeme?_cons (by decide) rest
  simp only [write, List.map_cons, List.map_append, List.map_nil, List.cons_append,
    List.append_assoc, List.nil_append]
  rw [readFrom_of_next (hopen _)]
  show readFrom (.key true [] stack) _ = _
  cases h with
  | nil => exact readFrom_of_next (hclose rest) _
  | cons hmember hmembers =>
    rw [readFrom_members (.cons hmember hmembers) (by simp), List.reverse_nil, List.nil_append]

end Value

/-! ### Texts -/

/-- The text of a value makes up its tree, and nothing follows it. -/
theorem Value.ReadsAs.ofText_render {v : Value} {n : Node} (h : v.ReadsAs n) :
    Document.ofText v.render = ⟨n, true⟩ := by
  have hread := h [] [] stops_nil
  rw [List.append_nil, Reading.readFrom_nil] at hread
  rw [Document.ofText, Document.ofSymbols, Symbol.ofText, Value.render, String.toList_ofList, hread]
  rfl

/-! ### Bytes -/

namespace Symbol

/-- The characters from a place on are decoded from the bytes from there on. -/
theorem ofBytesFrom_utf8Encode (front cs : List Char) (done : List Symbol) :
    ofBytesFrom (front ++ cs).utf8Encode front.utf8Encode.size done =
      done.reverse ++ cs.map .char := by
  induction cs generalizing front done with
  | nil =>
    rw [ofBytesFrom, List.append_nil, if_neg (Nat.lt_irrefl _), List.map_nil, List.append_nil]
  | cons c cs ih =>
    have hsize : front.utf8Encode.size + c.utf8Size = (front ++ [c]).utf8Encode.size := by
      rw [List.utf8Encode_append, ByteArray.size_append, List.utf8Encode_singleton]
      simp
    have hlt : front.utf8Encode.size < (front ++ c :: cs).utf8Encode.size := by
      have hpos := c.utf8Size_pos
      rw [List.append_cons, List.utf8Encode_append, ByteArray.size_append, ← hsize]
      omega
    have hdecode : (front ++ c :: cs).utf8Encode.utf8DecodeChar? front.utf8Encode.size = some c := by
      rw [ByteArray.utf8DecodeChar?_eq_utf8DecodeChar?_extract, List.utf8Encode_append,
        ByteArray.extract_append_eq_right rfl ByteArray.size_append,
        List.utf8DecodeChar?_utf8Encode_cons]
    rw [ofBytesFrom, if_pos hlt]
    simp only [hdecode]
    rw [hsize, List.append_cons, ih, List.reverse_cons, List.append_assoc]
    rfl

/-- The bytes of a text have its symbols. -/
theorem ofBytes_toUTF8 (s : String) : ofBytes s.toUTF8 = ofText s := by
  have hbytes : s.toUTF8 = s.toList.utf8Encode := (String.utf8Encode_toList).symm
  have hall := ofBytesFrom_utf8Encode [] s.toList []
  rw [hbytes]
  simpa [ofBytes, ofText] using hall

end Symbol

/-- A text may as well come as bytes. -/
theorem Document.ofBytes_toUTF8 (s : String) : ofBytes s.toUTF8 = ofText s := by
  rw [ofBytes, ofText, Symbol.ofBytes_toUTF8]

end Conveyor.Json
