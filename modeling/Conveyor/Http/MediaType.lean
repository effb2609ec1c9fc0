/-!
# Media types

A media type is written as a type, a slash, a subtype and any number of parameters. Type, subtype and
the names of parameters are tokens; the value of a parameter is a token, possibly empty, or a quoted
text of at least one character. A parameter may have spaces before its name and after a quoted value,
and nowhere else. A last parameter may be missing after its semicolon.

The subtype may end in a suffix, which stands after its last plus. The grammar of parameters is a
machine that reads one character at a time.
-/

namespace Conveyor.Http

/-- The characters of tokens. -/
def isTokenChar (c : Char) : Bool :=
  c.isAlphanum || "!#$%&'*+-.^_\x60|~".toList.contains c

/-- Where a reader of parameters is. -/
inductive ParameterPlace where
  /-- Before the name of a parameter. -/
  | nameStart
  /-- In a name. -/
  | name
  /-- Before a value. -/
  | valueStart
  /-- In a value that is a token. -/
  | value
  /-- After the quote that opens a value. -/
  | quotedStart
  /-- In a quoted value. -/
  | quoted
  /-- After a quoted value. -/
  | afterQuoted
  deriving DecidableEq, Repr

namespace ParameterPlace

/-- The character may stand in a quoted value. -/
def isQuotable (c : Char) : Bool :=
  0x20 ≤ c.toNat && c.toNat < 0x7F

/-- The place after one more character, if it may stand there. -/
def next? (p : ParameterPlace) (c : Char) : Option ParameterPlace :=
  match p with
  | nameStart => if c = ' ' then some nameStart else if isTokenChar c then some name else none
  | name => if isTokenChar c then some name else if c = '=' then some valueStart else none
  | valueStart => if c = '"' then some quotedStart else if isTokenChar c then some value else none
  | value => if isTokenChar c then some value else if c = ';' then some nameStart else none
  | quotedStart => if isQuotable c then some quoted else none
  | quoted => if c = '"' then some afterQuoted else if isQuotable c then some quoted else none
  | afterQuoted => if c = ';' then some nameStart else if c = ' ' then some afterQuoted else none

/-- The text may end here. -/
def isFinal : ParameterPlace → Bool
  | nameStart => true
  | valueStart => true
  | value => true
  | afterQuoted => true
  | _ => false

/-- The rest of the text can be read from here. -/
def accepts (p : ParameterPlace) : List Char → Bool
  | [] => p.isFinal
  | c :: cs =>
    match p.next? c with
    | some q => q.accepts cs
    | none => false

end ParameterPlace

/-- A media type, its parameters aside, in small letters. -/
structure MediaType where
  /-- The type. -/
  type : List Char
  /-- The subtype without its suffix. -/
  subtype : List Char
  /-- The suffix of the subtype, if it has one. -/
  structured : Option (List Char)
  deriving DecidableEq, Repr

namespace MediaType

/-- Splits a subtype at its last plus, unless that is its first character. -/
def splitSuffix (cs : List Char) : List Char × Option (List Char) :=
  match cs.reverse.span (· != '+') with
  | (_, []) => (cs, none)
  | (_, [_]) => (cs, none)
  | (tail, _ :: head) => (head.reverse, some tail.reverse)

/-- The media type that a text denotes. -/
def ofChars? (cs : List Char) : Option MediaType :=
  match cs.span isTokenChar with
  | ([], _) => none
  | (type, '/' :: cs) =>
    let (whole, rest) := cs.span isTokenChar
    let (subtype, structured) := splitSuffix (whole.map Char.toLower)
    let m : MediaType := ⟨type.map Char.toLower, subtype, structured⟩
    match rest with
    | [] => some m
    -- An empty subtype is accepted only if no parameters follow it.
    | ';' :: ps =>
      if !whole.isEmpty && ParameterPlace.nameStart.accepts ps then some m else none
    | _ => none
  | _ => none

/-- The media type is that of JSON, or of a format that is written in JSON. -/
def isJson (m : MediaType) : Bool :=
  m.type == "application".toList &&
    (m.subtype == "json".toList || m.structured == some "json".toList)

end MediaType

/-- The text is a media type of JSON. -/
def isJsonType (s : String) : Bool :=
  ((MediaType.ofChars? s.toList).map MediaType.isJson).getD false

end Conveyor.Http
