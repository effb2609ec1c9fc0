import Conveyor.Json.Lexeme

/-!
# The tree of a JSON text

`Document.ofSymbols` reads a text into a tree, whatever the text is. If the text breaks off or breaks
the grammar, the tree holds everything up to that place and shows the place: the value that is
missing there is `Node.broken`, and the arrays and objects that are open there are not `closed`. All
else in the tree is as it was written.

That is what lets a decoder walk the tree from left to right and find, of two faults in a text, the
one that comes first: a value of the wrong kind, or the place where the text breaks.

The reader is a machine that takes one lexeme at a time. Containers that are open wait on a stack, so
nesting may be as deep as the text is long.
-/

namespace Conveyor.Json

/-- A value of a JSON text, possibly cut short. -/
inductive Node where
  /-- The value `null`. -/
  | null
  /-- A truth value. -/
  | bool (b : Bool)
  /-- A number, without a value if it is greater than every double. -/
  | number (n : Option Number)
  /-- A string, without a value if its content is no sequence of characters. -/
  | string (s : Option String)
  /-- An array, closed or not. -/
  | array (elements : List Node) (closed : Bool)
  /-- An object with its keys and values in the order of the text, closed or not. A key is absent if
  it is no sequence of characters, or if the text breaks in its place. -/
  | object (members : List (Option String × Node)) (closed : Bool)
  /-- No value: the text breaks here. -/
  | broken
  deriving Inhabited

namespace Node

/-- The value was read to its end, so the text does not break inside it. -/
def isWhole : Node → Bool
  | broken => false
  | array _ closed => closed
  | object _ closed => closed
  | _ => true

end Node

/-- A container that is open, with a value inside it being read. -/
inductive Frame where
  /-- An array with its elements so far, in reverse. -/
  | array (done : List Node)
  /-- An object with its members so far, in reverse, and the key whose value is being read. -/
  | object (done : List (Option String × Node)) (key : Option String)

namespace Frame

/-- The container with its last value, cut short after it. -/
def cut (n : Node) : Frame → Node
  | array done => .array (n :: done).reverse false
  | object done key => .object ((key, n) :: done).reverse false

end Frame

/-- Where the reader of a text is. The stack holds the containers around that place, innermost
first. -/
inductive Reading where
  /-- A value comes next. -/
  | value (stack : List Frame)
  /-- An array was just opened: a value or its closing mark comes next. -/
  | first (stack : List Frame)
  /-- A key comes next, or, if the object was `fresh`ly opened, perhaps its closing mark. -/
  | key (fresh : Bool) (done : List (Option String × Node)) (stack : List Frame)
  /-- A key has been read: a colon comes next. -/
  | colon (done : List (Option String × Node)) (key : Option String) (stack : List Frame)
  /-- A value has been read to its end. -/
  | after (n : Node) (stack : List Frame)
  /-- The text breaks, and this is the tree up to there. -/
  | halted (n : Node)

/-- The tree that a text makes, and whether the text is a single value and nothing more. -/
structure Document where
  /-- The value of the text, as far as it goes. -/
  root : Node
  /-- The value is whole, and nothing but gaps follows it. -/
  clean : Bool
  deriving Inhabited

namespace Reading

/-- Puts the containers of a stack around a value, each cut short. -/
def unwind (n : Node) (stack : List Frame) : Node :=
  stack.foldl Frame.cut n

/-- The tree when the text breaks at this place. -/
def cut : Reading → Node
  | value stack => unwind .broken stack
  | first stack => unwind .broken (.array [] :: stack)
  | key _ done stack => unwind .broken (.object done none :: stack)
  | colon done k stack => unwind .broken (.object done k :: stack)
  | after n stack => unwind n stack
  | halted n => n

/-- The place after the first lexeme of a value, inside the containers of `stack`. -/
def enter (t : Lexeme) (stack : List Frame) : Reading :=
  match t with
  | .null => after .null stack
  | .bool b => after (.bool b) stack
  | .number n => after (.number n) stack
  | .string s => after (.string s) stack
  | .openArray => first stack
  | .openObject => key true [] stack
  | _ => halted (unwind .broken stack)

/-- Takes one lexeme. -/
def step (r : Reading) (t : Lexeme) : Reading :=
  match r, t with
  | value stack, t => enter t stack
  | first stack, .closeArray => after (.array [] true) stack
  | first stack, t => enter t (.array [] :: stack)
  -- An object may be closed here only if nothing was read of it: no comma stands before the mark.
  | key true _ stack, .closeObject => after (.object [] true) stack
  | key _ done stack, .string s => colon done s stack
  | colon done k stack, .colon => value (.object done k :: stack)
  | after n (.array done :: stack), .comma => value (.array (n :: done) :: stack)
  | after n (.array done :: stack), .closeArray => after (.array (n :: done).reverse true) stack
  | after n (.object done k :: stack), .comma => key false ((k, n) :: done) stack
  | after n (.object done k :: stack), .closeObject =>
    after (.object ((k, n) :: done).reverse true) stack
  | r, _ => halted r.cut

/-- The document when the text ends at this place. -/
def finish : Reading → Document
  | after n [] => ⟨n, true⟩
  | r => ⟨r.cut, false⟩

/-- Takes the lexemes of a text, until it ends or breaks. -/
def readFrom (r : Reading) (s : List Symbol) : Document :=
  match r with
  | halted n => ⟨n, false⟩
  | r =>
    match _h : nextLexeme? s with
    | none => r.finish
    | some (t, rest) => readFrom (r.step t) rest
termination_by s.length
decreasing_by exact length_of_nextLexeme? _h

end Reading

namespace Document

/-- The document that a sequence of symbols makes. -/
def ofSymbols (s : List Symbol) : Document :=
  Reading.readFrom (.value []) s

/-- The document that a text makes. -/
def ofText (s : String) : Document :=
  ofSymbols (Symbol.ofText s)

/-- The document that a sequence of bytes makes. -/
def ofBytes (bytes : ByteArray) : Document :=
  ofSymbols (Symbol.ofBytes bytes)

end Document

end Conveyor.Json
