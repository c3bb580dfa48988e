import TrackedFields.Toml.Scalar

/-!
# Configuration documents

TOML documents as trees of tables. A document is a sequence of lines: a key with its value, the
header of a table, or the header of a further table in an array of tables. Of values only
Booleans are kept; the form of all others is checked. The main rule is that nothing is defined
twice: neither a key, nor a table by its header, nor a table by header and dotted keys both.
-/

namespace TrackedFields.Toml

/-- A value of a document: a Boolean, or anything else. -/
inductive Value where
  | bool (b : Bool)
  | other
  deriving DecidableEq

/-- How a table came to be. -/
inductive Origin where
  /-- It stands in the path of a header. -/
  | implied
  /-- It stands in a dotted key. -/
  | dotted
  /-- It has a header of its own. -/
  | header
  deriving DecidableEq

/-- What a key maps to: a value, a table, or an array of tables whose last one is open. -/
inductive Node where
  | value (v : Value)
  | table (origin : Origin) (entries : List (String × Node))
  | tables (closed : List (List (String × Node))) (last : List (String × Node))

/-- The entries of a table. -/
abbrev Entries := List (String × Node)

namespace Entries

/-- What a key maps to. -/
def find (entries : Entries) (key : String) : Option Node :=
  (entries.find? (·.1 == key)).map (·.2)

/-- The entries with the key mapped to a node. -/
def set (entries : Entries) (key : String) (node : Node) : Entries :=
  if entries.any (·.1 == key) then
    entries.map fun entry => if entry.1 == key then (key, node) else entry
  else entries ++ [(key, node)]

/-- Define a dotted key: the tables in its path are new or were themselves made by dotted keys,
and the key itself is new. -/
def define (v : Value) (entries : Entries) : List String → Option Entries
  | [] => none
  | [key] =>
    match entries.find key with
    | none => some (entries.set key (.value v))
    | some _ => none
  | key :: path =>
    match entries.find key with
    | none => (define v [] path).map fun sub => entries.set key (.table .dotted sub)
    | some (.value _) => none
    | some (.table origin sub) =>
      if origin = .header ∨ (origin = .implied ∧ path.length = 1) then none
      else (define v sub path).map fun sub => entries.set key (.table origin sub)
    | some (.tables closed last) =>
      if path.length = 1 then none
      else (define v last path).map fun last => entries.set key (.tables closed last)

/-- Open the table of a header. It is new, or so far only stands in the path of headers. -/
def openTable (entries : Entries) : List String → Option Entries
  | [] => none
  | [key] =>
    match entries.find key with
    | none => some (entries.set key (.table .header []))
    | some (.table .implied sub) => some (entries.set key (.table .header sub))
    | some _ => none
  | key :: path =>
    match entries.find key with
    | none => (openTable [] path).map fun sub => entries.set key (.table .implied sub)
    | some (.value _) => none
    | some (.table origin sub) =>
      (openTable sub path).map fun sub => entries.set key (.table origin sub)
    | some (.tables closed last) =>
      (openTable last path).map fun last => entries.set key (.tables closed last)

/-- Open one more table of an array of tables. -/
def openElement (entries : Entries) : List String → Option Entries
  | [] => none
  | [key] =>
    match entries.find key with
    | none => some (entries.set key (.tables [] []))
    | some (.tables closed last) => some (entries.set key (.tables (closed ++ [last]) []))
    | some _ => none
  | key :: path =>
    match entries.find key with
    | none => (openElement [] path).map fun sub => entries.set key (.table .implied sub)
    | some (.value _) => none
    | some (.table origin sub) =>
      (openElement sub path).map fun sub => entries.set key (.table origin sub)
    | some (.tables closed last) =>
      (openElement last path).map fun last => entries.set key (.tables closed last)

/-- Change the open table at a path. -/
def within (change : Entries → Option Entries) (entries : Entries) :
    List String → Option Entries
  | [] => change entries
  | key :: path =>
    match entries.find key with
    | some (.table origin sub) =>
      (within change sub path).map fun sub => entries.set key (.table origin sub)
    | some (.tables closed last) =>
      (within change last path).map fun last => entries.set key (.tables closed last)
    | _ => none

end Entries

/-- Whether a character may stand in a key without quotes. -/
def isBare (c : Char) : Bool := c.isAlphanum || c == '_' || c == '-'

/-- One part of a key, bare or quoted on one line. -/
def readKeyPart (cs : List Char) : Option (String × List Char) :=
  match cs with
  | '\"' :: rest => (readBasic (rest.length + 1) rest).map fun (s, rest) => (String.ofList s, rest)
  | c :: rest =>
    if c.toNat = 39 then (readLiteral rest).map fun (s, rest) => (String.ofList s, rest)
    else if isBare c then
      some (String.ofList (cs.takeWhile isBare), cs.dropWhile isBare)
    else none
  | [] => none

/-- A key: parts separated by points, with spaces around the points. -/
def readKey : Nat → Reader (List String)
  | 0, _ => none
  | fuel + 1, cs => do
    let (part, rest) ← readKeyPart (skipSpaces cs)
    match skipSpaces rest with
    | '.' :: rest => (readKey fuel rest).map fun (parts, rest) => (part :: parts, rest)
    | rest => some ([part], rest)

/-- The text after a comment at its head, up to the end of the line. -/
def skipComment (cs : List Char) : List Char :=
  match cs with
  | '#' :: rest => rest.dropWhile isInline
  | cs => cs

/-- The text after spaces, comments and line ends. -/
def skipLines : Nat → List Char → List Char
  | 0, cs => cs
  | fuel + 1, cs =>
    let rest := skipComment (skipSpaces cs)
    match newline? rest with
    | some rest => skipLines fuel rest
    | none => rest

/-- Arrays and inline tables may be nested this deep, and keys may have this many parts. -/
def nestingLimit : Nat := 79

mutual

/-- A value. The first number bounds its nesting, the second the number of its parts. -/
def readValue : Nat → Nat → Reader Value
  | depth, size, cs =>
    match cs with
    | 't' :: 'r' :: 'u' :: 'e' :: rest => some (.bool true, rest)
    | 'f' :: 'a' :: 'l' :: 's' :: 'e' :: rest => some (.bool false, rest)
    | '[' :: rest =>
      match depth with
      | 0 => none
      | depth + 1 => (readItems depth size size rest).map fun rest => (.other, rest)
    | '\x7b' :: rest =>
      match depth with
      | 0 => none
      | depth + 1 =>
        match skipSpaces rest with
        | '\x7d' :: rest => some (.other, rest)
        | rest => (readPairs depth size size [] rest).map fun rest => (.other, rest)
    | c :: _ =>
      if c = '\"' ∨ c.toNat = 39 then (readString cs).map fun (_, rest) => (.other, rest)
      else
        match readDateTime cs with
        | some rest => some (.other, rest)
        | none =>
          match readFloat cs with
          | some rest => some (.other, rest)
          | none => (readInteger cs).map fun rest => (.other, rest)
    | [] => none

/-- The items of an array after its opening bracket; gives the text after the closing one. -/
def readItems : Nat → Nat → Nat → List Char → Option (List Char)
  | _, _, 0, _ => none
  | depth, size, fuel + 1, cs =>
    match skipLines cs.length cs with
    | ']' :: rest => some rest
    | cs => do
      let (_, rest) ← readValue depth size cs
      match skipLines rest.length rest with
      | ',' :: rest => readItems depth size fuel rest
      | ']' :: rest => some rest
      | _ => none

/-- The pairs of an inline table after its opening brace; gives the text after the closing
one. -/
def readPairs : Nat → Nat → Nat → Entries → List Char → Option (List Char)
  | _, _, 0, _, _ => none
  | depth, size, fuel + 1, entries, cs => do
    let (path, rest) ← readKey nestingLimit cs
    let (v, rest) ← readValue depth size (skipSpaces (← expect '=' rest))
    let entries ← entries.define v path
    match skipSpaces rest with
    | ',' :: rest => readPairs depth size fuel entries rest
    | '\x7d' :: rest => some rest
    | _ => none

end

/-- The text after the rest of a line: spaces, a comment, and the line end unless the text ends
here. -/
def endLine (cs : List Char) : Option (List Char) :=
  match skipComment (skipSpaces cs) with
  | [] => some []
  | rest => newline? rest

/-- A document while it is read: its tables, and the path of the open one. -/
structure Draft where
  root : Entries := []
  path : List String := []

/-- One line of a document. -/
def readLine (draft : Draft) (cs : List Char) : Option (Draft × List Char) :=
  match skipSpaces cs with
  | '[' :: '[' :: rest => do
    let (path, rest) ← readKey nestingLimit rest
    let root ← draft.root.openElement path
    some (⟨root, path⟩, ← endLine (← expect ']' (← expect ']' rest)))
  | '[' :: rest => do
    let (path, rest) ← readKey nestingLimit rest
    let root ← draft.root.openTable path
    some (⟨root, path⟩, ← endLine (← expect ']' rest))
  | [] => some (draft, [])
  | '#' :: rest => (endLine ('#' :: rest)).map (draft, ·)
  | cs =>
    match newline? cs with
    | some rest => some (draft, rest)
    | none => do
      let (path, rest) ← readKey nestingLimit cs
      let (v, rest) ← readValue nestingLimit (rest.length + 1) (skipSpaces (← expect '=' rest))
      let root ← draft.root.within (·.define v path) draft.path
      some ({ draft with root }, ← endLine rest)

/-- All lines of a document. -/
def readLinesFrom : Nat → Draft → List Char → Option Entries
  | _, draft, [] => some draft.root
  | 0, _, _ => none
  | fuel + 1, draft, cs => do
    let (draft, rest) ← readLine draft cs
    readLinesFrom fuel draft rest

/-- The root table of a document. A byte order mark at its start does not count. -/
def read (s : String) : Option Entries :=
  let cs :=
    match s.toList with
    | '\ufeff' :: rest => rest
    | cs => cs
  readLinesFrom cs.length {} cs

end TrackedFields.Toml
