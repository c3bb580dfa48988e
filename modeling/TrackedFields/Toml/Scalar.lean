import TrackedFields.Calendar.Date
import TrackedFields.Text.Decimal
import TrackedFields.Text.Hex

/-!
# Scalars of configuration text

Strings, numbers and dates of the TOML format, each read from the head of a text together with
the text after it. The content of strings is kept, since strings may be keys; of numbers and
dates only the form is checked.
-/

namespace TrackedFields.Toml

open Text

/-- Reads something from the head of a text and gives the text after it. -/
abbrev Reader (α : Type) := List Char → Option (α × List Char)

/-- Whether a character may stand inside a line: a tab, a graphic or a non-ASCII character. -/
def isInline (c : Char) : Bool := c == '\t' || (0x20 ≤ c.toNat && c.toNat != 0x7f)

/-- The text without its leading spaces and tabs. -/
def skipSpaces (cs : List Char) : List Char := cs.dropWhile fun c => c == ' ' || c == '\t'

/-- The text after a line end at its head. -/
def newline? : List Char → Option (List Char)
  | '\n' :: rest => some rest
  | '\r' :: '\n' :: rest => some rest
  | _ => none

/-- The character with the given code, unless it is half of a surrogate pair or too large. -/
def scalar? (n : Nat) : Option Char := if n.isValidChar then some (Char.ofNat n) else none

/-- The character that a one-letter escape stands for. -/
def unescape? : Char → Option Char
  | 'b' => some '\x08'
  | 't' => some '\t'
  | 'n' => some '\n'
  | 'f' => some '\x0c'
  | 'r' => some '\r'
  | '\"' => some '\"'
  | '\\' => some '\\'
  | _ => none

/-- An escape after its backslash. -/
def readEscape : Reader Char
  | 'u' :: a :: b :: c :: d :: rest => do
    some (← scalar? (← Hex.value? [a, b, c, d]), rest)
  | 'U' :: a :: b :: c :: d :: e :: f :: g :: h :: rest => do
    some (← scalar? (← Hex.value? [a, b, c, d, e, f, g, h]), rest)
  | c :: rest => (unescape? c).map (·, rest)
  | [] => none

/-- A one-line string after its opening double quote. -/
def readBasic : Nat → Reader (List Char)
  | 0, _ => none
  | fuel + 1, cs =>
    match cs with
    | '\"' :: rest => some ([], rest)
    | '\\' :: rest => do
      let (c, rest) ← readEscape rest
      let (s, rest) ← readBasic fuel rest
      some (c :: s, rest)
    | c :: rest =>
      if isInline c then do
        let (s, rest) ← readBasic fuel rest
        some (c :: s, rest)
      else none
    | [] => none

/-- A one-line string without escapes after its opening single quote. -/
def readLiteral : Reader (List Char)
  | [] => none
  | c :: rest =>
    if c.toNat = 39 then some ([], rest)
    else if isInline c then do
      let (s, rest) ← readLiteral rest
      some (c :: s, rest)
    else none

/-- The quotes at the head of a text, up to five, and the text after them. -/
def takeQuotes (quote : Char) (cs : List Char) : Nat × List Char :=
  let n := min 5 (cs.takeWhile (· == quote)).length
  (n, cs.drop n)

/-- The text after the blank rest of a line and all blank lines after it. -/
def skipBlankLines : Nat → List Char → List Char
  | 0, cs => cs
  | fuel + 1, cs =>
    match newline? (skipSpaces cs) with
    | some rest => skipBlankLines fuel rest
    | none => skipSpaces cs

/-- A string of several lines after its three opening quotes. Three to five quotes end it; those
beyond the third from the end belong to it. Without escapes the backslash is an ordinary
character. -/
def readLines (quote : Char) (escapes : Bool) : Nat → Reader (List Char)
  | 0, _ => none
  | fuel + 1, cs =>
    match newline? cs with
    | some rest => (readLines quote escapes fuel rest).map fun (s, rest) => ('\n' :: s, rest)
    | none =>
      match cs with
      | [] => none
      | c :: rest =>
        if c = quote then
          let (n, after) := takeQuotes quote cs
          if 3 ≤ n then some (List.replicate (n - 3) quote, after)
          else
            (readLines quote escapes fuel after).map fun (s, rest) =>
              (List.replicate n quote ++ s, rest)
        else if escapes ∧ c = '\\' then
          match newline? (skipSpaces rest) with
          | some after => readLines quote escapes fuel (skipBlankLines after.length after)
          | none => do
            let (c, rest) ← readEscape rest
            let (s, rest) ← readLines quote escapes fuel rest
            some (c :: s, rest)
        else if isInline c then
          (readLines quote escapes fuel rest).map fun (s, rest) => (c :: s, rest)
        else none

/-- The text after a line end at its head, or the text itself. -/
def skipNewline (cs : List Char) : List Char := (newline? cs).getD cs

/-- A string in any of its four forms. -/
def readString : Reader (List Char)
  | '\"' :: '\"' :: '\"' :: rest => readLines '\"' true (rest.length + 1) (skipNewline rest)
  | '\"' :: rest => readBasic (rest.length + 1) rest
  | a :: rest =>
    if a.toNat = 39 then
      if rest.take 2 = [a, a] then
        readLines a false (rest.length + 1) (skipNewline (rest.drop 2))
      else readLiteral rest
    else none
  | [] => none

/-- The digits at the head of a text, with single underscores between them. -/
def digitRun (isDigit : Char → Bool) : Reader (List Char)
  | [] => none
  | c :: rest =>
    if isDigit c then
      match rest with
      | '_' :: rest => (digitRun isDigit rest).map fun (ds, rest) => (c :: ds, rest)
      | rest =>
        match digitRun isDigit rest with
        | some (ds, after) => some (c :: ds, after)
        | none =>
          match rest with
          | d :: _ => if isDigit d then none else some ([c], rest)
          | [] => some ([c], rest)
    else none

/-- A sign, if there is one: whether it is a minus, and the text after it. -/
def sign : List Char → Bool × List Char
  | '+' :: rest => (false, rest)
  | '-' :: rest => (true, rest)
  | cs => (false, cs)

/-- A decimal whole number without its sign: zero, or digits of which the first is not zero. -/
def readWhole : Reader (List Char)
  | '0' :: rest => some (['0'], rest)
  | cs => digitRun Char.isDigit cs

/-- A whole number of the given base after its mark, within the signed 64-bit range. -/
def readBased (base : Nat) (cs : List Char) : Option (List Char) := do
  let (ds, rest) ← digitRun (fun c => (Hex.digit? c).any (· < base)) cs
  let n := ds.foldl (fun acc c => base * acc + (Hex.digit? c).getD 0) 0
  if n < Nat.pow 2 63 then some rest else none

/-- The text after a whole number within the signed 64-bit range. -/
def readInteger : List Char → Option (List Char)
  | '0' :: 'x' :: rest => readBased 16 rest
  | '0' :: 'o' :: rest => readBased 8 rest
  | '0' :: 'b' :: rest => readBased 2 rest
  | cs => do
    let (negative, rest) := sign cs
    let (ds, rest) ← readWhole rest
    let n := Decimal.value ds
    if n < Nat.pow 2 63 ∨ (negative ∧ n = Nat.pow 2 63) then some rest else none

/-- The digits after a point, none if there is no point. -/
def readFraction : Reader (List Char)
  | '.' :: rest => digitRun Char.isDigit rest
  | cs => some ([], cs)

/-- The exponent with its sign, if there is one. -/
def readExponent : Reader (Option (Bool × List Char))
  | c :: rest =>
    if c = 'e' ∨ c = 'E' then do
      let (negative, rest) := sign rest
      let (ds, rest) ← digitRun Char.isDigit rest
      some (some (negative, ds), rest)
    else some (none, c :: rest)
  | [] => some (none, [])

/-- Whether the number `m · 10^e` rounds beyond the largest double-precision number. -/
def isTooLarge (m : Nat) (e : Int) : Bool :=
  if m = 0 then false
  else if 310 < (Decimal.digits m).length + e then true
  else if (Decimal.digits m).length + e < 300 then false
  else if 0 ≤ e then Nat.pow 2 1024 - Nat.pow 2 970 ≤ m * Nat.pow 10 e.toNat
  else (Nat.pow 2 1024 - Nat.pow 2 970) * Nat.pow 10 e.natAbs ≤ m

/-- The text after a number with a fraction or an exponent, or one of the special numbers. -/
def readFloat (cs : List Char) : Option (List Char) :=
  let (negative, unsigned) := sign cs
  match unsigned with
  | 'i' :: 'n' :: 'f' :: rest => some rest
  | 'n' :: 'a' :: 'n' :: rest => some rest
  | unsigned => do
    let (whole, rest) ← readWhole unsigned
    let (fraction, rest) ← readFraction rest
    let (exponent, rest) ← readExponent rest
    if fraction = [] ∧ exponent.isNone then none
    else
      let e : Int :=
        match exponent with
        | none => 0
        | some (negative, ds) =>
          if negative then -(Decimal.value ds : Int) else Decimal.value ds
      if !negative && isTooLarge (Decimal.value (whole ++ fraction)) (e - fraction.length) then
        none
      else some rest

/-- A number of exactly `width` digits between two bounds, both included. -/
def readField (width low high : Nat) (cs : List Char) : Option (Nat × List Char) :=
  let ds := cs.take width
  if ds.length = width ∧ ds.all Char.isDigit then
    let n := Decimal.value ds
    if low ≤ n ∧ n ≤ high then some (n, cs.drop width) else none
  else none

/-- The text after a given character. -/
def expect (c : Char) : List Char → Option (List Char)
  | d :: rest => if c = d then some rest else none
  | [] => none

/-- The text after a date. -/
def readDate (cs : List Char) : Option (List Char) := do
  let (year, rest) ← readField 4 0 9999 cs
  let (month, rest) ← readField 2 1 12 (← expect '-' rest)
  let (_, rest) ← readField 2 1 (Calendar.monthLength year month) (← expect '-' rest)
  some rest

/-- The text after a time of day. -/
def readTime (cs : List Char) : Option (List Char) := do
  let (_, rest) ← readField 2 0 23 cs
  let (_, rest) ← readField 2 0 59 (← expect ':' rest)
  let (_, rest) ← readField 2 0 60 (← expect ':' rest)
  match rest with
  | '.' :: rest =>
    match rest.takeWhile Char.isDigit with
    | [] => none
    | _ => some (rest.dropWhile Char.isDigit)
  | rest => some rest

/-- The text after an offset from universal time, or the text itself. -/
def skipOffset (cs : List Char) : List Char :=
  match cs with
  | 'Z' :: rest => rest
  | 'z' :: rest => rest
  | c :: rest =>
    if c = '+' ∨ c = '-' then
      (do
        let (_, rest) ← readField 2 0 23 rest
        let (_, rest) ← readField 2 0 59 (← expect ':' rest)
        some rest).getD cs
    else cs
  | [] => cs

/-- The text after a date, a time of day, or both. -/
def readDateTime (cs : List Char) : Option (List Char) :=
  match readDate cs with
  | some rest =>
    match rest with
    | c :: after =>
      if c = 'T' ∨ c = 't' ∨ c = ' ' then
        match readTime after with
        | some after => some (skipOffset after)
        | none => some rest
      else some rest
    | [] => some rest
  | none => readTime cs

end TrackedFields.Toml
