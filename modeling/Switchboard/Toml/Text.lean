import Switchboard.Text.Hex

/-!
# TOML strings

A string is written in one of four ways: between single or tripled quotes, which may be double,
with escapes, or single, without any. Tripled quotes may hold line feeds, and up to two quotes
beside their delimiters.

* `read` reads a string of any of the four ways.
* `write` chooses the plainest way that can hold a text.
-/

namespace Switchboard.Toml.Text

/-! ## Characters -/

/-- Whether a character may not stand unescaped in any string. Tabs may; line feeds are for each
way to judge. -/
def isControl (c : Char) : Bool := (c.toNat < 0x20 && c != '\t' && c != '\n') || c.toNat = 0x7F

/-- Whether a character is a space or a tab. -/
def isSpace (c : Char) : Bool := c == ' ' || c == '\t'

/-! ## Reading -/

/-- The character of a number, unless it is half a surrogate pair or too large. -/
def scalar? (n : Nat) : Option Char :=
  if h : n.isValidChar then some (Char.ofNatAux n h) else none

/-- Reads a number of exactly so many hexadecimal digits as a character. -/
def hexEscape (size : Nat) (s : List Char) : Option (Char × List Char) :=
  let digits := s.take size
  if digits.length = size ∧ digits.all Hex.isDigit then
    (scalar? (Hex.ofDigits digits)).map (·, s.drop size)
  else none

/-- Reads an escape behind its backslash. -/
def escape : List Char → Option (Char × List Char)
  | 'b' :: rest => some ('\x08', rest)
  | 't' :: rest => some ('\t', rest)
  | 'n' :: rest => some ('\n', rest)
  | 'f' :: rest => some ('\x0c', rest)
  | 'r' :: rest => some ('\r', rest)
  | '"' :: rest => some ('"', rest)
  | '\\' :: rest => some ('\\', rest)
  | 'u' :: rest => hexEscape 4 rest
  | 'U' :: rest => hexEscape 8 rest
  | _ => none

/-- Reads a line end. -/
def lineFeed : List Char → Option (List Char)
  | '\n' :: rest => some rest
  | '\r' :: '\n' :: rest => some rest
  | _ => none

/-- Passes over spaces, tabs and line ends. -/
def skipLines : List Char → List Char
  | '\r' :: '\n' :: rest => skipLines rest
  | c :: rest => if isSpace c ∨ c = '\n' then skipLines rest else c :: rest
  | [] => []

/-- Reads what follows a backslash at the end of a line: blanks up to the next other character. -/
def continuation (s : List Char) : Option (List Char) :=
  (lineFeed (s.dropWhile isSpace)).map skipLines

/-- A further character in front of a text that has been read. -/
def push (c : Char) : Option (List Char × List Char) → Option (List Char × List Char) :=
  Option.map fun (cs, rest) => (c :: cs, rest)

/-- Reads a string between single quotation marks `q`, with escapes if `escapes`. -/
def line (q : Char) (escapes : Bool) : (fuel : Nat) → List Char → Option (List Char × List Char)
  | 0, _ | _, [] => none
  | fuel + 1, c :: rest =>
    if c = q then some ([], rest)
    else if c = '\\' ∧ escapes then
      match escape rest with
      | some (d, rest) => push d (line q escapes fuel rest)
      | none => none
    else if isControl c ∨ c = '\n' then none
    else push c (line q escapes fuel rest)

/-- The most quotes that may stand beside a tripled delimiter. -/
def spareQuotes : Nat := 2

/-- Reads a string between tripled quotation marks `q`, with escapes if `escapes`. -/
def block (q : Char) (escapes : Bool) : (fuel : Nat) → List Char → Option (List Char × List Char)
  | 0, _ | _, [] => none
  | fuel + 1, c :: rest =>
    if c = q then
      let run := (c :: rest).takeWhile (· == q)
      let spare := min (run.length - 3) spareQuotes
      if run.length < 3 then
        (block q escapes fuel ((c :: rest).dropWhile (· == q))).map fun (cs, rest) =>
          (run ++ cs, rest)
      else some (run.take spare, (c :: rest).drop (3 + spare))
    else if c = '\\' ∧ escapes then
      match continuation rest with
      | some rest => block q escapes fuel rest
      | none =>
        match escape rest with
        | some (d, rest) => push d (block q escapes fuel rest)
        | none => none
    else if isControl c then
      match lineFeed (c :: rest) with
      | some rest => push '\n' (block q escapes fuel rest)
      | none => none
    else push c (block q escapes fuel rest)

/-- Takes off the line end that may follow an opening tripled quote. -/
def openBlock (s : List Char) : List Char := (lineFeed s).getD s

/-- Reads a string of one line behind its quote. -/
def readLine (q : Char) (s : List Char) : Option (List Char × List Char) :=
  line q (q == '"') (s.length + 1) s

/-- Reads a string behind its tripled quote. -/
def readBlock (q : Char) (s : List Char) : Option (List Char × List Char) :=
  block q (q == '"') (s.length + 1) (openBlock s)

/-- Reads a string behind the first of its quotes `q`. -/
def read (q : Char) : List Char → Option (List Char × List Char)
  | c :: d :: rest =>
    if c = q ∧ d = q then readBlock q rest
    else if c = q then some ([], d :: rest)
    else readLine q (c :: d :: rest)
  | s => readLine q s

/-! ## Writing -/

/-- The length of the longest run of a character. -/
def longestRun (q : Char) (s : List Char) : Nat :=
  (s.foldl (fun (best, run) c => if c = q then (max best (run + 1), run + 1) else (best, 0))
    (0, 0)).1

/-- A hexadecimal digit, upper case. -/
def hexDigit (n : Nat) : Char := (Nat.digitChar n).toUpper

/-- The escape of a character that needs one wherever it stands. -/
def escapeOf (c : Char) : List Char :=
  if c = '\\' then ['\\', '\\']
  else if c = '\x08' then ['\\', 'b']
  else if c = '\t' then ['\\', 't']
  else if c = '\n' then ['\\', 'n']
  else if c = '\x0c' then ['\\', 'f']
  else if c = '\r' then ['\\', 'r']
  else if c = '"' then ['\\', '"']
  else ['\\', 'u', '0', '0', hexDigit (c.toNat / 16), hexDigit (c.toNat % 16)]

/-- The text of a string of one line, between double quotes. -/
def writeLine (s : List Char) : List Char :=
  s.flatMap fun c =>
    if isControl c ∨ c = '\\' ∨ c = '"' ∨ c = '\n' ∨ c = '\t' then escapeOf c else [c]

/-- The text of a string of several lines, between tripled double quotes, behind `quotes` quotes in
a row. The third quote in a row is escaped. -/
def writeBlock : (quotes : Nat) → List Char → List Char
  | _, [] => []
  | quotes, c :: rest =>
    if c = '"' then
      if quotes = spareQuotes then escapeOf c ++ writeBlock 0 rest
      else c :: writeBlock (quotes + 1) rest
    else if isControl c ∨ c = '\\' ∨ c = '\t' then escapeOf c ++ writeBlock 0 rest
    else c :: writeBlock 0 rest

/-- A text between tripled quotes, behind a line end if it has lines itself. -/
def inBlock (q : Char) (lines : Bool) (s : List Char) : List Char :=
  let quotes := [q, q, q]
  quotes ++ (if lines then ['\n'] else []) ++ s ++ quotes

/-- A text as a string, in the first of these ways that is fit for it: double quotes if nothing but
tabs needs an escape, single quotes, tripled double quotes if nothing but tabs needs an escape,
tripled single quotes, and at last double quotes, tripled if there are lines. -/
def write (s : List Char) : List Char :=
  let plain := !s.any isControl
  let lines := '\n' ∈ s
  let asLine := '"' :: writeLine s ++ ['"']
  let asBlock := inBlock '"' lines (writeBlock 0 s)
  if plain ∧ '\\' ∉ s ∧ '"' ∉ s ∧ !lines then asLine
  else if plain ∧ '\'' ∉ s ∧ !lines then '\'' :: s ++ ['\'']
  else if plain ∧ '\\' ∉ s ∧ longestRun '"' s ≤ spareQuotes then asBlock
  else if plain ∧ longestRun '\'' s ≤ spareQuotes then inBlock '\'' lines s
  else if lines then asBlock
  else asLine

end Switchboard.Toml.Text
