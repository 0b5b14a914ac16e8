import Switchboard.Toml.Document
import Switchboard.Toml.Scalar
import Switchboard.Toml.Text

/-!
# Reading TOML

A document is read line by line into statements, which `Toml.ofStatements` puts together. Arrays may
run over several lines, inline tables may not; neither may stand more than 79 deep inside one
another.

* `Toml.statements` reads the lines of a document.
* `Toml.parse?` reads a document.
-/

namespace Switchboard.Toml

/-! ## Blanks and comments -/

/-- Passes over spaces and tabs. -/
def skipSpace (s : List Char) : List Char := s.dropWhile Text.isSpace

/-- Whether a character may stand in a comment. -/
def isCommentChar (c : Char) : Bool := !Text.isControl c && c != '\n'

/-- Passes over a comment, if one begins here. -/
def skipComment : List Char → List Char
  | '#' :: rest => rest.dropWhile isCommentChar
  | s => s

/-- Passes over what may follow a statement, up to and with the end of its line. -/
def endLine (s : List Char) : Option (List Char) :=
  match skipComment (skipSpace s) with
  | [] => some []
  | s => Text.lineFeed s

/-- Passes over blanks, line ends and comments; `comment` tells whether a comment has begun. -/
def skipBlanks : (comment : Bool) → List Char → Option (List Char)
  | _, [] => some []
  | _, '\r' :: '\n' :: rest => skipBlanks false rest
  | true, c :: rest =>
    if c = '\n' then skipBlanks false rest
    else if isCommentChar c then skipBlanks true rest
    else none
  | false, c :: rest =>
    if Text.isSpace c ∨ c = '\n' then skipBlanks false rest
    else if c = '#' then skipBlanks true rest
    else some (c :: rest)

/-- Passes over a character that has to be there. -/
def expect (c : Char) : List Char → Option (List Char)
  | d :: rest => if c = d then some rest else none
  | [] => none

/-! ## Keys -/

/-- Whether a character may stand in a key without quotes. -/
def isBareChar (c : Char) : Bool := c.isAlphanum || c == '_' || c == '-'

/-- Reads a single key. -/
def simpleKey (s : List Char) : Option (String × List Char) :=
  match s with
  | '"' :: rest => (Text.readLine '"' rest).map fun (k, rest) => (String.ofList k, rest)
  | '\'' :: rest => (Text.readLine '\'' rest).map fun (k, rest) => (String.ofList k, rest)
  | s =>
    let key := s.takeWhile isBareChar
    if key = [] then none else some (String.ofList key, s.dropWhile isBareChar)

/-- Reads keys with dots between them. -/
def dottedKeys : (fuel : Nat) → List Char → Option (List String × List Char)
  | 0, _ => none
  | fuel + 1, s => do
    let (key, rest) ← simpleKey (skipSpace s)
    match skipSpace rest with
    | '.' :: rest =>
      let (keys, rest) ← dottedKeys fuel rest
      return (key :: keys, rest)
    | rest => return ([key], rest)

/-- The most keys that a path may have. -/
def maxPath : Nat := 79

/-- Reads keys with dots between them: those that lead to a table, and the last one. -/
def keyPath (s : List Char) : Option ((List String × String) × List Char) := do
  let (keys, rest) ← dottedKeys (s.length + 1) s
  match keys.getLast? with
  | some key => if keys.length ≤ maxPath then some ((keys.dropLast, key), rest) else none
  | none => none

/-! ## Values -/

/-- Reads an array behind its bracket, or behind an element's comma. -/
def arrayItems (read : List Char → Option (Toml × List Char)) :
    (fuel : Nat) → List Char → Option (List Toml × List Char)
  | 0, _ => none
  | fuel + 1, s => do
    match ← skipBlanks false s with
    | ']' :: rest => return ([], rest)
    | s =>
      let (v, rest) ← read s
      match ← skipBlanks false rest with
      | ']' :: rest => return ([v], rest)
      | ',' :: rest =>
        let (vs, rest) ← arrayItems read fuel rest
        return (v :: vs, rest)
      | _ => none

/-- Reads a key with its value. -/
def definition (read : List Char → Option (Toml × List Char)) (s : List Char) :
    Option (Definition × List Char) := do
  let ((path, key), rest) ← keyPath s
  let rest ← expect '=' rest
  let (value, rest) ← read (skipSpace rest)
  return (⟨path, key, value⟩, rest)

/-- Reads the entries of an inline table from one that has to be there. -/
def inlineEntries (read : List Char → Option (Toml × List Char)) :
    (fuel : Nat) → List Char → Option (List Definition × List Char)
  | 0, _ => none
  | fuel + 1, s => do
    let (d, rest) ← definition read s
    match skipSpace rest with
    | '\x7d' :: rest => return ([d], rest)
    | ',' :: rest =>
      let (ds, rest) ← inlineEntries read fuel rest
      return (d :: ds, rest)
    | _ => none

/-- Reads an inline table behind its brace. -/
def inlineTable (read : List Char → Option (Toml × List Char)) (s : List Char) :
    Option (Toml × List Char) :=
  match skipSpace s with
  | '\x7d' :: rest => some (.table [], rest)
  | s => do
    let (ds, rest) ← inlineEntries read (s.length + 1) s
    return (.table (← ofDefinitions ds), rest)

/-- Reads a value that enters at most `levels` arrays and inline tables. -/
def value : (levels : Nat) → List Char → Option (Toml × List Char)
  | levels, s =>
    match s with
    | '"' :: rest => (Text.read '"' rest).map fun (cs, rest) => (.str (String.ofList cs), rest)
    | '\'' :: rest => (Text.read '\'' rest).map fun (cs, rest) => (.str (String.ofList cs), rest)
    | '[' :: rest =>
      match levels with
      | 0 => none
      | levels + 1 =>
        (arrayItems (value levels) (rest.length + 1) rest).map fun (vs, rest) => (.arr vs, rest)
    | '\x7b' :: rest =>
      match levels with
      | 0 => none
      | levels + 1 => inlineTable (value levels) rest
    | s => word s

/-- How many arrays and inline tables may stand inside one another. -/
def maxDepth : Nat := 79

/-! ## Lines -/

/-- Reads a header behind its first bracket. -/
def header (s : List Char) : Option (Statement × List Char) :=
  match s with
  | '[' :: rest => do
    let ((path, key), rest) ← keyPath rest
    return (.element path key, ← expect ']' (← expect ']' rest))
  | rest => do
    let ((path, key), rest) ← keyPath rest
    return (.table path key, ← expect ']' rest)

/-- Reads a statement without the end of its line. -/
def statement (s : List Char) : Option (Statement × List Char) :=
  match s with
  | '[' :: rest => header rest
  | s => (definition (value maxDepth) s).map fun (d, rest) => (.entry d, rest)

/-- Whether a line holds no statement from here on. -/
def isBlankLine : List Char → Bool
  | [] => true
  | c :: _ => c == '\n' || c == '\r' || c == '#'

/-- Reads the lines of a document. -/
def statements : (fuel : Nat) → List Char → Option (List Statement)
  | 0, _ => none
  | fuel + 1, s =>
    match skipSpace s with
    | [] => some []
    | s => do
      if isBlankLine s then statements fuel (← endLine s)
      else
        let (first, rest) ← statement s
        return first :: (← statements fuel (← endLine rest))

/-- The mark that may stand in front of a document. -/
def byteOrderMark : Char := '\ufeff'

/-- Takes off the mark in front of a document. -/
def skipMark : List Char → List Char
  | [] => []
  | c :: rest => if c = byteOrderMark then rest else c :: rest

/-- The entries of a document. -/
def parse? (text : String) : Option (List Entry) := do
  let s := skipMark text.toList
  ofStatements (← statements (s.length + 1) s)

end Switchboard.Toml
