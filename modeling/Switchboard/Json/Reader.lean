import Switchboard.Json.Scan

/-!
# Reading JSON

Arrays and objects are read by one loop each, `elements` and `members`, which hand every element
and every member to a step that reads its value. Free values, records and frames differ in that
step only.

* `value` reads a free value; its first argument is how many levels of arrays and objects it may
  enter, so that the reader is a recursion on that number.
* `document` reads one value with nothing but blanks around it.
-/

namespace Switchboard.Json

/-- A defect as an error of reading. -/
def malformed {α : Type} : Except Defect α → Except Error α
  | .ok x => .ok x
  | .error d => .error (.malformed d)

/-- A mismatch as an error of reading. -/
def mismatched {α : Type} : Except Mismatch α → Except Error α
  | .ok x => .ok x
  | .error m => .error (.mismatch m)

/-! ## Arrays -/

/-- The input at the next element of an array, or `none` at its closing bracket. -/
def nextElement (first : Bool) (input : Input) : Except Defect (Option Input) :=
  match skipBlank input with
  | [] => .error .endInList
  | some ']' :: _ => .ok none
  | s :: rest =>
    if first then .ok (some (s :: rest))
    else if s = some ',' then
      match skipBlank rest with
      | [] => .error .endInValue
      | some ']' :: _ => .error .trailingComma
      | rest => .ok (some rest)
    else .error .expectedListCommaOrEnd

/-- Reads the closing bracket of an array of which no further element is wanted. -/
def endList (input : Input) : Except Defect Input :=
  match skipBlank input with
  | [] => .error .endInList
  | some ']' :: rest => .ok rest
  | some ',' :: rest =>
    match skipBlank rest with
    | some ']' :: _ => .error .trailingComma
    | _ => .error .trailingCharacters
  | _ => .error .trailingCharacters

/-- Reads the elements of an array, each with `step`, up to the closing bracket, which is left. -/
def elements {σ : Type} (step : σ → Input → Except Error (σ × Input)) :
    (fuel : Nat) → (first : Bool) → σ → Input → Except Error (σ × Input)
  | 0, _, _, _ => .error (.malformed .endInList)
  | fuel + 1, first, acc, input => do
    match ← malformed (nextElement first input) with
    | none => .ok (acc, input)
    | some input =>
      let (acc, rest) ← step acc input
      elements step fuel false acc rest

/-! ## Objects -/

/-- The next key of an object with the input behind it, or `none` at the closing brace. -/
def nextKey (first : Bool) (input : Input) : Except Defect (Option (String × Input)) :=
  match skipBlank input with
  | [] => .error .endInObject
  | some '\x7d' :: _ => .ok none
  | s :: rest =>
    if first then
      if s = some '"' then (string rest).map some else .error .keyMustBeString
    else if s = some ',' then
      match skipBlank rest with
      | [] => .error .endInValue
      | some '"' :: rest => (string rest).map some
      | some '\x7d' :: _ => .error .trailingComma
      | _ => .error .keyMustBeString
    else .error .expectedObjectCommaOrEnd

/-- The input behind the colon of a member. -/
def colon (input : Input) : Except Defect Input :=
  match skipBlank input with
  | [] => .error .endInObject
  | some ':' :: rest => .ok rest
  | _ => .error .expectedColon

/-- Reads the closing brace of an object. -/
def endObject (input : Input) : Except Defect Input :=
  match skipBlank input with
  | [] => .error .endInObject
  | some '\x7d' :: rest => .ok rest
  | some ',' :: _ => .error .trailingComma
  | _ => .error .trailingCharacters

/-- Reads the members of an object, each with `step` from behind its key on, up to the closing
brace, which is left. -/
def members {σ : Type} (step : σ → String → Input → Except Error (σ × Input)) :
    (fuel : Nat) → (first : Bool) → σ → Input → Except Error (σ × Input)
  | 0, _, _, _ => .error (.malformed .endInObject)
  | fuel + 1, first, acc, input => do
    match ← malformed (nextKey first input) with
    | none => .ok (acc, input)
    | some (key, input) =>
      let (acc, rest) ← step acc key input
      members step fuel false acc rest

/-! ## Free values -/

/-- Reads an array whose opening bracket the input is at. -/
def array {σ : Type} (step : σ → Input → Except Error (σ × Input)) (start : σ) (input : Input) :
    Except Error (σ × Input) := do
  let (acc, rest) ← elements step (input.length + 1) true start input.tail
  let rest ← malformed (endList rest)
  .ok (acc, rest)

/-- Reads an object whose opening brace the input is at. -/
def object {σ : Type} (step : σ → String → Input → Except Error (σ × Input)) (start : σ)
    (input : Input) :
    Except Error (σ × Input) := do
  let (acc, rest) ← members step (input.length + 1) true start input.tail
  let rest ← malformed (endObject rest)
  .ok (acc, rest)

/-- A scalar as a value. -/
def ofFound : Found → Json
  | .null => .null
  | .bool b => .bool b
  | .int n => .num (.int n)
  | .float x => .num (.float x)
  | .str s => .str s
  | .sequence => .arr []
  | .map => .obj []

/-- Reads a value that enters at most `levels` arrays and objects inside one another. -/
def value : (levels : Nat) → Input → Except Error (Json × Input)
  | levels, input => do
    match ← malformed (glimpse input) with
    | (.sequence, rest) =>
      match levels with
      | 0 => .error (.malformed .tooDeep)
      | levels + 1 =>
        let (items, rest) ← array
          (fun (acc : List Json) input => do
            let (v, rest) ← value levels input
            .ok (v :: acc, rest)) [] rest
        .ok (.arr items.reverse, rest)
    | (.map, rest) =>
      match levels with
      | 0 => .error (.malformed .tooDeep)
      | levels + 1 =>
        let (fields, rest) ← object
          (fun (acc : List Member) key input => do
            let input ← malformed (colon input)
            let (v, rest) ← value levels input
            .ok ((key, v) :: acc, rest)) [] rest
        .ok (.obj fields.reverse, rest)
    | (found, rest) => .ok (ofFound found, rest)

/-- How many arrays and objects may stand inside one another. -/
def maxDepth : Nat := 127

/-- Requires that only blanks are left. -/
def finish (input : Input) : Except Defect Unit :=
  if skipBlank input = [] then .ok () else .error .trailingCharacters

/-- Reads a text that holds one value. -/
def document (input : Input) : Except Error Json := do
  let (v, rest) ← value maxDepth input
  malformed (finish rest)
  .ok v

/-- Reads a text that holds one value. -/
def parse (text : String) : Except Error Json := document (Input.ofText text.toList)

end Switchboard.Json
