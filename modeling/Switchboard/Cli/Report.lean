/-!
# Reports of failures

A failure is reported with what caused it, each cause on a line of its own, numbered if there are
several. The lines of a cause that has several are indented alike.
-/

namespace Switchboard.Cli

/-- Replaces every line feed by one that is followed by `indent`. -/
def indentLines (indent : List Char) (s : List Char) : List Char :=
  s.flatMap fun c => if c = '\n' then '\n' :: indent else [c]

/-- The number of a cause, right-aligned. -/
def causeNumber (n : Nat) : List Char :=
  let digits := Nat.toDigits 10 n
  List.replicate (5 - digits.length) ' ' ++ digits ++ [':', ' ']

/-- A cause on a line of its own. -/
def causeLine (number : Option Nat) (cause : String) : List Char :=
  match number with
  | some n => '\n' :: (causeNumber n ++ indentLines (List.replicate 7 ' ') cause.toList)
  | none =>
    let indent := List.replicate 4 ' '
    '\n' :: (indent ++ indentLines indent cause.toList)

/-- The lines of all causes. -/
def causeLines (causes : List String) : List Char :=
  match causes with
  | [] => []
  | [cause] => "\n\nCaused by:".toList ++ causeLine none cause
  | causes =>
    "\n\nCaused by:".toList ++
      (causes.zipIdx.flatMap fun (cause, n) => causeLine (some n) cause)

/-- A failure with its causes, the outermost first. -/
def report (failure : String) (causes : List String) : String :=
  "Error: " ++ failure ++ String.ofList (causeLines causes) ++ "\n"

end Switchboard.Cli
