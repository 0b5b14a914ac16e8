/-!
# Patterns of provided procedures

A handler is provided for one procedure, or for all procedures that begin with a text.
-/

namespace Switchboard

/-- How a pattern selects procedures. -/
inductive MatchMode
  /-- The procedure is the pattern. -/
  | exact
  /-- The procedure begins with the pattern. -/
  | leading
deriving DecidableEq, Repr

namespace MatchMode

/-- Whether a pattern selects a procedure. -/
def selects (mode : MatchMode) (pattern procedure : String) : Bool :=
  match mode with
  | .exact => pattern == procedure
  | .leading => pattern.toList.isPrefixOf procedure.toList

/-- The name of a mode. -/
def name : MatchMode → String
  | .exact => "exact"
  | .leading => "prefix"

/-- All names of modes, in order. -/
def names : List String := ["exact", "prefix"]

/-- The mode of a name. -/
def ofName? : String → Option MatchMode
  | "exact" => some .exact
  | "prefix" => some .leading
  | _ => none

end MatchMode
end Switchboard
