import Switchboard.Schema.Mismatch

/-!
# TOML values

The entries of a table stand in the order in which the document defines them. A date or a time is
kept as it is written; to a decoder it is a table of a form of its own.
-/

namespace Switchboard

/-- A TOML value. -/
inductive Toml
  | str (s : String)
  | int (n : Int)
  | float (x : Binary64)
  | bool (b : Bool)
  | moment (text : String)
  | arr (items : List Toml)
  | table (entries : List (String × Toml))
deriving Repr, Inhabited

namespace Toml

/-- A key with its value. -/
abbrev Entry := String × Toml

/-- What a value is at a glance. -/
def found : Toml → Found
  | .str s => .str s
  | .int n => .int n
  | .float x => .float x
  | .bool b => .bool b
  | .moment _ => .map
  | .arr _ => .sequence
  | .table _ => .map

end Toml
end Switchboard
