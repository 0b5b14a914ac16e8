import Switchboard.Schema.Record
import Switchboard.Toml.Value

/-!
# Decoding records from TOML

A record is a table of its fields, entries of other names being passed over. An array lists the
fields in their order; it may be too short or too long. A date or a time is a table of a form of its
own and holds none of the fields.
-/

namespace Switchboard.Toml

variable {α : Type}

/-- Decodes the entries of a record one after the other. -/
def assignEntries (assign : String → Toml → α → Except Mismatch α) (start : α)
    (entries : List Entry) : Except Mismatch α :=
  entries.foldlM (fun x (name, v) => assign name v x) start

/-- Decodes a flat record. -/
def flatRecord (r : Schema.Record α) : Toml → Except Mismatch α
  | .table entries => assignEntries (fun name v => r.assign name v.found) r.start entries
  | .arr items => assignEntries (fun name v => r.assign name v.found) r.start (r.names.zip items)
  | .moment _ => .ok r.start
  | v => .error (.invalidType v.found (.record r.name))

end Switchboard.Toml
