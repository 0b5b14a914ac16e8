import Switchboard.Schema.Mismatch

/-!
# Flat records

A flat record has named fields, each of which is a single scalar. Its description is shared by the
formats that carry it: a field says what a found scalar does to the record, and the record starts
from its default, so that a missing field keeps its default value.
-/

namespace Switchboard.Schema

/-- A field of a record of type `α`: its name, and what a found value does to the record. -/
structure Field (α : Type) where
  name : String
  assign : Found → α → Except Mismatch α

/-- A record of scalars: its name in messages, its fields in order, and its default. -/
structure Record (α : Type) where
  name : String
  fields : List (Field α)
  start : α

namespace Record

variable {α : Type}

/-- The names of the fields, in order. -/
def names (r : Record α) : List String := r.fields.map Field.name

/-- What a found value does to the record as the value of field `name`. -/
def assign (r : Record α) (name : String) (found : Found) (x : α) : Except Mismatch α :=
  match r.fields.find? (·.name == name) with
  | some field => field.assign found x
  | none => .ok x

end Record

/-- A field that `read` decodes and `put` stores. -/
def Field.of {α β : Type} (name : String) (read : Found → Except Mismatch β) (put : β → α → α) :
    Field α :=
  ⟨name, fun found x => (read found).map fun b => put b x⟩

end Switchboard.Schema
