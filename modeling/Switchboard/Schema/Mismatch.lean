import Switchboard.Text.Quoted
import Switchboard.Number.Binary64

/-!
# Mismatches

A decoder that knows what it wants reads a value whose format lets it see what it got. `Found` is
what it got, as far as a message names it; `Expected` is what it wanted; `Mismatch` is every way
in which the two can disagree. The decoders of all formats share these types; the formats differ
only in how they write a float, which `Mismatch.message` takes as a parameter.
-/

namespace Switchboard

/-- What a decoder met, as far as a message names it. -/
inductive Found
  | null
  | bool (b : Bool)
  | int (n : Int)
  | float (x : Binary64)
  | str (s : String)
  | sequence
  | map
deriving DecidableEq, Repr

/-- What a decoder wanted. -/
inductive Expected
  /-- A text. -/
  | string
  /-- A natural number of sixteen bits. -/
  | word16
  /-- A natural number of 64 bits. -/
  | word64
  /-- A natural number of 64 bits that counts things. -/
  | count
  /-- A sequence of values. -/
  | sequence
  /-- A map from texts to values. -/
  | map
  /-- A sequence of exactly so many values. -/
  | tuple (size : Nat)
  /-- A record of the given name. -/
  | record (name : String)
  /-- The text that selects a variant. -/
  | variantName
  /-- A sum of the given name that carries its tag among its fields. -/
  | taggedSum (name : String)
  /-- The fields of one variant, so many of them. -/
  | variant (sum name : String) (size : Nat)
  /-- A sequence of exactly so many fields. -/
  | fields (size : Nat)
  /-- A bare variant name, or a map from it. -/
  | stringOrMap
  /-- A map from one variant name. -/
  | singletonMap
  /-- No value. -/
  | nothing
deriving DecidableEq, Repr

/-- A value that is not what its decoder wanted. -/
inductive Mismatch
  | invalidType (found : Found) (expected : Expected)
  | invalidValue (found : Found) (expected : Expected)
  | invalidLength (size : Nat) (expected : Expected)
  | missingField (name : String)
  | duplicateField (name : String)
  | unknownVariant (name : String) (known : List String)
deriving DecidableEq, Repr

/-! ## Texts -/

/-- A text between grave accents. -/
def Mismatch.marked (s : String) : String :=
  let mark := "\x60"
  mark ++ s ++ mark

/-- A found value in words; `float` writes its floats. -/
def Found.describe (float : Binary64 → String) : Found → String
  | .null => "null"
  | .bool b => "boolean " ++ Mismatch.marked (if b then "true" else "false")
  | .int n => "integer " ++ Mismatch.marked (toString n)
  | .float x => "floating point " ++ Mismatch.marked (float x)
  | .str s => "string " ++ Quoted.quote s
  | .sequence => "sequence"
  | .map => "map"

/-- A number of things with their noun. -/
def Expected.counted (n : Nat) : String :=
  if n = 1 then "1 element" else toString n ++ " elements"

/-- An expectation in words. -/
def Expected.describe : Expected → String
  | .string => "a string"
  | .word16 => "u16"
  | .word64 => "u64"
  | .count => "usize"
  | .sequence => "a sequence"
  | .map => "a map"
  | .tuple size => "a tuple of size " ++ toString size
  | .record name => "struct " ++ name
  | .variantName => "variant identifier"
  | .taggedSum name => "internally tagged enum " ++ name
  | .variant sum name size =>
    "struct variant " ++ sum ++ "::" ++ name ++ " with " ++ counted size
  | .fields size => counted size ++ " in sequence"
  | .stringOrMap => "string or map"
  | .singletonMap => "map with a single key"
  | .nothing => "unit"

/-- Known names as a choice. -/
def Mismatch.choice : List String → String
  | [] => "there are no variants"
  | [a] => "expected " ++ marked a
  | [a, b] => "expected " ++ marked a ++ " or " ++ marked b
  | known => "expected one of " ++ ", ".intercalate (known.map marked)

/-- A mismatch in words; `float` writes the floats in it. -/
def Mismatch.message (float : Binary64 → String) : Mismatch → String
  | .invalidType found expected =>
    "invalid type: " ++ found.describe float ++ ", expected " ++ expected.describe
  | .invalidValue found expected =>
    "invalid value: " ++ found.describe float ++ ", expected " ++ expected.describe
  | .invalidLength size expected =>
    "invalid length " ++ toString size ++ ", expected " ++ expected.describe
  | .missingField name => "missing field " ++ marked name
  | .duplicateField name => "duplicate field " ++ marked name
  | .unknownVariant name known => "unknown variant " ++ marked name ++ ", " ++ choice known

/-! ## Decoding what needs no further reading -/

namespace Found

/-- A text. -/
def asString : Found → Except Mismatch String
  | .str s => .ok s
  | f => .error (.invalidType f .string)

/-- A natural number below `bound`. -/
def asNatural (bound : Nat) (expected : Expected) : Found → Except Mismatch Nat
  | .int n =>
    if 0 ≤ n ∧ n.toNat < bound then .ok n.toNat else .error (.invalidValue (.int n) expected)
  | f => .error (.invalidType f expected)

/-- A natural number of sixteen bits. -/
def asWord16 (f : Found) : Except Mismatch UInt16 :=
  (f.asNatural UInt16.size .word16).map UInt16.ofNat

/-- A natural number of 64 bits. -/
def asWord64 (f : Found) : Except Mismatch UInt64 :=
  (f.asNatural UInt64.size .word64).map UInt64.ofNat

/-- A natural number of 64 bits that counts things. -/
def asCount (f : Found) : Except Mismatch UInt64 :=
  (f.asNatural UInt64.size .count).map UInt64.ofNat

/-- What `read` makes of it, or nothing for null. -/
def asOptional {α : Type} (read : Found → Except Mismatch α) : Found → Except Mismatch (Option α)
  | .null => .ok none
  | f => (read f).map some

end Found
end Switchboard
