import Switchboard.Frame.Basic
import Switchboard.Text.Quoted

/-!
# Frames in messages

A frame that was not expected is shown with the names of its fields and the kinds of its values.
-/

namespace Switchboard

mutual

/-- A value with the kinds of its parts. -/
def Json.describe : Json → String
  | .null => "Null"
  | .bool b => "Bool(" ++ (if b then "true" else "false") ++ ")"
  | .num n => "Number(" ++ String.ofList (writeNumber n) ++ ")"
  | .str s => "String(" ++ Quoted.quote s ++ ")"
  | .arr items => "Array [" ++ ", ".intercalate (describeItems items) ++ "]"
  | .obj members => "Object \x7b" ++ ", ".intercalate (describeMembers members) ++ "\x7d"

/-- `describe` on every item. -/
def Json.describeItems : List Json → List String
  | [] => []
  | v :: rest => v.describe :: describeItems rest

/-- `describe` on every member, behind its name. -/
def Json.describeMembers : List Json.Member → List String
  | [] => []
  | (k, v) :: rest => (Quoted.quote k ++ ": " ++ v.describe) :: describeMembers rest

end

namespace Frame

/-- Positional arguments in words. -/
def describeArgs (args : Args) : String := "[" ++ ", ".intercalate (Json.describeItems args) ++ "]"

/-- Named arguments in words. -/
def describeKwArgs (kwargs : KwArgs) : String :=
  "\x7b" ++ ", ".intercalate (Json.describeMembers kwargs) ++ "\x7d"

/-- A word in words. -/
def describeWord (n : UInt64) : String := toString n.toNat

/-- The number of a registration in words. -/
def describeRegistration (n : UInt64) : String := "Registration(" ++ describeWord n ++ ")"

/-- A match mode in words. -/
def describeMode : MatchMode → String
  | .exact => "Exact"
  | .leading => "Prefix"

/-- A text that may be absent in words. -/
def describeOptional : Option String → String
  | none => "None"
  | some s => "Some(" ++ Quoted.quote s ++ ")"

/-- The fields of a frame in words, with their names. -/
def describeFields : Frame → List (String × String)
  | hello realm => [("realm", Quoted.quote realm)]
  | welcome session => [("session", describeWord session)]
  | abort message => [("message", Quoted.quote message)]
  | call request procedure args kwargs =>
    [("request", describeWord request), ("procedure", Quoted.quote procedure),
      ("args", describeArgs args), ("kwargs", describeKwArgs kwargs)]
  | result request args kwargs =>
    [("request", describeWord request), ("args", describeArgs args),
      ("kwargs", describeKwArgs kwargs)]
  | error request message =>
    [("request", describeWord request), ("message", Quoted.quote message)]
  | register request pattern mode =>
    [("request", describeWord request), ("pattern", Quoted.quote pattern),
      ("mode", describeMode mode)]
  | registered request registration =>
    [("request", describeWord request), ("registration", describeRegistration registration)]
  | unregister request registration =>
    [("request", describeWord request), ("registration", describeRegistration registration)]
  | unregistered request => [("request", describeWord request)]
  | invocation request registration procedure args kwargs =>
    [("request", describeWord request), ("registration", describeRegistration registration),
      ("procedure", describeOptional procedure), ("args", describeArgs args),
      ("kwargs", describeKwArgs kwargs)]
  | yield request args kwargs =>
    [("request", describeWord request), ("args", describeArgs args),
      ("kwargs", describeKwArgs kwargs)]

/-- A frame in words. -/
def describe (f : Frame) : String :=
  f.kind.title ++ " \x7b " ++
    ", ".intercalate (f.describeFields.map fun (name, value) => name ++ ": " ++ value) ++ " \x7d"

end Frame
end Switchboard
