import Switchboard.Domain.Info

/-!
# Command line options

An option takes its value from the next argument, unless that one looks like an option itself, or
from behind an equals sign. Each option may be given once. What is not given is taken from the
environment, where a variable that is set counts, even an empty one.

* `Options.parse` reads arguments; it stops at the first one that is wrong or asks for help.
* `Options.complete` fills in from the environment.
-/

namespace Switchboard.Cli

/-- The options that take a value. -/
inductive Setting
  | config
  | domain
  | realm
  | router
  | advertisePort
deriving DecidableEq, Repr

/-- What the command line and the environment say. -/
structure Options where
  config : Option String := none
  domain : Option String := none
  realm : Option String := none
  router : Option String := none
  advertisePort : Option UInt16 := none
  printConfig : Bool := false
deriving DecidableEq, Repr

/-- What is wrong with a command line. -/
inductive Misuse
  | unexpected (argument : String)
  | repeated (option : String)
  | valueMissing (option : String)
  | valueUnwanted (option : String)
  | valueInvalid (option value : String)
deriving DecidableEq, Repr

/-- Why reading arguments ends before their end. -/
inductive Stop
  | help
  | version
  | misuse (m : Misuse)
deriving DecidableEq, Repr

namespace Setting

/-- All settings, in order. -/
def all : List Setting := [config, domain, realm, router, advertisePort]

/-- The name of the option. -/
def name : Setting → String
  | config => "config"
  | domain => "domain"
  | realm => "realm"
  | router => "router"
  | advertisePort => "advertise-port"

/-- The name of the value in the help. -/
def placeholder : Setting → String
  | config => "CONFIG"
  | domain => "DOMAIN"
  | realm => "REALM"
  | router => "ROUTER"
  | advertisePort => "ADVERTISE_PORT"

/-- The environment variable. -/
def variableName (s : Setting) : String := "BACKPLANE_" ++ s.placeholder

/-- What the option is for. -/
def purpose : Setting → String
  | config => "TOML config file.  Without one, built-in defaults apply"
  | domain =>
    "Domain name to announce; calls to " ++ "\x60<domain>/...\x60" ++ " reach this process"
  | realm => "Realm to join on the local router"
  | router => "Local RPC router address (ip:port)"
  | advertisePort => "Port other domains connect to; defaults to the router port"

end Setting

namespace Options

/-- A whole number with or without a sign. -/
def signedNumber? (text : String) : Option Int :=
  let number (negative : Bool) (digits : List Char) : Option Int :=
    if digits ≠ [] ∧ digits.all Char.isDigit then
      let n : Int := Nat.ofDigitChars 10 digits 0
      some (if negative then -n else n)
    else none
  match text.toList with
  | '+' :: digits => number false digits
  | '-' :: digits => number true digits
  | digits => number false digits

/-- A port. -/
def port? (text : String) : Option UInt16 :=
  match signedNumber? text with
  | some n => if 0 ≤ n ∧ n < UInt16.size then some (UInt16.ofNat n.toNat) else none
  | none => none

/-- Whether a setting has been given. -/
def has (o : Options) : Setting → Bool
  | .config => o.config.isSome
  | .domain => o.domain.isSome
  | .realm => o.realm.isSome
  | .router => o.router.isSome
  | .advertisePort => o.advertisePort.isSome

/-- Stores the value of a setting, if it is of use. -/
def assign (o : Options) (s : Setting) (value : String) : Except Misuse Options :=
  let invalid := .error (.valueInvalid s.name value)
  match s with
  | .config => if value = "" then invalid else .ok { o with config := some value }
  | .domain => .ok { o with domain := some value }
  | .realm => .ok { o with realm := some value }
  | .router => .ok { o with router := some value }
  | .advertisePort =>
    match port? value with
    | some port => .ok { o with advertisePort := some port }
    | none => invalid

/-- Stores a value given on the command line. -/
def give (o : Options) (s : Setting) (value : String) : Except Stop Options :=
  if o.has s then .error (.misuse (.repeated s.name))
  else
    match o.assign s value with
    | .ok o => .ok o
    | .error m => .error (.misuse m)

/-- An argument as the reader sees it. -/
inductive Argument
  /-- Two dashes and a name, with what stands behind an equals sign. -/
  | long (name : String) (value : Option String)
  /-- One dash and a letter. -/
  | short (letter : Char)
  /-- Two dashes alone. -/
  | separator
  | plain
deriving DecidableEq, Repr

/-- What an argument is. -/
def classify (argument : String) : Argument :=
  match argument.toList with
  | '-' :: '-' :: [] => .separator
  | '-' :: '-' :: rest =>
    let name := String.ofList (rest.takeWhile (· != '='))
    match rest.dropWhile (· != '=') with
    | [] => .long name none
    | _ :: value => .long name (some (String.ofList value))
  | '-' :: letter :: _ => .short letter
  | _ => .plain

/-- What an option without a value does. -/
def flag (o : Options) (argument name : String) (value : Option String) : Except Stop Options :=
  if name ≠ "print-config" ∧ name ≠ "help" ∧ name ≠ "version" then
    .error (.misuse (.unexpected argument))
  else if value.isSome then .error (.misuse (.valueUnwanted name))
  else if name = "help" then .error .help
  else if name = "version" then .error .version
  else if o.printConfig then .error (.misuse (.repeated name))
  else .ok { o with printConfig := true }

/-- What an option of one letter does. -/
def letterFlag (argument : String) (letter : Char) : Stop :=
  if letter = 'h' then .help
  else if letter = 'V' then .version
  else .misuse (.unexpected argument)

/-- Reads arguments. -/
def parse (o : Options) : List String → Except Stop Options
  | [] => .ok o
  | argument :: rest =>
    match classify argument with
    | .plain => .error (.misuse (.unexpected argument))
    | .short letter => .error (letterFlag argument letter)
    | .separator =>
      match rest with
      | [] => .ok o
      | extra :: _ => .error (.misuse (.unexpected extra))
    | .long name value =>
      match Setting.all.find? (·.name == name), value with
      | none, _ => do parse (← o.flag argument name value) rest
      | some s, some value => do parse (← o.give s value) rest
      | some s, none =>
        match rest with
        | [] => .error (.misuse (.valueMissing name))
        | value :: rest =>
          if classify value = .plain then do parse (← o.give s value) rest
          else .error (.misuse (.valueMissing name))

/-- Takes a setting that has not been given from the environment. -/
def completeSetting (env : String → Option String) (o : Options) (s : Setting) :
    Except Misuse Options :=
  if o.has s then .ok o
  else
    match env s.variableName with
    | some value => o.assign s value
    | none => .ok o

/-- Takes what has not been given from the environment. -/
def complete (env : String → Option String) (o : Options) : Except Misuse Options :=
  Setting.all.foldlM (completeSetting env) o

/-- What arguments and environment say together. -/
def read (arguments : List String) (env : String → Option String) : Except Stop Options := do
  let o ← parse {} arguments
  match o.complete env with
  | .ok o => .ok o
  | .error m => .error (.misuse m)

end Options
end Switchboard.Cli
