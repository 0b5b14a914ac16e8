import Switchboard.Cli.Options
import Switchboard.Cli.Report
import Switchboard.Config.Load
import Switchboard.Session.Error
import Switchboard.Text.ControlSequence

/-!
# The command line

The command merges its settings, checks them, and then either prints them or goes on to attach to
the local router. A setting is taken from the command line, else from the environment, else from
the configuration file, else from the defaults; only the merged settings are checked.

* `Options.toConfig` merges and checks.
* `plan` is what a command line amounts to.
-/

namespace Switchboard.Cli

/-- How a command ends. -/
structure Outcome where
  exitCode : Nat
  stdout : String := ""
  stderr : String := ""
deriving DecidableEq, Repr

/-- What a command line amounts to. -/
inductive Plan
  /-- There is nothing more to do. -/
  | done (outcome : Outcome)
  /-- The command attaches to the local router. -/
  | attach (config : Config) (router : Endpoint)
deriving DecidableEq, Repr

/-- Why settings are refused. -/
inductive ConfigFailure
  | load (path : String) (cause : Config.LoadError)
  | invalid (fault : Config.Fault)
deriving DecidableEq, Repr

/-! ## Settings -/

/-- The settings of the file, if one is named, or the defaults. -/
def Options.base (o : Options) (read : String → Except FileFault (List UInt8)) :
    Except ConfigFailure Config :=
  match o.config with
  | none => .ok {}
  | some path =>
    match Config.load path (read path) with
    | .ok c => .ok c
    | .error cause => .error (.load path cause)

/-- The settings with those put in that options give. -/
def Options.override (o : Options) (c : Config) : Config where
  logLevel := c.logLevel
  domain := ⟨o.domain.getD c.domain.name, o.realm.getD c.domain.realm⟩
  rpc := ⟨o.router.getD c.rpc.routerAddress, o.advertisePort.orElse fun _ => c.rpc.advertisePort⟩
  discovery := c.discovery
  routing := c.routing

/-- The merged settings, if they are of use. -/
def Options.toConfig (o : Options) (read : String → Except FileFault (List UInt8)) :
    Except ConfigFailure Config := do
  let c := o.override (← o.base read)
  match c.validate with
  | .ok () => .ok c
  | .error fault => .error (.invalid fault)

/-! ## Texts -/

/-- The name of the command. -/
def commandName : String := "backplane"

/-- The version of the command. -/
def version : String := "0.1.0"

/-- How to call the command. -/
def usage : String := "Usage: " ++ commandName ++ " [OPTIONS]\n"

/-- An option in the help, with what it is for on indented lines. -/
def helpEntry (option purpose : String) : String :=
  option ++ String.ofList (indentLines (List.replicate 10 ' ') ("\n" ++ purpose).toList) ++ "\n"

/-- A setting in the help, with the environment variable and its value. -/
def settingHelp (env : String → Option String) (s : Setting) : String :=
  let value := (env s.variableName).getD ""
  helpEntry ("      --" ++ s.name ++ " <" ++ s.placeholder ++ ">")
    (s.purpose ++ " [env: " ++ s.variableName ++ "=" ++ value ++ "]")

/-- The help. A value from the environment loses its control sequences. -/
def help (env : String → Option String) : String :=
  ControlSequence.strip
    ("Discovers peer domains over multicast and routes RPC calls between them\n\n" ++ usage
      ++ "\nOptions:\n" ++ String.join (Setting.all.map (settingHelp env))
      ++ helpEntry "      --print-config" "Print the effective configuration as TOML and exit"
      ++ helpEntry "  -h, --help" "Print help" ++ helpEntry "  -V, --version" "Print version")

/-- What is wrong with a command line, in words. -/
def Misuse.message : Misuse → String
  | unexpected argument => "unexpected argument '" ++ argument ++ "' found"
  | repeated option => "the argument '--" ++ option ++ "' cannot be used multiple times"
  | valueMissing option => "a value is required for '--" ++ option ++ "' but none was supplied"
  | valueUnwanted option => "unexpected value for '--" ++ option ++ "' found"
  | valueInvalid option value => "invalid value '" ++ value ++ "' for '--" ++ option ++ "'"

/-! ## Outcomes -/

/-- The outcome of a command line that is not understood. -/
def misused (m : Misuse) : Outcome where
  exitCode := 2
  stderr := "error: " ++ m.message ++ "\n\n" ++ usage

/-- The outcome of a failure with its causes. -/
def failed (failure : String) (causes : List String) : Outcome where
  exitCode := 1
  stderr := report failure causes

/-- The outcome of settings that are refused. -/
def refused : ConfigFailure → Outcome
  | .load path cause => failed ("failed to load config from " ++ path) cause.causes
  | .invalid fault => failed "invalid configuration" [fault.message]

/-- The outcome of printing settings. -/
def printed (c : Config) : Outcome :=
  match c.renderToml with
  | some text => { exitCode := 0, stdout := text }
  | none => failed Config.renderFailure ["out-of-range value for u64 type"]

/-- The outcome of a local router that cannot be attached to. -/
def detached (router : Endpoint) (e : SessionError) : Outcome :=
  failed ("cannot reach the local RPC router at " ++ router.render) e.causes

/-- What a command line amounts to. -/
def plan (arguments : List String) (env : String → Option String)
    (read : String → Except FileFault (List UInt8)) : Plan :=
  match Options.read arguments env with
  | .error .help => .done { exitCode := 0, stdout := help env }
  | .error .version => .done { exitCode := 0, stdout := commandName ++ " " ++ version ++ "\n" }
  | .error (.misuse m) => .done (misused m)
  | .ok o =>
    match o.toConfig read with
    | .error e => .done (refused e)
    | .ok c =>
      if o.printConfig then .done (printed c)
      else
        match c.routerAddress? with
        | .ok router => .attach c router
        | .error fault => .done (failed fault.message [])

end Switchboard.Cli
