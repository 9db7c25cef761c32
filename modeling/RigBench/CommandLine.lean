import RigBench.Duration.Text
import RigBench.SocketAddress

/-!
The arguments of the program. They are taken in from the left, and the first that asks for help or
the version, or that is wrong, decides; the value of an option is looked at when the next option
begins.
-/
namespace RigBench

inductive ValueOption
  | config
  | bind
  | keepalive
  | logLevel
  deriving DecidableEq

inductive Flag
  | printConfig
  | help
  | version
  deriving DecidableEq

structure Arguments where
  config : Option String := none
  bind : Option SocketAddress := none
  keepalive : Option Duration := none
  logLevel : Option String := none
  printConfig : Bool := false
  deriving DecidableEq

inductive UsageFault
  | unexpected (argument : String)
  | repeated (option : String)
  | valueMissing (option : String)
  | valueUnwanted (option value : String)
  | badValue (option value reason : String)
  deriving DecidableEq

inductive Interruption
  | help
  | version
  | usage (fault : UsageFault)
  deriving DecidableEq

namespace ValueOption

def all : List ValueOption := [config, bind, keepalive, logLevel]

/-- The name after two dashes. -/
def long : ValueOption → String
  | config => "config"
  | bind => "bind"
  | keepalive => "keepalive"
  | logLevel => "log-level"

/-- The letter after one dash. -/
def short? : ValueOption → Option Char
  | config => some 'c'
  | bind => some 'b'
  | keepalive => none
  | logLevel => some 'l'

def placeholder : ValueOption → String
  | config => "FILE"
  | bind => "ADDR"
  | keepalive => "DURATION"
  | logLevel => "LOG_LEVEL"

def usage (o : ValueOption) : String := "--" ++ o.long ++ " <" ++ o.placeholder ++ ">"

end ValueOption

namespace Flag

def all : List Flag := [printConfig, help, version]

def long : Flag → String
  | printConfig => "print-config"
  | help => "help"
  | version => "version"

def short? : Flag → Option Char
  | printConfig => none
  | help => some 'h'
  | version => some 'V'

end Flag

namespace UsageFault

def message : UsageFault → String
  | unexpected argument => "unexpected argument '" ++ argument ++ "' found"
  | repeated option => "the argument '" ++ option ++ "' cannot be used multiple times"
  | valueMissing option => "a value is required for '" ++ option ++ "' but none was supplied"
  | valueUnwanted option value =>
    "unexpected value '" ++ value ++ "' for '" ++ option ++ "' found; no more were expected"
  | badValue option value reason =>
    "invalid value '" ++ value ++ "' for '" ++ option ++ "': " ++ reason

end UsageFault

namespace Arguments

abbrev Reader (α : Type) := Except Interruption α

def refuse {α : Type} (fault : UsageFault) : Reader α := .error (.usage fault)

/-- Give an option its value, once. -/
def put (a : Arguments) (o : ValueOption) (value : String) : Reader Arguments :=
  let once := fun (free : Bool) (r : Reader Arguments) =>
    if free then r else refuse (.repeated o.usage)
  match o with
  | .config =>
    once a.config.isNone <|
      if value = "" then refuse (.valueMissing o.usage) else .ok { a with config := some value }
  | .bind =>
    once a.bind.isNone <| match SocketAddress.parse? value with
      | some address => .ok { a with bind := some address }
      | none => refuse (.badValue o.usage value "invalid socket address syntax")
  | .keepalive =>
    once a.keepalive.isNone <| match Duration.parse value with
      | .ok d => .ok { a with keepalive := some d }
      | .error e => refuse (.badValue o.usage value e.message)
  | .logLevel => once a.logLevel.isNone (.ok { a with logLevel := some value })

def raise (a : Arguments) : Flag → Reader Arguments
  | .printConfig =>
    if a.printConfig then refuse (.repeated "--print-config")
    else .ok { a with printConfig := true }
  | .help => .error .help
  | .version => .error .version

/-- Arguments read so far, and the option that waits for its value or has one not yet looked at. -/
structure Progress where
  arguments : Arguments := {}
  pending : Option (ValueOption × Option String) := none

namespace Progress

/-- Look at the value of the last option. -/
def settle (p : Progress) : Reader Arguments :=
  match p.pending with
  | none => .ok p.arguments
  | some (o, none) => refuse (.valueMissing o.usage)
  | some (o, some value) => p.arguments.put o value

def option (p : Progress) (o : ValueOption) (value : Option String) : Reader Progress := do
  let arguments ← p.settle
  match value with
  | some value => return { arguments := ← arguments.put o value }
  | none => return { arguments, pending := some (o, none) }

def flag (p : Progress) (f : Flag) : Reader Progress := do
  return { arguments := ← (← p.settle).raise f }

/-- Letters after one dash. A letter with a value takes the rest for it, an equals sign before it
is dropped. -/
def letters (p : Progress) : List Char → Reader Progress
  | [] => .ok p
  | c :: rest =>
    match ValueOption.all.find? (·.short? == some c) with
    | some o =>
      match rest with
      | [] => p.option o none
      | '=' :: value => p.option o (some (String.ofList value))
      | value => p.option o (some (String.ofList value))
    | none =>
      match Flag.all.find? (·.short? == some c) with
      | some f => do (← p.flag f).letters rest
      | none => refuse (.unexpected (String.ofList ['-', c]))

/-- A name after two dashes, with what follows an equals sign. -/
def word (p : Progress) (name : String) (value : Option String) : Reader Progress :=
  match ValueOption.all.find? (·.long == name), Flag.all.find? (·.long == name), value with
  | some o, _, _ => p.option o value
  | none, some f, none => p.flag f
  | none, some _, some value => refuse (.valueUnwanted ("--" ++ name) value)
  | none, none, _ => refuse (.unexpected ("--" ++ name))

/-- An argument that begins with no dash, or is only one: the value of the option before it. -/
def plain (p : Progress) (argument : String) : Reader Progress :=
  match p.pending with
  | some (o, none) => .ok { p with pending := some (o, some argument) }
  | _ => refuse (.unexpected argument)

def take (p : Progress) (argument : String) : Reader Progress :=
  match argument.toList with
  | '-' :: '-' :: cs =>
    let name := cs.takeWhile (· != '=')
    p.word (String.ofList name)
      (if name.length < cs.length then some (String.ofList (cs.drop (name.length + 1))) else none)
  | '-' :: c :: cs => p.letters (c :: cs)
  | _ => p.plain argument

end Progress

/-- All arguments; nothing may follow two bare dashes. -/
def readFrom (p : Progress) : List String → Reader Arguments
  | [] => p.settle
  | "--" :: rest =>
    match rest with
    | [] => p.settle
    | argument :: _ => refuse (.unexpected argument)
  | argument :: rest => do readFrom (← p.take argument) rest

def read (arguments : List String) : Reader Arguments := readFrom {} arguments

end Arguments

namespace CommandLine

def programName : String := "bench-server"

def version : String := "0.1.0"

def versionLine : String := programName ++ " " ++ version ++ "\n"

def help : String :=
  "Testbench server - streams trajectory set-points and rig measurements over TCP\n" ++
  "\n" ++
  "Usage: " ++ programName ++ " [OPTIONS]\n" ++
  "\n" ++
  "Options:\n" ++
  "  -c, --config <FILE>          Path to a configuration file (TOML)\n" ++
  "  -b, --bind <ADDR>            Listen address (overrides config file)\n" ++
  "      --keepalive <DURATION>   Keepalive window, e.g. \"500ms\" (overrides config file, " ++
    "0 disables)\n" ++
  "  -l, --log-level <LOG_LEVEL>  Log level (trace, debug, info, warn, error) [default: info]\n" ++
  "      --print-config           Print the effective configuration as TOML and exit\n" ++
  "  -h, --help                   Print help\n" ++
  "  -V, --version                Print version\n"

def complaint (fault : UsageFault) : String :=
  "error: " ++ fault.message ++ "\n\n" ++
  "Usage: " ++ programName ++ " [OPTIONS]\n\n" ++
  "For more information, try '--help'.\n"

end CommandLine
end RigBench
