import RigBench.Config
import RigBench.Decimal.Layout
import RigBench.Duration.Text
import RigBench.FileTree
import RigBench.Toml.Document

/-!
Configurations from TOML documents. Entries are read in the order of the document and the first
that does not fit is the error; keys that mean nothing are passed over.
-/
namespace RigBench

inductive Found
  | integer (i : Int)
  | float (x : Binary64)
  | boolean (b : Bool)
  | string (s : String)
  | sequence
  | map
  deriving DecidableEq

inductive ReadError
  | invalidType (found : Found) (expected : String)
  /-- A count below zero. -/
  | negative (i : Int)
  | unknownVariant (name : String) (expected : List String)
  | notAnEnum
  /-- A table for an enum must have one key. -/
  | keyCount (count : Nat)
  /-- The value under the key of such a table must be an empty one. -/
  | notEmpty (what : String)
  | notATable (found : String)
  | badAddress
  | badDuration (e : Duration.TextError)
  deriving DecidableEq

namespace Found

def describe : Found → String
  | integer i => "integer `" ++ toString i ++ "`"
  | float x => "floating point `" ++ Decimal.render Decimal.pointed x ++ "`"
  | boolean b => "boolean `" ++ toString b ++ "`"
  | string s => "string " ++ Text.quoted s
  | sequence => "sequence"
  | map => "map"

def ofValue : Toml.Value → Found
  | .string s => string s
  | .integer i => integer i
  | .float x => float x
  | .boolean b => boolean b
  | .datetime => map
  | .array _ => sequence
  | .table _ => map

end Found

namespace ReadError

/-- Names in a row: two with `or`, more after `one of`. -/
def alternatives (names : List String) : String :=
  let ticked := names.map fun n => "`" ++ n ++ "`"
  match ticked with
  | [a, b] => a ++ " or " ++ b
  | _ => "one of " ++ ", ".intercalate ticked

def message : ReadError → String
  | invalidType found expected =>
    "invalid type: " ++ found.describe ++ ", expected " ++ expected
  | negative i => "invalid value: integer `" ++ toString i ++ "`, expected usize"
  | unknownVariant name expected =>
    "unknown variant `" ++ name ++ "`, expected " ++ alternatives expected
  | notAnEnum => "wanted string or table"
  | keyCount count =>
    if count = 0 then "wanted exactly 1 element, found 0 elements"
    else "wanted exactly 1 element, more than 1 element"
  | notEmpty what => "expected empty " ++ what
  | notATable found => "expected table, found " ++ found
  | badAddress => "invalid socket address syntax"
  | badDuration e => e.message

end ReadError

namespace Config

abbrev Read (α : Type) := Except ReadError α

def mismatch {α : Type} (v : Toml.Value) (expected : String) : Read α :=
  .error (.invalidType (.ofValue v) expected)

def readCount : Toml.Value → Read Nat
  | .integer i => if i < 0 then .error (.negative i) else .ok i.toNat
  | v => mismatch v "usize"

def readBool : Toml.Value → Read Bool
  | .boolean b => .ok b
  | v => mismatch v "a boolean"

def readDuration : Toml.Value → Read Duration
  | .string s =>
    match Duration.parse s with
    | .ok d => .ok d
    | .error e => .error (.badDuration e)
  | v => mismatch v "a string"

def readAddress : Toml.Value → Read SocketAddress
  | .string s =>
    match SocketAddress.parse? s with
    | some a => .ok a
    | none => .error .badAddress
  | v => mismatch v "socket address"

def readVariant {α : Type} (all : List α) (name : α → String) (s : String) : Read α :=
  match all.find? (name · == s) with
  | some a => .ok a
  | none => .error (.unknownVariant s (all.map name))

/-- What may stand under the name in a table: an empty table or array. -/
def readUnit : Toml.Value → Read Unit
  | .table [] => .ok ()
  | .table _ => .error (.notEmpty "table")
  | .array [] => .ok ()
  | .array _ => .error (.notEmpty "array")
  | .string _ => .error (.notATable "string")
  | .integer _ => .error (.notATable "integer")
  | .float _ => .error (.notATable "float")
  | .boolean _ => .error (.notATable "boolean")
  | .datetime => .error (.notATable "datetime")

/-- A name, or a table with that name for its only key. -/
def readEnum {α : Type} (all : List α) (name : α → String) : Toml.Value → Read α
  | .string s => readVariant all name s
  | .table [(key, v)] => do
    let a ← readVariant all name key
    readUnit v
    return a
  | .table entries => .error (.keyCount entries.length)
  | _ => .error .notAnEnum

/-- A field of a section: its key and how its value changes the section. -/
structure Field (σ : Type) where
  key : String
  read : Toml.Value → σ → Read σ

def field {σ α : Type} (key : String) (read : Toml.Value → Read α) (put : α → σ → σ) : Field σ :=
  ⟨key, fun v s => (read v).map (put · s)⟩

/-- The entries of a table, each for the field of its key. -/
def readEntries {σ : Type} (fields : List (Field σ)) (entries : Toml.Entries) (s : σ) : Read σ :=
  entries.foldlM (fun s (key, v) =>
    match fields.find? (·.key == key) with
    | some f => f.read v s
    | none => .ok s) s

/-- A section: a table, or an array of values for the fields in order. Fields left out keep their
value, and a date has none of them. -/
def readSection {σ : Type} (name : String) (fields : List (Field σ)) (v : Toml.Value) (s : σ) :
    Read σ :=
  match v with
  | .table entries => readEntries fields entries s
  | .array items => (fields.zip items).foldlM (fun s (f, v) => f.read v s) s
  | .datetime => .ok s
  | v => mismatch v ("struct " ++ name)

def serverFields : List (Field ServerConfig) :=
  [field "bind" readAddress fun a s => { s with bind := a },
   field "worker_threads" readCount fun n s => { s with workerThreads := n },
   field "queue_capacity" readCount fun n s => { s with queueCapacity := n }]

def controlFields : List (Field ControlConfig) :=
  [field "period" readDuration fun d s => { s with period := d },
   field "step" readDuration fun d s => { s with step := d },
   field "keepalive" readDuration fun d s => { s with keepalive := d },
   field "handle_frames_in_tick" readBool fun b s => { s with handleFramesInTick := b },
   field "link_poll_period" readDuration fun d s => { s with linkPollPeriod := d },
   field "stop_on_disconnect" readBool fun b s => { s with stopOnDisconnect := b }]

def schedulerFields : List (Field SchedulerConfig) :=
  [field "on_overrun" (readEnum OverrunPolicy.all OverrunPolicy.name)
     fun p s => { s with onOverrun := p },
   field "histogram_size" readCount fun n s => { s with histogramSize := n }]

def rigFields : List (Field RigConfig) :=
  [field "kind" (readEnum RigKind.all RigKind.name) fun k s => { s with kind := k },
   field "time_constant" readDuration fun d s => { s with timeConstant := d }]

def sectionField {σ : Type} (key name : String) (fields : List (Field σ)) (get : Config → σ)
    (put : σ → Config → Config) : Field Config :=
  ⟨key, fun v c => (readSection name fields v (get c)).map (put · c)⟩

def sections : List (Field Config) :=
  [sectionField "server" "ServerConfig" serverFields Config.server fun s c => { c with server := s },
   sectionField "control" "ControlConfig" controlFields Config.control
     fun s c => { c with control := s },
   sectionField "scheduler" "SchedulerConfig" schedulerFields Config.scheduler
     fun s c => { c with scheduler := s },
   sectionField "rig" "RigConfig" rigFields Config.rig fun s c => { c with rig := s }]

def ofEntries (entries : Toml.Entries) : Read Config := readEntries sections entries {}

end Config

inductive ConfigError
  | unreadable (path : String) (fault : FileFault)
  | notToml
  | misfit (e : ReadError)
  | outOfRange
  deriving DecidableEq

namespace ConfigError

/-- What an error comes down to. -/
def cause : ConfigError → String
  | unreadable _ fault => fault.message
  | notToml => "not a TOML document"
  | misfit e => e.message
  | outOfRange => "out-of-range value for u64 type"

def message : ConfigError → String
  | unreadable path fault => "failed to read config file " ++ path ++ ": " ++ fault.message
  | e@notToml | e@(misfit _) => "failed to parse TOML: " ++ e.cause
  | outOfRange => "failed to serialize TOML: " ++ outOfRange.cause

end ConfigError

namespace Config

def parse (s : String) : Except ConfigError Config :=
  match Toml.parse? s with
  | none => .error .notToml
  | some entries =>
    match ofEntries entries with
    | .ok c => .ok c
    | .error e => .error (.misfit e)

def load (files : Lookup) (path : String) : Except ConfigError Config :=
  match files.text path with
  | .ok s => parse s
  | .error e => .error (.unreadable path e)

end Config
end RigBench
