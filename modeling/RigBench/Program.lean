import RigBench.Assembly
import RigBench.CommandLine
import RigBench.Config.Source

/-!
The program: what it makes of its arguments and files, and how it ends on a host.
-/
namespace RigBench

inductive Plan
  | print (text : String)
  | complain (fault : UsageFault)
  | fail (report : Report)
  | serve (config : Config)

/-- A configuration with the settings that arguments give in its place. -/
def Config.override (c : Config) (a : Arguments) : Config :=
  { c with
    server.bind := a.bind.getD c.server.bind
    control.keepalive := a.keepalive.getD c.control.keepalive }

namespace Plan

def printConfig (c : Config) : Except Report String :=
  match c.render with
  | .ok text => .ok text
  | .error e => .error ⟨"Failed to render configuration", [e.message, e.cause]⟩

def ofArguments (a : Arguments) (envPath : Option String) (files : Lookup) :
    Except Report Plan := do
  let c := (← (ConfigSource.choose a.config envPath files).load files).override a
  match c.validate with
  | .error e => .error ⟨"Invalid configuration", [e.message]⟩
  | .ok _ => if a.printConfig then return .print (← printConfig c) else return .serve c

/-- The plan for arguments, the path in the environment, and files. -/
def make (arguments : List String) (envPath : Option String) (files : Lookup) : Plan :=
  match Arguments.read arguments with
  | .error .help => .print CommandLine.help
  | .error .version => .print CommandLine.versionLine
  | .error (.usage fault) => .complain fault
  | .ok a =>
    match ofArguments a envPath files with
    | .ok plan => plan
    | .error report => .fail report

/-- Paths that a plan may look at. -/
def paths (arguments : List String) (envPath : Option String) : List String :=
  let named := match Arguments.read arguments with
    | .ok a => a.config.toList
    | .error _ => []
  named ++ envPath.toList ++ [ConfigSource.usualPath]

end Plan

structure Ending where
  code : UInt8
  output : String := ""
  errors : String := ""
  deriving DecidableEq

namespace Ending

def failure (r : Report) : Ending := { code := 1, errors := r.render }

def notListening (address : SocketAddress) (reason : String) : Ending :=
  failure ⟨"Failed to start TCP server",
    [(BenchError.io (.bindFailed address.render reason)).message]⟩

/-- The ending of a program that asks for more than can be allocated. -/
def crashed : Ending := { code := 101, errors := "capacity overflow\n" }

def notAssembled : AssemblyFault → Ending
  | .notReady e => failure ⟨"Failed to initialize control loop", [e.message]⟩
  | .notScheduled e => failure ⟨e.message, []⟩
  | .crashed => crashed

def ofRun : RunEnd → Ending
  | .finished => { code := 0 }
  | .failed e => failure ⟨"Scheduler faulted", [e.message]⟩
  | .crashed => failure ⟨"Scheduler thread failed", [Scheduler.crashError.message]⟩

/-- The ending of a plan that does not serve. -/
def ofPlan? : Plan → Option Ending
  | .print text => some { code := 0, output := text }
  | .complain fault => some { code := 2, errors := CommandLine.complaint fault }
  | .fail report => some (failure report)
  | .serve _ => none

end Ending
end RigBench
