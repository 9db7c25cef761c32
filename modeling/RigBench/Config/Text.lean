import RigBench.Config.Reader

/-!
Configurations written as TOML documents: four sections with a blank line between, a line for each
key.
-/
namespace RigBench.Config

structure Line where
  key : String
  value : String
  deriving DecidableEq

structure Block where
  name : String
  lines : List Line
  deriving DecidableEq

def stringLine (key value : String) : Line := ⟨key, "\"" ++ value ++ "\""⟩
def countLine (key : String) (n : Nat) : Line := ⟨key, toString n⟩
def boolLine (key : String) (b : Bool) : Line := ⟨key, toString b⟩
def durationLine (key : String) (d : Duration) : Line := stringLine key d.render

def blocks (c : Config) : List Block :=
  [⟨"server",
    [stringLine "bind" c.server.bind.render,
     countLine "worker_threads" c.server.workerThreads,
     countLine "queue_capacity" c.server.queueCapacity]⟩,
   ⟨"control",
    [durationLine "period" c.control.period,
     durationLine "step" c.control.step,
     durationLine "keepalive" c.control.keepalive,
     boolLine "handle_frames_in_tick" c.control.handleFramesInTick,
     durationLine "link_poll_period" c.control.linkPollPeriod,
     boolLine "stop_on_disconnect" c.control.stopOnDisconnect]⟩,
   ⟨"scheduler",
    [stringLine "on_overrun" c.scheduler.onOverrun.name,
     countLine "histogram_size" c.scheduler.histogramSize]⟩,
   ⟨"rig",
    [stringLine "kind" c.rig.kind.name,
     durationLine "time_constant" c.rig.timeConstant]⟩]

def Line.render (l : Line) : String := l.key ++ " = " ++ l.value ++ "\n"

def Block.render (b : Block) : String :=
  "[" ++ b.name ++ "]\n" ++ String.join (b.lines.map Line.render)

def renderBlocks (bs : List Block) : String := "\n".intercalate (bs.map Block.render)

/-- Integers of the format end below this. -/
def countLimit : Nat := 9223372036854775808

/-- Write a configuration; counts past the integers of the format have no text. -/
def render (c : Config) : Except ConfigError String :=
  if [c.server.workerThreads, c.server.queueCapacity, c.scheduler.histogramSize].all
      (· < countLimit) then
    .ok (renderBlocks c.blocks)
  else .error .outOfRange

end RigBench.Config
