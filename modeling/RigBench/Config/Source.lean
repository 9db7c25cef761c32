import RigBench.Config.Text
import RigBench.Report
import RigBench.Text.Quoted

/-!
Where a configuration comes from. The first of an argument, a variable of the environment and a
file in its usual place decides; of the last two only a path that leads to something counts.
Without any of them every setting has its default.
-/
namespace RigBench

inductive ConfigSource
  | argument (path : String)
  | environment (path : String)
  | usual
  | defaults
  deriving DecidableEq

namespace ConfigSource

def usualPath : String := "config/default.toml"

/-- The source there is, by the path of the argument and that of the environment. -/
def choose (argument envPath : Option String) (files : Lookup) : ConfigSource :=
  match argument, envPath.filter files.exists? with
  | some path, _ => .argument path
  | none, some path => .environment path
  | none, none => if files.exists? usualPath then usual else defaults

def path? : ConfigSource → Option String
  | argument path | environment path => some path
  | usual => some usualPath
  | defaults => none

def variableName : String := "BENCH_CONFIG_PATH"

def headline (s : ConfigSource) : String :=
  "Failed to load config from " ++ match s with
    | argument path => Text.quotedPath path
    | environment path => variableName ++ "=" ++ Text.quoted path
    | usual => Text.quotedPath usualPath
    | defaults => "defaults"

def load (s : ConfigSource) (files : Lookup) : Except Report Config :=
  match s.path? with
  | none => .ok {}
  | some path =>
    match Config.load files path with
    | .ok c => .ok c
    | .error e => .error ⟨s.headline, [e.message, e.cause]⟩

end ConfigSource
end RigBench
