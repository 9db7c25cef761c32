/-!
What went wrong, with the chain of its causes, as the program writes it when it fails.
-/
namespace RigBench

/-- What was not possible, and why; each cause is that of the one before. -/
structure Report where
  headline : String
  causes : List String := []
  deriving DecidableEq

namespace Report

/-- Lines of a text that begins after `first`; the others begin after as many blanks. -/
def indented (first text : String) : String :=
  let margin := String.ofList (List.replicate first.length ' ')
  first ++ ("\n" ++ margin).intercalate (text.splitOn "\n")

def numberMark (n : Nat) : String :=
  let digits := toString n
  String.ofList (List.replicate (5 - digits.length) ' ') ++ digits ++ ": "

/-- The causes below each other. One alone has no number. -/
def causeLines : List String → List String
  | [cause] => [indented "    " cause]
  | causes => causes.mapIdx fun n cause => indented (numberMark n) cause

def render (r : Report) : String :=
  let lines := ("Error: " ++ r.headline) ::
    if r.causes.isEmpty then [] else "" :: "Caused by:" :: causeLines r.causes
  "\n".intercalate lines ++ "\n"

end Report
end RigBench
