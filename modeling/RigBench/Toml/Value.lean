import RigBench.Binary64

/-!
Values of a TOML document. Dates and times are checked when they are read and then all alike.
-/
namespace RigBench.Toml

inductive Value
  | string (s : String)
  | integer (i : Int)
  | float (x : Binary64)
  | boolean (b : Bool)
  | datetime
  | array (items : List Value)
  /-- Keys in the order of their first appearance, none twice. -/
  | table (entries : List (String × Value))

abbrev Entries := List (String × Value)

end RigBench.Toml
