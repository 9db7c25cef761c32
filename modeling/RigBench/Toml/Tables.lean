import RigBench.Toml.Value

/-!
How the tables of a document grow while it is read. A table may be opened by a header, by a dotted
key, or only be implied by the header of a table inside it; what may still be added depends on
that.
-/
namespace RigBench.Toml

inductive Node
  /-- A value after an equals sign. It is closed. -/
  | leaf (v : Value)
  /-- A table. `implied` ones have no header of their own, `dotted` ones come from dotted keys. -/
  | table (implied dotted : Bool) (entries : List (String × Node))
  /-- Tables under one header in double brackets. -/
  | tables (items : List (List (String × Node)))

structure Section where
  implied : Bool := false
  dotted : Bool := false
  entries : List (String × Node) := []

mutual

def Node.toValue : Node → Value
  | .leaf v => v
  | .table _ _ entries => .table (toEntries entries)
  | .tables items => .array (toTables items)

def toEntries : List (String × Node) → Entries
  | [] => []
  | (k, n) :: r => (k, n.toValue) :: toEntries r

def toTables : List (List (String × Node)) → List Value
  | [] => []
  | t :: r => .table (toEntries t) :: toTables r

end

namespace Section

def find? (s : Section) (key : String) : Option Node :=
  (s.entries.find? (·.1 == key)).map (·.2)

def append (s : Section) (key : String) (n : Node) : Section :=
  { s with entries := s.entries ++ [(key, n)] }

def replace (s : Section) (key : String) (n : Node) : Section :=
  { s with entries := s.entries.map fun e => if e.1 == key then (key, n) else e }

def remove (s : Section) (key : String) : Section :=
  { s with entries := s.entries.filter (·.1 != key) }

def toNode (s : Section) : Node := .table s.implied s.dotted s.entries

/-- Change the table at the end of a path, with a second result. Tables missing on the way are
implied; a list of tables stands for its last one. Dotted keys do not pass through tables that
have a header. -/
def change {α : Type} (byDots : Bool) (path : List String) (f : Section → Option (α × Section))
    (s : Section) : Option (α × Section) :=
  match path with
  | [] => f s
  | key :: path =>
    match s.find? key with
    | none => do
      let (a, inner) ← change byDots path f { implied := true, dotted := byDots }
      return (a, s.append key inner.toNode)
    | some (.leaf _) => none
    | some (.tables items) => do
      let last ← items.getLast?
      let (a, inner) ← change byDots path f { entries := last }
      return (a, s.replace key (.tables (items.dropLast ++ [inner.entries])))
    | some (.table implied dotted entries) =>
      if byDots && !implied then none
      else do
        let (a, inner) ← change byDots path f { implied, dotted, entries }
        return (a, s.replace key inner.toNode)

/-- Add the value of a key. The table of a dotted key must come from dotted keys too, and no key
is given twice. -/
def define (s : Section) (path : List String) (key : String) (v : Value) : Option Section :=
  (s.change true path fun t =>
    if t.dotted == path.isEmpty then none
    else if (t.find? key).isSome then none
    else some ((), t.append key (.leaf v))).map (·.2)

end Section

/-- A document under construction: all tables that are complete, and the open one with its path.
`listed` says that its header has double brackets. -/
structure Builder where
  root : Section := {}
  current : Section := {}
  path : List String := []
  listed : Bool := false

namespace Builder

/-- Put the open table into its place. -/
def close (b : Builder) : Option Section :=
  match b.path.getLast? with
  | none => some b.current
  | some key =>
    (b.root.change false b.path.dropLast fun parent =>
      if b.listed then
        match parent.find? key with
        | some (.tables items) =>
          some ((), parent.replace key (.tables (items ++ [b.current.entries])))
        | _ => none
      else
        match parent.find? key with
        | none => some ((), parent.append key b.current.toNode)
        | some _ => none).map (·.2)

/-- Open the table of a header. One that was only implied so far moves behind the others. -/
def openTable (b : Builder) (path : List String) : Option Builder := do
  let root ← b.close
  let key ← path.getLast?
  let (current, root) ← root.change false path.dropLast fun parent =>
    match parent.find? key with
    | none => some (({} : Section), parent)
    | some (.table true false entries) => some ({ entries }, parent.remove key)
    | some _ => none
  return { root, current, path, listed := false }

/-- Open one more table of a list. -/
def openListed (b : Builder) (path : List String) : Option Builder := do
  let root ← b.close
  let key ← path.getLast?
  let (_, root) ← root.change false path.dropLast fun parent =>
    match parent.find? key with
    | none => some ((), parent.append key (.tables []))
    | some (.tables _) => some ((), parent)
    | some _ => none
  return { root, current := {}, path, listed := true }

def define (b : Builder) (path : List String) (key : String) (v : Value) : Option Builder := do
  return { b with current := ← b.current.define path key v }

def finish (b : Builder) : Option Entries := b.close.map (toEntries ·.entries)

end Builder
end RigBench.Toml
