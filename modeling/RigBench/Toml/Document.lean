import RigBench.Toml.Scalar
import RigBench.Toml.Tables

/-!
Reading a whole TOML document.
-/
namespace RigBench.Toml

/-- White space, comments and line breaks between the items of an array. A comment must end its
line. -/
def skipLines (fuel : Nat) (cs : List Char) : List Char :=
  match fuel with
  | 0 => cs
  | fuel + 1 =>
    let cs := skipSpace cs
    match newline? (skipComment cs) with
    | some r => skipLines fuel r
    | none => cs

def inlineTable (pairs : List (List String × Value)) : Option Value := do
  let s ← pairs.foldlM (fun (s : Section) (path, v) => do
    let key ← path.getLast?
    s.define path.dropLast key v) {}
  return .table (toEntries s.entries)

/-- Arrays and inline tables are nested less than this deep. -/
def maxDepth : Nat := 80

mutual

def readValue (fuel depth : Nat) (cs : List Char) : Option (Value × List Char) :=
  match fuel with
  | 0 => none
  | fuel + 1 =>
    match cs with
    | '"' :: _ => (readString cs).map fun (s, rest) => (.string s, rest)
    | '\'' :: _ => (readString cs).map fun (s, rest) => (.string s, rest)
    | '[' :: r =>
      if maxDepth ≤ depth + 1 then none
      else (readItems fuel (depth + 1) r).map fun (xs, rest) => (.array xs, rest)
    | '\x7b' :: r =>
      if maxDepth ≤ depth + 1 then none
      else match skipSpace r with
        | '\x7d' :: rest => some (.table [], rest)
        | _ => do
          let (pairs, rest) ← readPairs fuel (depth + 1) r
          return (← inlineTable pairs, rest)
    | 't' :: 'r' :: 'u' :: 'e' :: r => some (.boolean true, r)
    | 'f' :: 'a' :: 'l' :: 's' :: 'e' :: r => some (.boolean false, r)
    | cs => readNumber cs

/-- The items of an array up to its bracket; a comma may follow the last one. -/
def readItems (fuel depth : Nat) (cs : List Char) : Option (List Value × List Char) :=
  match fuel with
  | 0 => none
  | fuel + 1 =>
    match skipLines cs.length cs with
    | ']' :: rest => some ([], rest)
    | cs => do
      let (v, rest) ← readValue fuel depth cs
      match skipLines rest.length rest with
      | ',' :: rest => do
        let (vs, rest) ← readItems fuel depth rest
        return (v :: vs, rest)
      | ']' :: rest => return ([v], rest)
      | _ => none

/-- The pairs of an inline table up to its brace. It has no line breaks and no comma at the end. -/
def readPairs (fuel depth : Nat) (cs : List Char) :
    Option (List (List String × Value) × List Char) :=
  match fuel with
  | 0 => none
  | fuel + 1 => do
    let (path, rest) ← readKey cs
    let (_, rest) ← expect '=' rest
    let (v, rest) ← readValue fuel depth (skipSpace rest)
    match skipSpace rest with
    | ',' :: rest => do
      let (pairs, rest) ← readPairs fuel depth rest
      return ((path, v) :: pairs, rest)
    | '\x7d' :: rest => return ([(path, v)], rest)
    | _ => none

end

def endLine (cs : List Char) : Option (List Char) :=
  match skipComment (skipSpace cs) with
  | [] => some []
  | cs => newline? cs

def header (brackets : Nat) (cs : List Char) : Option (List String × List Char) := do
  let (path, rest) ← readKey cs
  if rest.take brackets = List.replicate brackets ']' then
    return (path, ← endLine (rest.drop brackets))
  else none

/-- One line that is not blank: a header or a key with its value, which may go on for several
lines. -/
def readLine (b : Builder) (cs : List Char) : Option (Builder × List Char) :=
  match cs with
  | '[' :: '[' :: r => do
    let (path, rest) ← header 2 r
    return (← b.openListed path, rest)
  | '[' :: r => do
    let (path, rest) ← header 1 r
    return (← b.openTable path, rest)
  | cs => do
    let (path, rest) ← readKey cs
    let key ← path.getLast?
    let (_, rest) ← expect '=' rest
    let (v, rest) ← readValue (rest.length + 1) 0 (skipSpace rest)
    return (← b.define path.dropLast key v, ← endLine rest)

/-- All lines. Each has one character at least. -/
def readLines (fuel : Nat) (b : Builder) (cs : List Char) : Option Builder :=
  match fuel with
  | 0 => none
  | fuel + 1 =>
    let cs := skipSpace cs
    if cs.isEmpty then some b
    else match endLine cs with
      | some rest => readLines fuel b rest
      | none => do
        let (b, rest) ← readLine b cs
        readLines fuel b rest

def dropMark : List Char → List Char
  | '\ufeff' :: r => r
  | cs => cs

def parse? (s : String) : Option Entries := do
  let cs := dropMark s.toList
  (← readLines (cs.length + 1) {} cs).finish

end RigBench.Toml
