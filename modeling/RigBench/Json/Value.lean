import RigBench.Json.Number

/-!
JSON documents and their reader. A text whose escapes leave half of a surrogate pair has no
characters; such a text is read, but it is no text.
-/
namespace RigBench.Json

/-- A JSON value. Members of an object keep their order, also when a key repeats. -/
inductive Value
  | null
  | bool (b : Bool)
  | number (n : Number)
  | string (text : Option String)
  | array (items : List Value)
  | object (members : List (Option String × Value))

def isSpace (c : Char) : Bool := c == ' ' || c == '\n' || c == '\t' || c == '\r'

def skipSpace (cs : List Char) : List Char := cs.dropWhile isSpace

def hexValue? (c : Char) : Option Nat :=
  if c.isDigit then some (c.toNat - 48)
  else if 'a' ≤ c && c ≤ 'f' then some (c.toNat - 87)
  else if 'A' ≤ c && c ≤ 'F' then some (c.toNat - 55)
  else none

/-- A piece of a text: a character, or a code unit given by its number. -/
abbrev Piece := Char ⊕ Nat

/-- Join code units to characters; half a surrogate pair spoils the text. -/
def joinPieces : List Piece → Option (List Char)
  | [] => some []
  | .inl c :: r => (joinPieces r).map (c :: ·)
  | .inr u :: r =>
    if 0xd800 ≤ u && u < 0xdc00 then
      match r with
      | .inr v :: r' =>
        if 0xdc00 ≤ v && v < 0xe000 then
          (joinPieces r').map (Char.ofNat (0x10000 + (u - 0xd800) * 0x400 + (v - 0xdc00)) :: ·)
        else none
      | _ => none
    else if 0xdc00 ≤ u && u < 0xe000 then none
    else (joinPieces r).map (Char.ofNat u :: ·)

def readPieces : List Char → Option (List Piece × List Char)
  | [] => none
  | '"' :: r => some ([], r)
  | '\\' :: 'u' :: a :: b :: c :: d :: r => do
    let u := (← hexValue? a) * 4096 + (← hexValue? b) * 256 + (← hexValue? c) * 16 + (← hexValue? d)
    let (ps, rest) ← readPieces r
    return (.inr u :: ps, rest)
  | '\\' :: e :: r => do
    let c ← match e with
      | '"' => some '"'
      | '\\' => some '\\'
      | '/' => some '/'
      | 'b' => some '\x08'
      | 'f' => some '\x0c'
      | 'n' => some '\n'
      | 'r' => some '\r'
      | 't' => some '\t'
      | _ => none
    let (ps, rest) ← readPieces r
    return (.inl c :: ps, rest)
  | c :: r =>
    if c == '\\' || c.toNat < 32 then none
    else do
      let (ps, rest) ← readPieces r
      return (.inl c :: ps, rest)

def readText (cs : List Char) : Option (Option String × List Char) := do
  let (ps, rest) ← readPieces cs
  return ((joinPieces ps).map String.ofList, rest)

def takeDigits (cs : List Char) : List Nat × List Char :=
  ((cs.takeWhile Char.isDigit).map fun c => c.toNat - 48, cs.dropWhile Char.isDigit)

def someDigits (cs : List Char) : Option (List Nat × List Char) :=
  match takeDigits cs with
  | ([], _) => none
  | found => some found

/-- A number; more than one digit does not start with a zero. -/
def readNumber (cs : List Char) : Option (Number × List Char) := do
  let (negative, cs) := match cs with
    | '-' :: r => (true, r)
    | _ => (false, cs)
  let (whole, cs) ← someDigits cs
  if whole.head? == some 0 && whole.length != 1 then none
  let (fraction, cs) ← match cs with
    | '.' :: r => (someDigits r).map fun (ds, rest) => (some ds, rest)
    | _ => some (none, cs)
  let (exponent, cs) ← match cs with
    | e :: r =>
      if e == 'e' || e == 'E' then
        let (sign, r) := match r with
          | '-' :: r' => (true, r')
          | '+' :: r' => (false, r')
          | _ => (false, r)
        (someDigits r).map fun (ds, rest) => (some (sign, ds), rest)
      else some (none, cs)
    | [] => some (none, cs)
  return (⟨negative, whole, fraction, exponent⟩, cs)

mutual

/-- A value at the front of a text, nested at most `fuel` deep. -/
def readValue (fuel : Nat) (cs : List Char) : Option (Value × List Char) :=
  match fuel with
  | 0 => none
  | fuel + 1 =>
    match skipSpace cs with
    | 'n' :: 'u' :: 'l' :: 'l' :: r => some (.null, r)
    | 't' :: 'r' :: 'u' :: 'e' :: r => some (.bool true, r)
    | 'f' :: 'a' :: 'l' :: 's' :: 'e' :: r => some (.bool false, r)
    | '"' :: r => (readText r).map fun (t, rest) => (.string t, rest)
    | '[' :: r =>
      match skipSpace r with
      | ']' :: rest => some (.array [], rest)
      | _ => (readItems fuel r).map fun (xs, rest) => (.array xs, rest)
    | '\x7b' :: r =>
      match skipSpace r with
      | '\x7d' :: rest => some (.object [], rest)
      | _ => (readMembers fuel r).map fun (xs, rest) => (.object xs, rest)
    | cs => (readNumber cs).map fun (n, rest) => (.number n, rest)

def readItems (fuel : Nat) (cs : List Char) : Option (List Value × List Char) :=
  match fuel with
  | 0 => none
  | fuel + 1 => do
    let (x, rest) ← readValue fuel cs
    match skipSpace rest with
    | ']' :: rest => some ([x], rest)
    | ',' :: rest => do
      let (xs, rest) ← readItems fuel rest
      some (x :: xs, rest)
    | _ => none

def readMembers (fuel : Nat) (cs : List Char) : Option (List (Option String × Value) × List Char) :=
  match fuel with
  | 0 => none
  | fuel + 1 => do
    let (key, rest) ← match skipSpace cs with
      | '"' :: r => readText r
      | _ => none
    let rest ← match skipSpace rest with
      | ':' :: r => some r
      | _ => none
    let (x, rest) ← readValue fuel rest
    match skipSpace rest with
    | '\x7d' :: rest => some ([(key, x)], rest)
    | ',' :: rest => do
      let (xs, rest) ← readMembers fuel rest
      some ((key, x) :: xs, rest)
    | _ => none

end

def parse? (s : String) : Option Value := do
  let cs := s.toList
  let (v, rest) ← readValue (cs.length + 1) cs
  if (skipSpace rest).isEmpty then some v else none

end RigBench.Json
