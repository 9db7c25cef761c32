import RigBench.Decimal.Nearest
import RigBench.Toml.Value

/-!
Keys, strings, numbers, dates and times of a TOML document. A reader takes what it reads off the
front of a text, or fails.
-/
namespace RigBench.Toml

abbrev Reader (α : Type) := List Char → Option (α × List Char)

def isSpace (c : Char) : Bool := c == ' ' || c == '\t'

def skipSpace (cs : List Char) : List Char := cs.dropWhile isSpace

/-- May stand in a comment or a string: a tab or no control character. -/
def isPlain (c : Char) : Bool := c == '\t' || (32 ≤ c.toNat && c.toNat != 127)

/-- A line feed, alone or after a carriage return. -/
def newline? : List Char → Option (List Char)
  | '\n' :: r => some r
  | '\r' :: '\n' :: r => some r
  | _ => none

def skipComment : List Char → List Char
  | '#' :: r => r.dropWhile isPlain
  | cs => cs

def hexValue? (c : Char) : Option Nat :=
  if c.isDigit then some (c.toNat - 48)
  else if 'a' ≤ c && c ≤ 'f' then some (c.toNat - 87)
  else if 'A' ≤ c && c ≤ 'F' then some (c.toNat - 55)
  else none

/-- The character of hexadecimal digits; surrogates are none. -/
def codePoint? (digits : List Char) : Option Char := do
  let n ← digits.foldlM (fun n c => (hexValue? c).map (n * 16 + ·)) 0
  if n.isValidChar then some (.ofNat n) else none

def escape? : Char → Option Char
  | 'b' => some '\x08'
  | 't' => some '\t'
  | 'n' => some '\n'
  | 'f' => some '\x0c'
  | 'r' => some '\r'
  | '"' => some '"'
  | '\\' => some '\\'
  | _ => none

def consTo (c : Char) (r : Option (List Char × List Char)) : Option (List Char × List Char) :=
  r.map fun (cs, rest) => (c :: cs, rest)

def basicBody : Reader (List Char)
  | [] => none
  | '"' :: r => some ([], r)
  | '\\' :: 'u' :: a :: b :: c :: d :: r => do
    consTo (← codePoint? [a, b, c, d]) (basicBody r)
  | '\\' :: 'U' :: a :: b :: c :: d :: e :: f :: g :: h :: r => do
    consTo (← codePoint? [a, b, c, d, e, f, g, h]) (basicBody r)
  | '\\' :: e :: r => do consTo (← escape? e) (basicBody r)
  | c :: r => if c == '\\' || !isPlain c then none else consTo c (basicBody r)

/-- A string in single quotes after the first of them. Nothing is escaped in it. -/
def literalBody : Reader (List Char)
  | [] => none
  | '\'' :: r => some ([], r)
  | c :: r => if isPlain c then consTo c (literalBody r) else none

/-- What remains of the quotes that end a string of several lines: up to two more than three are
part of it. -/
def closing (quote : Char) : List Char → Option (List Char × List Char)
  | a :: b :: c :: d :: e :: r =>
    if a == quote && b == quote && c == quote then
      if d == quote then
        if e == quote then some ([quote, quote], r) else some ([quote], e :: r)
      else some ([], d :: e :: r)
    else none
  | [a, b, c, d] =>
    if a == quote && b == quote && c == quote then
      if d == quote then some ([quote], []) else some ([], [d])
    else none
  | [a, b, c] => if a == quote && b == quote && c == quote then some ([], []) else none
  | _ => none

def endsLine (cs : List Char) : Bool := (newline? (skipSpace cs)).isSome

/-- A string of several lines in double quotes, after the opening. A backslash at the end of a line
joins it with the next text; `trim` says that this is being looked for. -/
def linesBody (trim : Bool) : Reader (List Char)
  | [] => none
  | '\n' :: r => if trim then linesBody true r else consTo '\n' (linesBody false r)
  | '\r' :: '\n' :: r => if trim then linesBody true r else consTo '\n' (linesBody false r)
  | '"' :: r =>
    match closing '"' ('"' :: r) with
    | some found => some found
    | none => consTo '"' (linesBody false r)
  | '\\' :: 'u' :: a :: b :: c :: d :: r => do
    consTo (← codePoint? [a, b, c, d]) (linesBody false r)
  | '\\' :: 'U' :: a :: b :: c :: d :: e :: f :: g :: h :: r => do
    consTo (← codePoint? [a, b, c, d, e, f, g, h]) (linesBody false r)
  | '\\' :: e :: r =>
    match escape? e with
    | some c => consTo c (linesBody false r)
    | none => if endsLine (e :: r) then linesBody true (e :: r) else none
  | c :: r =>
    if trim && isSpace c then linesBody true r
    else if c == '\\' || !isPlain c then none
    else consTo c (linesBody false r)

def literalLinesBody : Reader (List Char)
  | [] => none
  | '\n' :: r => consTo '\n' (literalLinesBody r)
  | '\r' :: '\n' :: r => consTo '\n' (literalLinesBody r)
  | '\'' :: r =>
    match closing '\'' ('\'' :: r) with
    | some found => some found
    | none => consTo '\'' (literalLinesBody r)
  | c :: r => if isPlain c then consTo c (literalLinesBody r) else none

/-- A line break right after the opening quotes is not part of the string. -/
def afterOpening (cs : List Char) : List Char := (newline? cs).getD cs

def readString (cs : List Char) : Option (String × List Char) :=
  let found := match cs with
    | '"' :: '"' :: '"' :: r => linesBody false (afterOpening r)
    | '"' :: r => basicBody r
    | '\'' :: '\'' :: '\'' :: r => literalLinesBody (afterOpening r)
    | '\'' :: r => literalBody r
    | _ => none
  found.map fun (s, rest) => (String.ofList s, rest)

/-- May stand in a key without quotes. -/
def isBare (c : Char) : Bool := c.isAlphanum || c == '-' || c == '_'

def keyPart (cs : List Char) : Option (String × List Char) :=
  let found := match cs with
    | '"' :: r => basicBody r
    | '\'' :: r => literalBody r
    | cs =>
      match cs.takeWhile isBare with
      | [] => none
      | bare => some (bare, cs.dropWhile isBare)
  found.map fun (s, rest) => (String.ofList s, rest)

/-- A key of at most `count` parts with dots between them, with the white space around each. -/
def keyParts (count : Nat) (cs : List Char) : Option (List String × List Char) :=
  match count with
  | 0 => none
  | count + 1 => do
    let (part, rest) ← keyPart (skipSpace cs)
    match skipSpace rest with
    | '.' :: r => do
      let (parts, rest) ← keyParts count r
      return (part :: parts, rest)
    | rest => return ([part], rest)

/-- Keys have fewer than 80 parts. -/
def readKey (cs : List Char) : Option (List String × List Char) := keyParts 79 cs

/-- Digits after the first, each with an underscore before it or not. -/
def moreDigits (isDigit : Char → Bool) : Reader (List Char)
  | '_' :: c :: r => if isDigit c then consTo c (moreDigits isDigit r) else none
  | c :: r =>
    if c == '_' then none
    else if isDigit c then consTo c (moreDigits isDigit r)
    else some ([], c :: r)
  | [] => some ([], [])

def someDigits (isDigit : Char → Bool) : Reader (List Char)
  | c :: r => if isDigit c then consTo c (moreDigits isDigit r) else none
  | [] => none

/-- A sign; `true` is minus. -/
def readSign : List Char → Bool × List Char
  | '-' :: r => (true, r)
  | '+' :: r => (false, r)
  | cs => (false, cs)

/-- A whole number in decimal: a zero alone or digits that start with none. -/
def readWhole (cs : List Char) : Option ((Bool × List Char) × List Char) :=
  let (negative, cs) := readSign cs
  let digits := match cs with
    | '0' :: r => some (['0'], r)
    | cs => someDigits Char.isDigit cs
  digits.map fun (ds, rest) => ((negative, ds), rest)

def valueOf (base : Nat) (digits : List Char) : Nat :=
  digits.foldl (fun n c => n * base + (hexValue? c).getD 0) 0

/-- Integers have 64 bits. -/
def boundedInt? (negative : Bool) (n : Nat) : Option Int :=
  if negative then if n ≤ 9223372036854775808 then some (-n) else none
  else if n < 9223372036854775808 then some n else none

/-- An integer in base 10, 16, 8 or 2. Only decimal ones have a sign. -/
def readInteger (cs : List Char) : Option (Int × List Char) :=
  let based := fun base r => do
    let (ds, rest) ← someDigits (fun c => ((hexValue? c).filter (· < base)).isSome) r
    return (← boundedInt? false (valueOf base ds), rest)
  match cs with
  | '0' :: 'x' :: r => based 16 r
  | '0' :: 'o' :: r => based 8 r
  | '0' :: 'b' :: r => based 2 r
  | cs => do
    let ((negative, ds), rest) ← readWhole cs
    return (← boundedInt? negative (valueOf 10 ds), rest)

def readFraction : List Char → Option (List Char × List Char)
  | '.' :: r => someDigits Char.isDigit r
  | _ => none

def readExponent : List Char → Option (Int × List Char)
  | e :: r =>
    if e == 'e' || e == 'E' then
      let (negative, r) := readSign r
      (someDigits Char.isDigit r).map fun (ds, rest) =>
        ((if negative then -valueOf 10 ds else valueOf 10 ds : Int), rest)
    else none
  | [] => none

def readNamedFloat (cs : List Char) : Option (Binary64 × List Char) :=
  let (negative, cs) := readSign cs
  let found : Option (Binary64 × List Char) := match cs with
    | 'i' :: 'n' :: 'f' :: r => some (⟨0x7ff0000000000000⟩, r)
    | 'n' :: 'a' :: 'n' :: r => some (⟨0x7ff8000000000000⟩, r)
    | _ => none
  found.map fun (x, rest) => (if negative then -x else x, rest)

/-- A number with a fraction or an exponent. One that rounds to positive infinity is none. -/
def readDecimalFloat (cs : List Char) : Option (Binary64 × List Char) := do
  let ((negative, whole), cs) ← readWhole cs
  let finish := fun fraction exponent rest =>
    let x := Decimal.nearest negative (valueOf 10 (whole ++ fraction)) (exponent - fraction.length)
    if x.isFinite || negative then some (x, rest) else none
  match readFraction cs with
  | some (fraction, cs) =>
    match readExponent cs with
    | some (exponent, rest) => finish fraction exponent rest
    | none => finish fraction 0 cs
  | none =>
    let (exponent, rest) ← readExponent cs
    finish [] exponent rest

/-- A number of exactly so many digits within bounds. -/
def fixedDigits (count low high : Nat) (cs : List Char) : Option (Nat × List Char) :=
  let ds := cs.take count
  if ds.length = count && ds.all Char.isDigit then
    let n := valueOf 10 ds
    if low ≤ n && n ≤ high then some (n, cs.drop count) else none
  else none

def expect (c : Char) : List Char → Option (Unit × List Char)
  | d :: r => if c == d then some ((), r) else none
  | [] => none

def daysIn (year month : Nat) : Nat :=
  if month = 2 then
    if year % 4 = 0 && (year % 100 != 0 || year % 400 = 0) then 29 else 28
  else if [4, 6, 9, 11].contains month then 30
  else 31

def readDate (cs : List Char) : Option (Unit × List Char) := do
  let (year, cs) ← fixedDigits 4 0 9999 cs
  let (_, cs) ← expect '-' cs
  let (month, cs) ← fixedDigits 2 1 12 cs
  let (_, cs) ← expect '-' cs
  let (_, cs) ← fixedDigits 2 1 (daysIn year month) cs
  return ((), cs)

def readTime (cs : List Char) : Option (Unit × List Char) := do
  let (_, cs) ← fixedDigits 2 0 23 cs
  let (_, cs) ← expect ':' cs
  let (_, cs) ← fixedDigits 2 0 59 cs
  let (_, cs) ← expect ':' cs
  let (_, cs) ← fixedDigits 2 0 60 cs
  match cs with
  | '.' :: c :: r => return ((), if c.isDigit then r.dropWhile Char.isDigit else cs)
  | _ => return ((), cs)

def readOffset : List Char → Option (Unit × List Char)
  | c :: r =>
    if c == 'Z' || c == 'z' then some ((), r)
    else if c == '+' || c == '-' then do
      let (_, r) ← fixedDigits 2 0 23 r
      let (_, r) ← expect ':' r
      let (_, r) ← fixedDigits 2 0 59 r
      return ((), r)
    else none
  | [] => none

/-- A date, a time, or both with an offset or without. -/
def readDatetime (cs : List Char) : Option (Unit × List Char) :=
  match readDate cs with
  | none => readTime cs
  | some (_, cs) =>
    let timed := match cs with
      | c :: r => if c == 'T' || c == 't' || c == ' ' then readTime r else none
      | [] => none
    match timed with
    | none => some ((), cs)
    | some (_, rest) => (readOffset rest).or (some ((), rest))

def readNumber (cs : List Char) : Option (Value × List Char) :=
  match readDatetime cs with
  | some (_, rest) => some (.datetime, rest)
  | none =>
    match (readDecimalFloat cs).or (readNamedFloat cs) with
    | some (x, rest) => some (.float x, rest)
    | none => (readInteger cs).map fun (i, rest) => (.integer i, rest)

end RigBench.Toml
