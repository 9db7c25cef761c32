import RigBench.Duration
import RigBench.Text.Blank
import RigBench.Text.Quoted

/-!
Durations as people write them: numbers with units, `1h 30m` or `1.5h`. A month is a twelfth of a
year and a year has 365.25 days.
-/
namespace RigBench.Duration

/-- Why a text is no duration. Places count bytes. -/
inductive TextError
  | empty
  | numberExpected (place : Nat)
  | invalidCharacter (place : Nat)
  | unitNeeded (value : Nat)
  | unknownUnit (unit : String)
  /-- Too large, or finer than a nanosecond. -/
  | tooLarge
  deriving DecidableEq

namespace TextError

def message : TextError → String
  | empty => "value was empty"
  | numberExpected place => "expected number at " ++ toString place
  | invalidCharacter place => "invalid character at " ++ toString place
  | unitNeeded value =>
    "time unit needed, for example " ++ toString value ++ "sec or " ++ toString value ++ "ms"
  | unknownUnit unit =>
    "unknown time unit " ++ Text.quoted unit ++ ", supported units: ns, us/µs, ms, sec, min, " ++
      "hours, days, weeks, months, years (and few variations)"
  | tooLarge =>
    "number is too large or cannot be represented without a lack of precision " ++
      "(values below 1ns are not supported)"

end TextError

inductive TimeUnit
  | nanos (count : Nat)
  | seconds (count : Nat)
  deriving DecidableEq

def unitNames : List (List String × TimeUnit) :=
  [(["nanos", "nsec", "ns"], .nanos 1),
   (["usec", "us", "µs"], .nanos 1000),
   (["millis", "msec", "ms"], .nanos 1000000),
   (["seconds", "second", "secs", "sec", "s"], .seconds 1),
   (["minutes", "minute", "min", "mins", "m"], .seconds 60),
   (["hours", "hour", "hr", "hrs", "h"], .seconds 3600),
   (["days", "day", "d"], .seconds 86400),
   (["weeks", "week", "wk", "wks", "w"], .seconds 604800),
   (["months", "month", "M"], .seconds 2630016),
   (["years", "year", "yr", "yrs", "y"], .seconds 31557600)]

def unitOf? (name : String) : Option TimeUnit :=
  (unitNames.find? fun u => u.1.contains name).map (·.2)

/-- Numbers are kept below `2 ^ 64`. -/
def bounded (n : Nat) : Except TextError Nat :=
  if n < 18446744073709551616 then .ok n else .error .tooLarge

def addTo (sum : Nat × Nat) (seconds nanos : Nat) : Except TextError (Nat × Nat) := do
  let nanos ← bounded (sum.2 + nanos)
  let seconds ← bounded (sum.1 + seconds + nanos / nanosPerSecond)
  return (seconds, nanos % nanosPerSecond)

/-- A fraction after the point: its digits as a number and the power of ten they are over. -/
structure Fraction where
  numerator : Nat
  denominator : Nat
  deriving DecidableEq

/-- Add a number of units to a sum. A fraction must be whole in nanoseconds for units up to a
minute and in seconds above; nanoseconds have none. -/
def addUnits (sum : Nat × Nat) (n : Nat) (fraction : Option Fraction) (unit : TimeUnit) :
    Except TextError (Nat × Nat) := do
  let sum ← match unit with
    | .nanos count => do addTo sum 0 (← bounded (n * count))
    | .seconds count => do addTo sum (← bounded (n * count)) 0
  match fraction with
  | none => return sum
  | some f =>
    let (count, inNanos) := match unit with
      | .nanos count => (count, true)
      | .seconds count => if count ≤ 60 then (count * nanosPerSecond, true) else (count, false)
    if count = 1 && inNanos then .error .tooLarge
    else
      let product ← bounded (f.numerator * count)
      if product % f.denominator = 0 then
        let part := product / f.denominator
        if inNanos then addTo sum 0 part else addTo sum part 0
      else .error .tooLarge

def isUnitLetter (c : Char) : Bool :=
  ('a' ≤ c && c ≤ 'z') || ('A' ≤ c && c ≤ 'Z') || c == 'µ'

def digit (c : Char) : Nat := c.toNat - 48

structure Cursor where
  rest : List Char
  /-- Bytes before `rest`. -/
  place : Nat
  deriving DecidableEq

def Cursor.past (k : Cursor) (c : Char) (rest : List Char) : Cursor := ⟨rest, k.place + c.utf8Size⟩

/-- The first digit of a number after any white space. An error names the place before the white
space. -/
def firstDigit (place : Nat) (k : Cursor) : Except TextError (Option (Nat × Cursor)) :=
  match _h : k.rest with
  | [] => .ok none
  | c :: rest =>
    if c.isDigit then .ok (some (digit c, k.past c rest))
    else if Text.isBlank c then firstDigit place (k.past c rest)
    else .error (.numberExpected place)
termination_by k.rest.length
decreasing_by simp [_h, Cursor.past]

/-- The digits of a fraction up to its unit. An error names `place`, which is the point until
something follows it. White space within a number does not count. -/
def fractionDigits (f : Fraction) (place : Nat) (k : Cursor) :
    Except TextError (Fraction × Cursor) :=
  let finish : Except TextError (Fraction × Cursor) :=
    if f.denominator = 1 then .error (.invalidCharacter place) else .ok (f, k)
  match _h : k.rest with
  | [] => finish
  | c :: rest =>
    let k' := k.past c rest
    if c.isDigit then do
      let denominator ← bounded (f.denominator * 10)
      let numerator ← bounded (f.numerator * 10 + digit c)
      fractionDigits ⟨numerator, denominator⟩ k'.place k'
    else if Text.isBlank c then fractionDigits f k'.place k'
    else if isUnitLetter c then finish
    else .error (.invalidCharacter place)
termination_by k.rest.length
decreasing_by all_goals simp [_h, Cursor.past]

/-- A number after its first digit, up to its unit. -/
def numberTail (n : Nat) (k : Cursor) : Except TextError (Nat × Option Fraction × Cursor) :=
  match _h : k.rest with
  | [] => .ok (n, none, k)
  | c :: rest =>
    let k' := k.past c rest
    if c.isDigit then do
      numberTail (← bounded (n * 10 + digit c)) k'
    else if Text.isBlank c then numberTail n k'
    else if isUnitLetter c then .ok (n, none, k)
    else if c == '.' then do
      let (f, k) ← fractionDigits ⟨0, 1⟩ k.place k'
      return (n, some f, k)
    else .error (.invalidCharacter k.place)
termination_by k.rest.length
decreasing_by all_goals simp [_h, Cursor.past]

/-- The letters of a unit, and the first digit of the next number if that follows at once. -/
def unitLetters (k : Cursor) : Except TextError (List Char × Option Nat × Cursor) :=
  match _h : k.rest with
  | [] => .ok ([], none, k)
  | c :: rest =>
    let k' := k.past c rest
    if c.isDigit then .ok ([], some (digit c), k')
    else if Text.isBlank c then .ok ([], none, k')
    else if isUnitLetter c then do
      let (cs, next, k) ← unitLetters k'
      return (c :: cs, next, k)
    else .error (.invalidCharacter k.place)
termination_by k.rest.length
decreasing_by simp [_h, Cursor.past]

def unitAfter (n : Nat) (name : List Char) : Except TextError TimeUnit :=
  match unitOf? (String.ofList name) with
  | some unit => .ok unit
  | none => .error (if name.isEmpty then .unitNeeded n else .unknownUnit (String.ofList name))

/-- Numbers with their units from the second character of a number on. Each takes a character at
least. -/
def parts (fuel : Nat) (sum : Nat × Nat) (n : Nat) (k : Cursor) : Except TextError (Nat × Nat) :=
  match fuel with
  | 0 => .error .tooLarge
  | fuel + 1 => do
    let (n, fraction, k) ← numberTail n k
    let (name, next, k) ← unitLetters k
    let unit ← unitAfter n name
    let sum ← addUnits sum n fraction unit
    match next with
    | some d => parts fuel sum d k
    | none =>
      match ← firstDigit k.place k with
      | none => return sum
      | some (d, k) => parts fuel sum d k

/-- Read a duration. A zero needs no unit if it is all there is. -/
def parse (s : String) : Except TextError Duration :=
  if s = "0" then .ok .zero
  else do
    let cs := s.toList
    match ← firstDigit 0 ⟨cs, 0⟩ with
    | none => .error .empty
    | some (d, k) =>
      let (seconds, nanos) ← parts (cs.length + 1) (0, 0) d k
      match ofParts? seconds nanos with
      | some d => .ok d
      | none => .error .tooLarge

def part (n : Nat) (unit : String) : List String :=
  if n = 0 then [] else [toString n ++ unit]

def plural (n : Nat) (unit : String) : List String :=
  part n (if 1 < n then unit ++ "s" else unit)

def renderedParts (d : Duration) : List String :=
  let years := d.seconds / 31557600
  let ofYear := d.seconds % 31557600
  let months := ofYear / 2630016
  let ofMonth := ofYear % 2630016
  let days := ofMonth / 86400
  let ofDay := ofMonth % 86400
  let nanos := d.subsecNanos
  plural years "year" ++ plural months "month" ++ plural days "day" ++
    part (ofDay / 3600) "h" ++ part (ofDay % 3600 / 60) "m" ++ part (ofDay % 60) "s" ++
    part (nanos / 1000000) "ms" ++ part (nanos / 1000 % 1000) "us" ++ part (nanos % 1000) "ns"

def render (d : Duration) : String :=
  if d.isZero then "0s" else " ".intercalate d.renderedParts

end RigBench.Duration
