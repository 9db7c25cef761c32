/-!
Socket addresses as text. An IPv6 address writes its longest run of zero groups, of two at least
and the first of equals, as `::`; an embedded IPv4 address of the mapped block keeps its dots.
-/
namespace RigBench

/-- An IP address by its bytes or 16-bit groups. -/
inductive IpAddress
  | v4 (a b c d : UInt8)
  | v6 (groups : Vector UInt16 8)
  deriving DecidableEq

/-- An address with a port. The scope belongs to IPv6 alone and is zero when there is none. -/
structure SocketAddress where
  ip : IpAddress
  port : UInt16
  scope : UInt32 := 0
  deriving DecidableEq

namespace SocketAddress

abbrev Reader (α : Type) := List Char → Option (α × List Char)

def digitValue? (base : Nat) (c : Char) : Option Nat :=
  let d :=
    if c.isDigit then some (c.toNat - 48)
    else if 'a' ≤ c && c ≤ 'z' then some (c.toNat - 87)
    else if 'A' ≤ c && c ≤ 'Z' then some (c.toNat - 55)
    else none
  d.filter (· < base)

/-- The digits at the front, at most `count` if there is a limit. -/
def takeDigits (base : Nat) (count : Option Nat) (cs : List Char) : List Nat × List Char :=
  match cs, count with
  | _, some 0 => ([], cs)
  | [], _ => ([], [])
  | c :: r, _ =>
    match digitValue? base c with
    | none => ([], cs)
    | some d =>
      let (ds, rest) := takeDigits base (count.map (· - 1)) r
      (d :: ds, rest)

def number (base : Nat) (count : Option Nat) (limit : Nat) : Reader Nat := fun cs =>
  match takeDigits base count cs with
  | ([], _) => none
  | (ds, rest) =>
    let n := ds.foldl (fun n d => n * base + d) 0
    if n < limit then some (n, rest) else none

def octet : Reader UInt8 := fun cs => do
  let (n, rest) ← number 10 (some 3) 256 cs
  if cs.head? == some '0' && cs.length - rest.length != 1 then none
  else return (.ofNat n, rest)

def expect (c : Char) : Reader Unit
  | d :: r => if c == d then some ((), r) else none
  | [] => none

def dotted : Reader (UInt8 × UInt8 × UInt8 × UInt8) := fun cs => do
  let (a, cs) ← octet cs
  let (_, cs) ← expect '.' cs
  let (b, cs) ← octet cs
  let (_, cs) ← expect '.' cs
  let (c, cs) ← octet cs
  let (_, cs) ← expect '.' cs
  let (d, cs) ← octet cs
  return ((a, b, c, d), cs)

def separated {α : Type} (first : Bool) (r : Reader α) : Reader α := fun cs =>
  if first then r cs else do
    let (_, cs) ← expect ':' cs
    r cs

def pair (a b : UInt8) : UInt16 := .ofNat (a.toNat * 256 + b.toNat)

/-- Groups of an IPv6 address, up to `room` of them. A dotted address may end them in place of two
groups; the flag says that it did. -/
def groups (room : Nat) (first : Bool) (cs : List Char) : List UInt16 × Bool × List Char :=
  match room with
  | 0 => ([], false, cs)
  | room + 1 =>
    match if room = 0 then none else separated first dotted cs with
    | some ((a, b, c, d), rest) => ([pair a b, pair c d], true, rest)
    | none =>
      match separated first (number 16 (some 4) 65536) cs with
      | some (g, rest) =>
        let (gs, dots, rest) := groups room false rest
        (.ofNat g :: gs, dots, rest)
      | none => ([], false, cs)

/-- An IPv6 address: eight groups, or fewer around one `::`. -/
def v6 : Reader (Vector UInt16 8) := fun cs =>
  let (front, dots, rest) := groups 8 true cs
  if h : front.length = 8 then some (⟨front.toArray, by simpa using h⟩, rest)
  else if dots then none
  else match rest with
    | ':' :: ':' :: rest =>
      let (back, _, rest) := groups (7 - front.length) true rest
      let zeros := List.replicate (8 - front.length - back.length) 0
      let all := front ++ zeros ++ back
      if h : all.length = 8 then some (⟨all.toArray, by simpa using h⟩, rest) else none
    | _ => none

def readPort : Reader UInt16 := fun cs => do
  let (_, cs) ← expect ':' cs
  let (n, cs) ← number 10 none 65536 cs
  return (.ofNat n, cs)

def readV4 : Reader SocketAddress := fun cs => do
  let ((a, b, c, d), cs) ← dotted cs
  let (port, cs) ← readPort cs
  return ({ ip := .v4 a b c d, port }, cs)

def readV6 : Reader SocketAddress := fun cs => do
  let (_, cs) ← expect '[' cs
  let (gs, cs) ← v6 cs
  let (scope, cs) ← match cs with
    | '%' :: r => (number 10 none 4294967296 r).map fun (n, rest) => (UInt32.ofNat n, rest)
    | _ => some (0, cs)
  let (_, cs) ← expect ']' cs
  let (port, cs) ← readPort cs
  return ({ ip := .v6 gs, port, scope }, cs)

def parse? (s : String) : Option SocketAddress :=
  let whole := fun (r : Reader SocketAddress) =>
    (r s.toList).bind fun (a, rest) => if rest.isEmpty then some a else none
  (whole readV4).or (whole readV6)

/-- A group in hexadecimal without zeros in front. -/
def hexGroup (g : UInt16) : List Char := Nat.toDigits 16 g.toNat

def decimal (n : Nat) : List Char := Nat.toDigits 10 n

def renderV4 (a b c d : UInt8) : List Char :=
  decimal a.toNat ++ '.' :: decimal b.toNat ++ '.' :: decimal c.toNat ++ '.' :: decimal d.toNat

def colons (gs : List UInt16) : List Char := (gs.map hexGroup).intersperse [':'] |>.flatten

def zeroRun (gs : List UInt16) : Nat := (gs.takeWhile (· == 0)).length

/-- Start and length of the longest run of zero groups, the first of equals. -/
def longestRun (gs : List UInt16) : Nat × Nat :=
  (List.range gs.length).foldl
    (fun best i => let n := zeroRun (gs.drop i); if best.2 < n then (i, n) else best) (0, 0)

def renderV6 (gs : List UInt16) : List Char :=
  match gs with
  | [0, 0, 0, 0, 0, 0xffff, g, h] =>
    "::ffff:".toList ++ renderV4 (.ofNat (g.toNat / 256)) (.ofNat g.toNat)
      (.ofNat (h.toNat / 256)) (.ofNat h.toNat)
  | _ =>
    let (start, count) := longestRun gs
    if 1 < count then colons (gs.take start) ++ ':' :: ':' :: colons (gs.drop (start + count))
    else colons gs

def render (a : SocketAddress) : String :=
  let tail := ':' :: decimal a.port.toNat
  String.ofList <| match a.ip with
    | .v4 w x y z => renderV4 w x y z ++ tail
    | .v6 gs =>
      let scope := if a.scope = 0 then [] else '%' :: decimal a.scope.toNat
      '[' :: renderV6 gs.toList ++ scope ++ ']' :: tail

end SocketAddress
end RigBench
