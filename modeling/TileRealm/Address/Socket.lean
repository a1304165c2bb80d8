import TileRealm.Text.Numeral

/-!
# Socket addresses

The address on which to listen: an IPv4 address or an IPv6 address in brackets, and a port.  An
IPv6 address is written with its longest run of zero groups left out.
-/

namespace TileRealm

/-- Where to listen. -/
inductive SocketAddress where
  /-- The octets of an IPv4 address. -/
  | v4 (a b c d : UInt8) (port : UInt16)
  /-- The groups of an IPv6 address, and its scope. -/
  | v6 (groups : List UInt16) (scope : UInt32) (port : UInt16)
deriving DecidableEq, Repr

namespace SocketAddress

/-! ### Reading -/

/-- A step that takes something from the front of a text or fails. -/
abbrev Scan (α : Type) := List Char → Option (α × List Char)

/-- Take a certain character. -/
def scanChar (c : Char) : Scan Unit
  | d :: rest => if d = c then some ((), rest) else none
  | [] => none

/-- The number that a digit stands for, in base ten or sixteen. -/
def digit? (radix : Nat) (c : Char) : Option Nat :=
  if c.isDigit then some (c.toNat - '0'.toNat)
  else if radix = 16 ∧ 'a' ≤ c ∧ c ≤ 'f' then some (c.toNat - 'a'.toNat + 10)
  else if radix = 16 ∧ 'A' ≤ c ∧ c ≤ 'F' then some (c.toNat - 'A'.toNat + 10)
  else none

/-- The form that a number has to have. -/
structure NumberForm where
  radix : Nat
  /-- The most digits it may have. -/
  maxDigits : Option Nat
  /-- Whether zeros may stand in front. -/
  leadingZeros : Bool
  /-- The largest value. -/
  limit : Nat

/-- An octet of an IPv4 address. -/
def octetForm : NumberForm := ⟨10, some 3, false, 255⟩

/-- A group of an IPv6 address. -/
def groupForm : NumberForm := ⟨16, some 4, true, 65535⟩

/-- A port. -/
def portForm : NumberForm := ⟨10, none, true, 65535⟩

/-- A scope. -/
def scopeForm : NumberForm := ⟨10, none, true, 4294967295⟩

/-- Take a number of a form; all digits belong to it. -/
def scanNumber (form : NumberForm) : Scan Nat := fun cs =>
  let isDigit (c : Char) : Bool := (digit? form.radix c).isSome
  let ds := cs.takeWhile isDigit
  let n := (ds.filterMap (digit? form.radix)).foldl (fun n d => form.radix * n + d) 0
  if ds.isEmpty || form.maxDigits.any (· < ds.length)
      || (!form.leadingZeros && ds.head? == some '0' && ds.length > 1) || n > form.limit then none
  else some (n, cs.dropWhile isDigit)

/-- Take an IPv4 address. -/
def scanV4 : Scan (UInt8 × UInt8 × UInt8 × UInt8) := fun cs => do
  let (a, cs) ← scanNumber octetForm cs
  let ((), cs) ← scanChar '.' cs
  let (b, cs) ← scanNumber octetForm cs
  let ((), cs) ← scanChar '.' cs
  let (c, cs) ← scanNumber octetForm cs
  let ((), cs) ← scanChar '.' cs
  let (d, cs) ← scanNumber octetForm cs
  return ((UInt8.ofNat a, UInt8.ofNat b, UInt8.ofNat c, UInt8.ofNat d), cs)

/-- Take a part of an IPv6 address, behind a colon unless it is the first one. -/
def scanPart {α : Type} (first : Bool) (part : Scan α) : Scan α := fun cs =>
  if first then part cs else (scanChar ':' cs).bind fun ((), cs) => part cs

/-- The group that two octets make. -/
def groupOf (hi lo : UInt8) : UInt16 := UInt16.ofNat (hi.toNat * 256 + lo.toNat)

/-- Take at most `n` groups of an IPv6 address; the last two may be written as an IPv4 address.
Tells whether they were. -/
def takeGroups (first : Bool) : Nat → List Char → List UInt16 × Bool × List Char
  | 0, cs => ([], false, cs)
  | n + 1, cs =>
    match if n = 0 then none else scanPart first scanV4 cs with
    | some ((a, b, c, d), rest) => ([groupOf a b, groupOf c d], true, rest)
    | none =>
      match scanPart first (scanNumber groupForm) cs with
      | some (g, rest) =>
        let (gs, ended, rest) := takeGroups false n rest
        (UInt16.ofNat g :: gs, ended, rest)
      | none => ([], false, cs)

/-- Take an IPv6 address.  Two colons stand for one zero group or more. -/
def scanV6 : Scan (List UInt16) := fun cs => do
  let (front, ended, cs) := takeGroups true 8 cs
  if front.length = 8 then return (front, cs)
  if ended then failure
  let ((), cs) ← scanChar ':' cs
  let ((), cs) ← scanChar ':' cs
  let (back, _, cs) := takeGroups true (7 - front.length) cs
  return (front ++ List.replicate (8 - front.length - back.length) 0 ++ back, cs)

/-- Take a scope, if one is there. -/
def takeScope (cs : List Char) : Nat × List Char :=
  ((scanChar '%' cs).bind fun ((), rest) => scanNumber scopeForm rest).getD (0, cs)

/-- Take a colon and a port. -/
def scanPort : Scan UInt16 := fun cs => do
  let ((), cs) ← scanChar ':' cs
  let (p, cs) ← scanNumber portForm cs
  return (UInt16.ofNat p, cs)

/-- Take an IPv4 address and a port. -/
def scanSocketV4 : Scan SocketAddress := fun cs => do
  let ((a, b, c, d), cs) ← scanV4 cs
  let (p, cs) ← scanPort cs
  return (v4 a b c d p, cs)

/-- Take an IPv6 address in brackets and a port. -/
def scanSocketV6 : Scan SocketAddress := fun cs => do
  let ((), cs) ← scanChar '[' cs
  let (gs, cs) ← scanV6 cs
  let (scope, cs) := takeScope cs
  let ((), cs) ← scanChar ']' cs
  let (p, cs) ← scanPort cs
  return (v6 gs (UInt32.ofNat scope) p, cs)

/-- The address of a text. -/
def parse (s : String) : Option SocketAddress := do
  let cs := s.toList
  let (address, rest) ← (scanSocketV4 cs).or (scanSocketV6 cs)
  if rest.isEmpty then return address else none

/-! ### Writing -/

/-- An IPv4 address. -/
def textV4 (a b c d : UInt8) : String :=
  ".".intercalate [Numeral.ofNat a.toNat, Numeral.ofNat b.toNat, Numeral.ofNat c.toNat,
    Numeral.ofNat d.toNat]

/-- Groups with colons between them. -/
def textGroups (gs : List UInt16) : String :=
  ":".intercalate (gs.map fun g => String.ofList (Nat.toDigits 16 g.toNat))

/-- Where the first of the longest runs of zero groups begins, and its length. -/
def zeroRun (gs : List UInt16) : Nat × Nat :=
  (List.range gs.length).foldl (fun best i =>
    let n := ((gs.drop i).takeWhile (· == 0)).length
    if n > best.2 then (i, n) else best) (0, 0)

/-- An IPv6 address.  One that stands for an IPv4 address shows it. -/
def textV6 (gs : List UInt16) : String :=
  match gs with
  | [0, 0, 0, 0, 0, 0xffff, g, h] =>
    "::ffff:" ++ textV4 (g.toNat / 256).toUInt8 g.toNat.toUInt8 (h.toNat / 256).toUInt8
      h.toNat.toUInt8
  | _ =>
    let (start, n) := zeroRun gs
    if n > 1 then textGroups (gs.take start) ++ "::" ++ textGroups (gs.drop (start + n))
    else textGroups gs

/-- The written form of an address. -/
def text : SocketAddress → String
  | v4 a b c d port => textV4 a b c d ++ ":" ++ Numeral.ofNat port.toNat
  | v6 gs scope port =>
    let scopeText := if scope = 0 then "" else "%" ++ Numeral.ofNat scope.toNat
    "[" ++ textV6 gs ++ scopeText ++ "]:" ++ Numeral.ofNat port.toNat

end SocketAddress

end TileRealm
