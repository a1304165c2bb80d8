import TileRealm.Text.Blank
import TileRealm.Text.Numeral

/-!
# Endpoints

A host and a port, as players' clients are told where to connect.  An address text may carry a
scheme, user information and a path around them; the port is always there.
-/

namespace TileRealm

/-- Where a region can be reached. -/
structure Endpoint where
  host : String
  port : UInt16
deriving DecidableEq, Repr

namespace Endpoint

/-- The written form `host:port`, with a host that has colons of its own in brackets. -/
def text (e : Endpoint) : String :=
  let host := if e.host.toList.contains ':' then "[" ++ e.host ++ "]" else e.host
  host ++ ":" ++ Numeral.ofNat e.port.toNat

/-! ### Parts of an address text -/

/-- What stands behind the first `://`, or everything. -/
def afterScheme (cs : List Char) : List Char :=
  let rec find? : List Char → Option (List Char)
    | [] => none
    | ':' :: '/' :: '/' :: rest => some rest
    | _ :: rest => find? rest
  (find? cs).getD cs

/-- What stands between slashes at the ends, up to the next slash. -/
def authority (cs : List Char) : List Char :=
  (Text.trimBy (· == '/') cs).takeWhile (· != '/')

/-- The parts in front of and behind the last `c`, if there is one. -/
def splitLast? (c : Char) : List Char → Option (List Char × List Char)
  | [] => none
  | d :: rest =>
    match splitLast? c rest with
    | some (front, back) => some (d :: front, back)
    | none => if d = c then some ([], rest) else none

/-- What stands behind the last at sign, or everything. -/
def afterUser (cs : List Char) : List Char :=
  match splitLast? '@' cs with
  | some (_, rest) => rest
  | none => cs

/-- Host and port: `[host]:port`, or else parted by the last colon. -/
def hostAndPort? : List Char → Option (List Char × List Char)
  | '[' :: rest =>
    match rest.dropWhile (· != ']') with
    | ']' :: ':' :: port => some (rest.takeWhile (· != ']'), port)
    | _ => none
  | cs => splitLast? ':' cs

/-- The endpoint of an address text.  Its host is not blank and its port is not 0. -/
def parseChars (cs : List Char) : Option Endpoint := do
  let (host, port) ← hostAndPort? (afterUser (authority (afterScheme (Text.trimChars cs))))
  let host := Text.trimChars host
  let port ← (Numeral.readNat 65535 (Text.trimChars port)).toOption
  if host.isEmpty || port == 0 then none
  else return ⟨String.ofList host, UInt16.ofNat port⟩

/-- The endpoint of an address text. -/
def parse (s : String) : Option Endpoint := parseChars s.toList

end Endpoint

end TileRealm
