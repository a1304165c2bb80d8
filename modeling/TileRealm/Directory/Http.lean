import TileRealm.Address.Endpoint
import TileRealm.Text.Fold
import TileRealm.Text.Utf8

/-!
# Requests and responses over HTTP

What a request comes to on a connection that carries it alone, and what can be read from the
bytes that come back until the connection is closed.  The body of a response is as long as its
head says, in one piece or in chunks, or else goes on to the end.
-/

namespace TileRealm

/-- A request over HTTP. -/
structure HttpRequest where
  method : String
  url : String
  body : String := ""
deriving DecidableEq, Repr

/-- A response over HTTP. -/
structure HttpResponse where
  status : Nat
  body : Bytes
deriving DecidableEq, Repr

/-- What a URL without encryption leads to. -/
structure HttpTarget where
  /-- The host and the port, as they stand in the URL. -/
  authority : String
  endpoint : Endpoint
  path : String
deriving DecidableEq, Repr

namespace HttpTarget

/-- The port of URLs that name none. -/
def standardPort : UInt16 := 80

/-- The target of a URL. -/
def ofUrl? (url : String) : Option HttpTarget :=
  match url.toList with
  | 'h' :: 't' :: 't' :: 'p' :: ':' :: '/' :: '/' :: rest =>
    let authority := rest.takeWhile (· != '/')
    let path := rest.dropWhile (· != '/')
    let whole := String.ofList authority
    if authority.isEmpty then none
    else some ⟨whole, (Endpoint.parse whole).getD ⟨whole, standardPort⟩,
      if path.isEmpty then "/" else String.ofList path⟩
  | _ => none

end HttpTarget

namespace HttpRequest

/-- The end of a line. -/
def lineEnd : String := "\r\n"

/-- The lines in front of the body. -/
def head (r : HttpRequest) (target : HttpTarget) : List String :=
  [r.method ++ " " ++ target.path ++ " HTTP/1.1", "host: " ++ target.authority, "accept: */*",
    "connection: close"] ++
    if r.body.isEmpty then []
    else ["content-type: application/json",
      "content-length: " ++ Numeral.ofNat r.body.utf8ByteSize]

/-- The request as it is sent to its target. -/
def bytes (r : HttpRequest) (target : HttpTarget) : Bytes :=
  Text.utf8 (((r.head target).map (· ++ lineEnd)).foldr (· ++ ·) (lineEnd ++ r.body))

end HttpRequest

namespace HttpResponse

/-! ### Parts of a response -/

/-- The bytes in front of the first end of a line, and those behind it. -/
def line? : Bytes → Option (Bytes × Bytes)
  | [] => none
  | 13 :: 10 :: rest => some ([], rest)
  | b :: rest => (line? rest).map fun (line, rest) => (b :: line, rest)

/-- The lines up to the first empty one, and the bytes behind it; `fuel` bounds the lines. -/
def lines? : Nat → Bytes → Option (List Bytes × Bytes)
  | 0, _ => none
  | fuel + 1, b => do
    let (line, rest) ← line? b
    if line.isEmpty then return ([], rest)
    let (lines, rest) ← lines? fuel rest
    return (line :: lines, rest)

/-- The name and the value of a field. -/
def field? (line : Bytes) : Option (String × String) := do
  let cs := (← Text.ofUtf8? line).toList
  match cs.dropWhile (· != ':') with
  | ':' :: value =>
    return (Text.fold (String.ofList (cs.takeWhile (· != ':'))), String.ofList (Text.trimChars value))
  | _ => none

/-- The code in a status line such as `HTTP/1.1 200 OK`. -/
def code? (line : Bytes) : Option Nat := do
  let cs := (← Text.ofUtf8? line).toList
  let code := ((cs.dropWhile (· != ' ')).drop 1).takeWhile (· != ' ')
  (Numeral.readNat 999 code).toOption

/-- The number that hexadecimal digits in front of a line stand for, if there are any. -/
def chunkLength? (line : Bytes) : Option Nat :=
  let digit? (b : UInt8) : Option Nat :=
    if 48 ≤ b ∧ b ≤ 57 then some (b.toNat - 48)
    else if 97 ≤ b ∧ b ≤ 102 then some (b.toNat - 87)
    else if 65 ≤ b ∧ b ≤ 70 then some (b.toNat - 55)
    else none
  match line.takeWhile fun b => (digit? b).isSome with
  | [] => none
  | ds => some ((ds.filterMap digit?).foldl (fun n d => 16 * n + d) 0)

/-- The body that chunks make up; `fuel` bounds the chunks. -/
def joinChunks? : Nat → Bytes → Option Bytes
  | 0, _ => none
  | fuel + 1, b => do
    let (line, rest) ← line? b
    match ← chunkLength? line with
    | 0 => return []
    | n =>
      if rest.length < n + 2 then none
      else return rest.take n ++ (← joinChunks? fuel (rest.drop (n + 2)))

/-- The body of a response with these fields, from the bytes behind its head. -/
def body? (fields : List (String × String)) (rest : Bytes) : Option Bytes :=
  if (fields.lookup "transfer-encoding").any (Text.sameName "chunked") then
    joinChunks? (rest.length + 1) rest
  else
    match fields.lookup "content-length" with
    | none => some rest
    | some n => do
      let n ← (Numeral.readNat 18446744073709551615 n.toList).toOption
      if rest.length < n then none else return rest.take n

/-- The response that was received until the connection was closed. -/
def ofBytes? (received : Bytes) : Option HttpResponse := do
  let (lines, rest) ← lines? (received.length + 1) received
  match lines with
  | [] => none
  | first :: others => return ⟨← code? first, ← body? (others.filterMap field?) rest⟩

end HttpResponse

end TileRealm
