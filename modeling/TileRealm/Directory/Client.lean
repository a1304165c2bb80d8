import TileRealm.Directory.Http
import TileRealm.Directory.Report
import TileRealm.Directory.Status

/-!
# The directory client

Which requests go to the directory service and what its responses come to.  A refresh takes in
the reports of a response as a whole or not at all.
-/

namespace TileRealm

/-- Why the directory gave nothing. -/
inductive DirectoryError where
  /-- No response came. -/
  | unreachable
  /-- The body of the response is not what was asked for. -/
  | malformed
  /-- The status of the response is no success. -/
  | status (code : Nat)
  /-- The directory is not to be asked. -/
  | disabled
deriving DecidableEq, Repr

namespace DirectoryError

/-- The error in words. -/
def message : DirectoryError → String
  | unreachable => "directory request failed"
  | malformed => "directory request failed"
  | status code => "directory returned status " ++ HttpStatus.text code
  | disabled => "directory disabled"

end DirectoryError

/-- How the directory is reached. -/
structure DirectoryClient where
  baseUrl : String
  disabled : Bool
deriving DecidableEq, Repr

namespace DirectoryClient

/-- A client for a URL, whose trailing slashes do not count. -/
def ofUrl (url : String) (disabled : Bool) : DirectoryClient where
  baseUrl := String.ofList (url.toList.reverse.dropWhile (· == '/')).reverse
  disabled := disabled

/-- The request for the reports on all regions. -/
def regionsRequest (c : DirectoryClient) : HttpRequest :=
  ⟨"GET", c.baseUrl ++ "/directory/regions", ""⟩

/-- The request to look up a place. -/
def lookupRequest (c : DirectoryClient) (r : LookupRequest) : HttpRequest :=
  ⟨"POST", c.baseUrl ++ "/directory/resolve", r.write⟩

/-- What a client makes of the response to a request, or of none; a disabled one asks for
nothing. -/
def receive {α : Type} (c : DirectoryClient) (parse : String → Option α)
    (response : Option HttpResponse) : Except DirectoryError α :=
  if c.disabled then .error .disabled
  else
    match response with
    | none => .error .unreachable
    | some r =>
      if HttpStatus.isSuccess r.status then
        match (Text.ofUtf8? r.body).bind parse with
        | some a => .ok a
        | none => .error .malformed
      else .error (.status r.status)

/-- The reports in a response. -/
def receiveRegions (c : DirectoryClient) (response : Option HttpResponse) :
    Except DirectoryError (List RegionReport) :=
  c.receive RegionReport.parseList response

/-- The answer in a response. -/
def receiveLookup (c : DirectoryClient) (response : Option HttpResponse) :
    Except DirectoryError LookupAnswer :=
  c.receive LookupAnswer.parse response

/-- The book after a refresh, and how many reports it took in. -/
def refresh (c : DirectoryClient) (now : Int) (response : Option HttpResponse) (b : AddressBook) :
    AddressBook × Except DirectoryError Nat :=
  match c.receiveRegions response with
  | .ok reports => (b.apply (reports.map RegionReport.addresses) now, .ok reports.length)
  | .error e => (b, .error e)

end DirectoryClient

end TileRealm
