import Signoff.Web.Percent
import Signoff.Number.Read
import Signoff.Text.Case

/-! # Requests

A request has a method, a path, a query, headers and mostly a content. The path is the text in front
of the first question mark, and the query what is behind it.
-/

namespace Signoff

/-- What a request carries. -/
inductive Content where
  | nothing
  /-- A value that is sent as JSON. -/
  | value (v : Value)
  /-- A text of a media type. -/
  | text (type body : String)

/-- A request. -/
structure Request where
  method : String
  path : String
  query : List (String × String)
  headers : List (String × String)
  content : Content

namespace Request

/-- A part of a query without escapes; a plus sign is a blank. -/
def queryText (s : String) : String :=
  Percent.decode (String.ofList (s.toList.map fun c => if c == '+' then ' ' else c))

/-- One entry of a query. -/
def queryEntry (s : String) : String × String :=
  match s.splitOn "=" with
  | name :: rest => (queryText name, queryText ("=".intercalate rest))
  | [] => ("", "")

/-- The entries of a query. -/
def queryEntries (s : String) : List (String × String) :=
  ((s.splitOn "&").filter fun part => !part.isEmpty).map queryEntry

/-- A request to an address, which is a path with or without a query. What stands behind a `#` is kept
by the one who asks. -/
def make (method address : String) (headers : List (String × String)) (content : Content) :
    Request :=
  let (path, query) := match ((address.splitOn "#").headD "").splitOn "?" with
    | path :: rest => (path, "?".intercalate rest)
    | [] => ("", "")
  { method := Text.upper method
    path := Percent.decode path
    query := queryEntries query
    headers
    content }

/-- A header. The case of its name does not matter. -/
def header? (r : Request) (name : String) : Option String :=
  (r.headers.find? fun h => Text.lower h.1 == Text.lower name).map (·.2)

/-- Who makes the request. -/
def user (r : Request) : String :=
  match ["X-User", "X-Forwarded-User"].filterMap r.header? |>.find? fun u => !u.isEmpty with
  | some u => u
  | none => "system"

/-- The name of the request, empty if it has none. -/
def id (r : Request) : String := (r.header? "X-Request-ID").getD ""

/-- Is JSON of this media type? -/
def isJson (type : String) : Bool :=
  let type := Text.lower (Text.trim ((type.splitOn ";").headD ""))
  type == "application/json" || (type.startsWith "application/" && type.endsWith "+json")

/-- A text without the mark of byte order at its beginning. -/
def withoutMark (s : String) : String :=
  match s.toList with
  | c :: cs => if c.toNat = 0xFEFF then String.ofList cs else s
  | [] => s

/-- The object that the request carries as JSON, if it does. -/
def object? (r : Request) : Option Fields :=
  match r.content with
  | .nothing => none
  | .value (.object fields) => some fields
  | .value _ => none
  | .text type body =>
    if isJson type then
      match Json.parse? (withoutMark body) with
      | some (.object fields) => some fields
      | _ => none
    else none

/-- The first entry of the query with this name. -/
def argument? (r : Request) (name : String) : Option String := r.query.lookup name

/-- The first entry of the query with this name, if it is not empty. -/
def filled? (r : Request) (name : String) : Option String :=
  (r.argument? name).filter fun s => !s.isEmpty

/-- An entry of the query as a yes or no. -/
def flag? (r : Request) (name : String) : Option Bool :=
  (r.filled? name).map fun s => ["1", "true", "yes"].contains (Text.lower s)

end Request
end Signoff
