import MarketFeed.Rest.Course
import MarketFeed.Text.Utf8
import MarketFeed.Url

/-!
# Clients of a REST service

A client signs every request with its access token and sends it to a path below its address.
-/

namespace MarketFeed

/-- Headers as they are read: names in lower case, values of visible ASCII only, and of several
with one name the last. -/
def readHeaders (headers : List (String × String)) : List (String × String) :=
  let isReadable (v : String) : Bool :=
    v.toList.all fun c => c = '\t' || 0x20 ≤ c.toNat && c.toNat < 0x7F
  (headers.filter (isReadable ·.2)).foldl (fun read h =>
    let name := String.ofList (asciiLower h.1.toList)
    read.filter (·.1 ≠ name) ++ [(name, h.2)]) []

def Response.ofParts (status : Nat) (headers : List (String × String)) (body : List UInt8) :
    Response :=
  { status, body := Utf8.decodeDocument body, headers := readHeaders headers }

structure Message where
  method : Method
  url : Url
  authorization : String
  accept : String := "application/json"
  contentType : Option String
  body : String
  deriving DecidableEq, Repr

structure RestClient where
  baseUrl : String
  accessToken : String
  settings : HttpSettings := {}
  deriving DecidableEq, Repr

namespace RestClient

/-- A client for an address, of which slashes at the end do not count. It needs an access token. -/
def create (baseUrl accessToken : String) (settings : HttpSettings) :
    Except FeedError RestClient :=
  if accessToken = "" then .error (.validation "access token is empty")
  else
    let base := (baseUrl.toList.reverse.dropWhile (· = '/')).reverse
    .ok { baseUrl := String.ofList base, accessToken, settings }

/-- The message for a request. Parameters go into the query, or into the body of a posted form.
There is none for an address that is not one of the web, or for a token that no header can hold. -/
def message? (c : RestClient) (r : Request) : Option Message := do
  let url ← Url.parse? (c.baseUrl ++ r.path)
  let authorization := "Bearer " ++ c.accessToken
  if url.scheme ∉ ["http", "https"] || !isHeaderText authorization then none
  match r.method with
  | .post => return {
      method := .post, url, authorization
      contentType := some "application/x-www-form-urlencoded"
      body := String.ofList (Form.render r.params) }
  | method => return {
      method, url := url.addPairs r.params, authorization, contentType := none, body := "" }

/-- Performs a request, where `deliver` says what comes of sending a message as attempt `n`. -/
def perform (c : RestClient) (deliver : Message → Nat → Attempted) (r : Request) : Course :=
  let attempt (n : Nat) : Attempted := match c.message? r with
    | some m => deliver m n
    | none => .error "builder error"
  Course.run attempt 0 (.ofSettings c.settings) none

end RestClient

end MarketFeed
