import MarketFeed.FeedError

/-!
# HTTP requests and responses

What a request asks, what a response says, and a service that answers requests.
-/

namespace MarketFeed

inductive Method where
  | get
  | post
  | delete
  deriving DecidableEq, Repr

def Method.name : Method → String
  | get => "GET"
  | post => "POST"
  | delete => "DELETE"

structure Request where
  method : Method
  path : String
  params : List (String × String) := []
  deriving DecidableEq, Repr

structure Response where
  status : Nat
  body : String
  headers : List (String × String) := []
  deriving DecidableEq, Repr

def Response.isSuccess (r : Response) : Bool := 200 ≤ r.status && r.status < 300

def Response.header? (r : Response) (name : String) : Option String :=
  (r.headers.find? (·.1 == name)).map (·.2)

def isHeaderText (s : String) : Bool :=
  s.toList.all fun c => c = '\t' || 0x20 ≤ c.toNat && c.toNat ≠ 0x7F

abbrev Outcome := Except FeedError Response

/-- A service whose answers may depend on a state that each request changes. -/
structure Service (σ : Type) where
  perform : Request → σ → Outcome × σ

structure Script where
  outcomes : List Outcome
  asked : List Request := []

/-- Takes the next answer; when there is none left the request fails. -/
def Script.service : Service Script where
  perform request s :=
    let asked := s.asked ++ [request]
    match s.outcomes with
    | [] => (.error (.network "script exhausted"), { s with asked })
    | outcome :: rest => (outcome, { outcomes := rest, asked })

end MarketFeed
