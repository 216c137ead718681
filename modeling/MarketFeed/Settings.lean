import MarketFeed.Dispatcher
import MarketFeed.Session.Manager
import MarketFeed.Text.Upper

/-!
# Settings of a feed client

The settings with their defaults, and the environment that decides which service is used.
-/

namespace MarketFeed

/-- The live service trades real money; the sandbox simulates. -/
inductive Environment where
  | sandbox
  | live
  deriving DecidableEq, Repr, Inhabited

namespace Environment

/-- Only the words `live` and `production`, by their upper case, name the live environment. -/
def ofName (s : String) : Environment :=
  let word := Upper.text s.toList
  if word = "LIVE".toList ∨ word = "PRODUCTION".toList then live else sandbox

def isLive : Environment → Bool
  | live => true
  | sandbox => false

def name : Environment → String
  | sandbox => "sandbox"
  | live => "live"

def baseUrl : Environment → String
  | sandbox => "https://sandbox.tradier.com"
  | live => "https://api.tradier.com"

end Environment

structure HttpSettings where
  timeout : Duration := .ofSeconds 30
  maxRetries : Nat := 3
  initialBackoff : Duration := .ofMillis 500
  maxBackoff : Duration := .ofSeconds 10
  rateLimitBurst : Nat := 10
  rateLimitPerSecond : Binary64 := .ofNat 2
  deriving DecidableEq, Repr

structure StreamSettings where
  autoReconnect : Bool := true
  reconnectDelay : Duration := .ofSeconds 5
  /-- How many attempts to reconnect are made; zero sets no limit. -/
  maxReconnectAttempts : Nat := 10
  heartbeatInterval : Duration := .ofSeconds 30
  filterDuplicates : Bool := false
  validExchanges : TextSet := .empty
  deriving DecidableEq

instance : Inhabited StreamSettings := ⟨{}⟩

def StreamSettings.dispatchRules (s : StreamSettings) : DispatchRules :=
  { filterDuplicates := s.filterDuplicates, validExchanges := s.validExchanges.toList }

structure Settings where
  environment : Environment
  baseUrl : String
  accessToken : String
  http : HttpSettings := {}
  stream : StreamSettings := {}
  session : SessionSettings := {}
  /-- The port where metrics are served; zero serves none. -/
  metricsPort : Nat := 0
  deriving DecidableEq

def describeCredentials : String := describeRecord "Credentials" [("access_token", redacted)]

def Settings.defaults (environment : Environment) (accessToken : String) : Settings :=
  { environment, baseUrl := environment.baseUrl, accessToken }

end MarketFeed
