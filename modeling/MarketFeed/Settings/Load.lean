import MarketFeed.Settings
import MarketFeed.Text.Pieces

/-!
# Loading settings from variables

Each setting has a variable of its own. A variable that is absent or spells no value of its
setting's type leaves the default; only the access token has none.
-/

namespace MarketFeed

/-- The value of a variable; one that is not Unicode cannot be read. -/
inductive Variable where
  | text (value : String)
  | undecodable
  deriving DecidableEq, Repr

abbrev Variables := String → Option Variable

def Variables.text? (vars : Variables) (name : String) : Option String :=
  match vars name with
  | some (.text s) => some s
  | _ => none

inductive SettingsError where
  | missing (name : String)
  | empty (name : String)
  deriving DecidableEq, Repr

def SettingsError.message : SettingsError → String
  | missing name => "missing required environment variable: " ++ name
  | empty name => "environment variable " ++ name ++ " cannot be empty"

/-- The items of a list with commas between them; white space around an item and empty items do
not count. -/
def parseList (text : String) : List String :=
  (((pieces ',' text.toList).map trim).filter (· ≠ [])).map String.ofList

namespace Variables

variable (vars : Variables)

def nat (name : String) (bound default : Nat) : Nat :=
  ((vars.text? name).bind fun s => Digits.boundedNat? (bound - 1) s.toList).getD default

def seconds (name : String) (default : Duration) : Duration :=
  (((vars.text? name).bind fun s => Digits.boundedNat? ((1 <<< 64) - 1) s.toList).map
    Duration.ofSeconds).getD default

def millis (name : String) (default : Duration) : Duration :=
  (((vars.text? name).bind fun s => Digits.boundedNat? ((1 <<< 64) - 1) s.toList).map
    Duration.ofMillis).getD default

def float (name : String) (default : Binary64) : Binary64 :=
  ((vars.text? name).bind fun s => Binary64.ofText? s.toList).getD default

/-- The truth value that a word names, in any case. No letter beyond ASCII has a lower case that
occurs in these words, so the case of ASCII letters is all that counts. -/
def boolWord? (s : String) : Option Bool :=
  let word := String.ofList (asciiLower s.toList)
  if word ∈ ["1", "true", "yes", "on"] then some true
  else if word ∈ ["0", "false", "no", "off"] then some false
  else none

def bool (name : String) (default : Bool) : Bool :=
  ((vars.text? name).bind boolWord?).getD default

def environment : Environment :=
  ((vars.text? "TRADIER_ENV").map Environment.ofName).getD .sandbox

def baseUrl : String :=
  ((vars.text? "TRADIER_API_BASE_URL").filter (· ≠ "")).getD vars.environment.baseUrl

def http : HttpSettings :=
  let defaults : HttpSettings := {}
  { timeout := vars.seconds "TRADIER_HTTP_TIMEOUT_SECS" defaults.timeout
    maxRetries := vars.nat "TRADIER_HTTP_MAX_RETRIES" (1 <<< 32) defaults.maxRetries
    initialBackoff := vars.millis "TRADIER_HTTP_INITIAL_BACKOFF_MS" defaults.initialBackoff
    maxBackoff := vars.millis "TRADIER_HTTP_MAX_BACKOFF_MS" defaults.maxBackoff
    rateLimitBurst := vars.nat "TRADIER_HTTP_RATE_LIMIT_BURST" (1 <<< 32) defaults.rateLimitBurst
    rateLimitPerSecond :=
      vars.float "TRADIER_HTTP_RATE_LIMIT_PER_SECOND" defaults.rateLimitPerSecond }

def stream : StreamSettings :=
  let defaults : StreamSettings := {}
  { autoReconnect := vars.bool "TRADIER_STREAM_AUTO_RECONNECT" defaults.autoReconnect
    reconnectDelay := vars.millis "TRADIER_STREAM_RECONNECT_DELAY_MS" defaults.reconnectDelay
    maxReconnectAttempts :=
      vars.nat "TRADIER_STREAM_MAX_RECONNECT_ATTEMPTS" (1 <<< 32) defaults.maxReconnectAttempts
    heartbeatInterval :=
      vars.millis "TRADIER_STREAM_HEARTBEAT_INTERVAL_MS" defaults.heartbeatInterval
    filterDuplicates := vars.bool "TRADIER_STREAM_FILTER_DUPLICATES" defaults.filterDuplicates
    validExchanges :=
      ((vars.text? "TRADIER_STREAM_VALID_EXCHANGES").map fun s =>
        TextSet.ofList (parseList s)).getD .empty }

def session : SessionSettings :=
  let defaults : SessionSettings := {}
  { ttl := vars.seconds "TRADIER_SESSION_TTL_SECS" defaults.ttl
    renewMargin := vars.seconds "TRADIER_SESSION_RENEW_MARGIN_SECS" defaults.renewMargin }

def accessToken : Except SettingsError String :=
  match vars.text? "TRADIER_ACCESS_TOKEN" with
  | none => .error (.missing "TRADIER_ACCESS_TOKEN")
  | some token => if token = "" then .error (.empty "TRADIER_ACCESS_TOKEN") else .ok token

def settings : Except SettingsError Settings := do
  let accessToken ← vars.accessToken
  return {
    environment := vars.environment
    baseUrl := vars.baseUrl
    accessToken
    http := vars.http
    stream := vars.stream
    session := vars.session
    metricsPort := vars.nat "TRADIER_METRICS_PORT" (1 <<< 16) 0 }

end Variables

/-! ## Tracing -/

structure TracingSettings where
  enabled : Bool := true
  endpoint : String := "http://localhost:4317"
  serviceName : String := "tradier-stream"
  deriving DecidableEq, Repr

def Variables.filledText? (vars : Variables) (name : String) : Option String :=
  (vars.text? name).filter fun s => !(trim s.toList).isEmpty

def Variables.tracing (vars : Variables) : TracingSettings :=
  let defaults : TracingSettings := {}
  { enabled := ((vars.filledText? "OTEL_ENABLED").map fun s => !sameUpToCase s "false").getD true
    endpoint := (vars.filledText? "OTEL_EXPORTER_OTLP_ENDPOINT").getD defaults.endpoint
    serviceName := (vars.filledText? "OTEL_SERVICE_NAME").getD defaults.serviceName }

end MarketFeed
