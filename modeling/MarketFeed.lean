import MarketFeed.Binary64
import MarketFeed.Binary64.Numeral
import MarketFeed.Binary64.Shortest
import MarketFeed.Bucket
import MarketFeed.Client
import MarketFeed.Client.Action
import MarketFeed.Client.Lifecycle
import MarketFeed.Client.Playback
import MarketFeed.Client.Subscription
import MarketFeed.Client.World
import MarketFeed.Dispatcher
import MarketFeed.Duration
import MarketFeed.Event
import MarketFeed.Event.Field
import MarketFeed.Event.Kind
import MarketFeed.Event.Printer
import MarketFeed.FeedError
import MarketFeed.Frame
import MarketFeed.Handler
import MarketFeed.Heartbeat
import MarketFeed.Http
import MarketFeed.Instant
import MarketFeed.Journal
import MarketFeed.Json
import MarketFeed.Json.Numeral
import MarketFeed.Json.Parser
import MarketFeed.Json.Printer
import MarketFeed.Json.Quoted
import MarketFeed.Json.Token
import MarketFeed.Metric
import MarketFeed.NextAttempt
import MarketFeed.Reconnect.Schedule
import MarketFeed.Registry
import MarketFeed.Rest
import MarketFeed.Rest.Backoff
import MarketFeed.Rest.Course
import MarketFeed.Session
import MarketFeed.Session.Manager
import MarketFeed.Settings
import MarketFeed.Settings.Load
import MarketFeed.Socket
import MarketFeed.Span
import MarketFeed.Statistics
import MarketFeed.Target
import MarketFeed.Text.Ascii
import MarketFeed.Text.Blank
import MarketFeed.Text.Described
import MarketFeed.Text.Digits
import MarketFeed.Text.Hex
import MarketFeed.Text.Percent
import MarketFeed.Text.Pieces
import MarketFeed.Text.Upper
import MarketFeed.Text.Utf8
import MarketFeed.TextSet
import MarketFeed.Timer
import MarketFeed.Url
import MarketFeed.Url.Form
import MarketFeed.Proofs.Discipline
import MarketFeed.Proofs.Upstream
import MarketFeed.Proofs.Coverage
import MarketFeed.Proofs.Reports
import MarketFeed.Proofs.Pipeline
import MarketFeed.Proofs.Filtering
import MarketFeed.Proofs.Balance
import MarketFeed.Proofs.Reception
import MarketFeed.Proofs.Interleaving
import MarketFeed.Proofs.Repetition
import MarketFeed.Proofs.Isolation
import MarketFeed.Proofs.Reconnection
import MarketFeed.Proofs.Attempts
import MarketFeed.Proofs.Coherence
import MarketFeed.Proofs.Rounding
import MarketFeed.Proofs.Retries
import MarketFeed.Proofs.Monitoring
import MarketFeed.Proofs.Renewals
import MarketFeed.Proofs.Literals
import MarketFeed.Proofs.Texts
import MarketFeed.Proofs.Wire
import MarketFeed.Proofs.Scaling
import MarketFeed.Proofs.Nearest
import MarketFeed.Proofs.Numerals
import MarketFeed.Proofs.Trimming
import MarketFeed.Proofs.Quoting
import MarketFeed.Proofs.Framing
import MarketFeed.Proofs.Carriage
import MarketFeed.Proofs.Race
import MarketFeed.Proofs.Secrecy
import MarketFeed.Proofs.Held
import MarketFeed.Proofs.Truncation
import MarketFeed.Proofs.Subscribing
import MarketFeed.Proofs.Failures
import MarketFeed.Proofs.Blame
import MarketFeed.Proofs.Contents
import MarketFeed.Proofs.Columns
import MarketFeed.Proofs.Finiteness
import MarketFeed.Proofs.Integers
import MarketFeed.Proofs.Rendering
import MarketFeed.Proofs.Identifiers
import MarketFeed.Proofs.Names
import MarketFeed.Proofs.Bodies
import MarketFeed.Proofs.Endpoints
import MarketFeed.Proofs.Expiry
import MarketFeed.Proofs.Pieces
import MarketFeed.Proofs.Items
import MarketFeed.Proofs.Loading
import MarketFeed.Proofs.Capitals
import MarketFeed.Proofs.Environments
import MarketFeed.Proofs.Pacing
import MarketFeed.Proofs.Seconds
import MarketFeed.Proofs.Doubling
import MarketFeed.Proofs.Waiting
import MarketFeed.Proofs.Delays
import MarketFeed.Proofs.Overflow
import MarketFeed.Proofs.Bytes
import MarketFeed.Proofs.Reading
import MarketFeed.Proofs.Deltas
import MarketFeed.Proofs.Ceiling
import MarketFeed.Proofs.Forms
import MarketFeed.Proofs.Authorities
import MarketFeed.Proofs.Paths
import MarketFeed.Proofs.Places
import MarketFeed.Proofs.Addresses
