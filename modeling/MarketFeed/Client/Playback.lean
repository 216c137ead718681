import MarketFeed.Client.World

/-!
# Worlds that follow a script

A playback answers from lists: how the next connects end, how sends end until further notice, and
what requests are answered.
-/

namespace MarketFeed

inductive Opening where
  | opens
  /-- It succeeds, and the transport is closed again at once. -/
  | closed
  | fails (error : FeedError)
  deriving Repr

inductive Sending where
  | succeeds
  | stalls
  | fails (error : FeedError)
  deriving Repr

structure Playback where
  openings : List Opening := []
  sending : Sending := .succeeds
  isOpen : Bool := false
  script : Script := { outcomes := [] }
  /-- The time of day, which stands still. -/
  now : Instant

namespace Playback

def takeOpening (p : Playback) : Opening × Playback :=
  match p.openings with
  | [] => (.opens, p)
  | o :: rest => (o, { p with openings := rest })

def connect (_ : Target) (p : Playback) : Except FeedError Unit × Playback :=
  match p.takeOpening with
  | (.opens, p) => (.ok (), { p with isOpen := true })
  | (.closed, p) => (.ok (), p)
  | (.fails e, p) => (.error e, p)

def send (_ : Frame) (p : Playback) : Except FeedError Unit × Playback :=
  match p.sending with
  | .fails e => (.error e, p)
  | _ => (.ok (), p)

def stalls (p : Playback) : Bool :=
  match p.sending with
  | .stalls => true
  | _ => false

def perform (request : Request) (p : Playback) : Outcome × Playback :=
  let (outcome, script) := Script.service.perform request p.script
  (outcome, { p with script })

/-- Heartbeats are never silent for a time, and delays are not spread. -/
def world : World Playback where
  connect := connect
  send := send
  stalls := stalls
  disconnect p := { p with isOpen := false }
  isOpen p := (p.isOpen, p)
  perform := perform
  now p := (p.now, p)
  silentFor p := (.zero, p)
  fraction p := (.zero, p)

end Playback

end MarketFeed
