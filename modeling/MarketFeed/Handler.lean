import MarketFeed.Event

/-!
# Event handlers

A handler is given events and answers each one. It may fail with an error or panic; either way the
failure is a text and nothing more comes of it.
-/

namespace MarketFeed

inductive Reply where
  | done
  /-- An error, with the contexts that were put around its cause, innermost first. -/
  | failed (cause : String) (contexts : List String)
  | panicked (text : Option String)
  deriving DecidableEq, Repr

/-- The text of a failure; an error's outermost context stands first. -/
def Reply.failure? : Reply → Option String
  | done => none
  | failed cause contexts => some (": ".intercalate (contexts.reverse ++ [cause]))
  | panicked text => some ("handler panicked: " ++ text.getD "unknown panic")

/-- `reply n e` answers the event `e` when `n` events were handed out before it, so a handler may
answer equal events differently. -/
structure Handler where
  id : String
  reply : Nat → Event → Reply

end MarketFeed
