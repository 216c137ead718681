import MarketFeed.Client.Subscription

/-!
# Runs of a client

Everything that can be done with a client, as a value: an `Action` is one operation with its
arguments, an `Answer` is what comes back, and a run is a list of actions.
-/

namespace MarketFeed

inductive Action where
  | receive (text : String)
  | elapse (d : Duration)
  | createSession (kind : SessionKind)
  | setSession (session : Session)
  | connect
  | disconnect
  | reconnect
  | reconnectWithBackoff (cancellation : Client.Cancellation) (rounds : Nat)
  | subscribe (kind : EventKind) (session : Session) (symbols : List String) (handler : Handler)
  | registerHandler (kind : EventKind) (handler : Handler)
  | addSymbols (symbols : List String)
  | removeSymbols (symbols : List String)
  | filterSymbols (symbols : List String)
  | filterExchanges (exchanges : List String)
  | clearFilters
  | configure (settings : StreamSettings)
  | listen (listener : Listener)
  | resetStatistics

inductive Answer where
  | done
  | flag (value : Bool)
  | symbols (values : List String)
  | session (result : Except FeedError Session)
  | result (result : Except FeedError Unit)
  /-- Nothing if the loop was not over. -/
  | loop (ended : Option Client.LoopEnd)

namespace Client

variable {τ : Type} (w : World τ)

def act : Action → Op τ Answer
  | .receive text => return .flag (← receive text)
  | .elapse d => do sleep w d; return .done
  | .createSession kind => return .session (← createSession w kind)
  | .setSession session => do setSession session; return .done
  | .connect => return .result (← connect w)
  | .disconnect => do disconnect w; return .done
  | .reconnect => return .result (← reconnect w)
  | .reconnectWithBackoff cancellation rounds =>
    return .loop (← reconnectWithBackoff w cancellation rounds)
  | .subscribe kind session symbols handler =>
    return .result (← subscribe w kind session symbols handler)
  | .registerHandler kind handler => return .flag (← registerHandler kind handler)
  | .addSymbols symbols => return .symbols (← addSymbols w symbols)
  | .removeSymbols symbols => return .symbols (← removeSymbols w symbols)
  | .filterSymbols symbols => do
    modifyRegistry fun r => { r with symbolFilter := symbols }
    return .done
  | .filterExchanges exchanges => do
    modifyRegistry fun r => { r with exchangeFilter := exchanges }
    return .done
  | .clearFilters => do modifyRegistry Registry.clearFilters; return .done
  | .configure settings => do modify fun c => { c with settings }; return .done
  | .listen listener => do modifyJournal fun j => { j with listener }; return .done
  | .resetStatistics => do modifyJournal Journal.resetStatistics; return .done

def actAll : List Action → Op τ (List Answer)
  | [] => return []
  | a :: rest => do
    let answer ← act w a
    return answer :: (← actAll rest)

end Client

end MarketFeed
