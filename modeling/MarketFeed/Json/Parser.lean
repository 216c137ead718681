import MarketFeed.Json.Token

/-!
# Reading JSON texts

`parse?` runs over the tokens of a text with a stack of the containers that are still open. A
text holds exactly one value; of members with one name the last counts; at most 127 containers
may be open at once.
-/

namespace MarketFeed.Json

namespace Reader

/-- An open container. Items and members that were read stand in reverse order, and `key` is the
name whose value is due. -/
inductive Level where
  | array (items : List Json)
  | object (members : List (String × Json)) (key : String)

/-- What may come next. -/
inductive State where
  | value (levels : List Level)
  /-- The first item of an array, or its end. -/
  | firstItem (levels : List Level)
  /-- The first name in an object, or its end. -/
  | firstKey (levels : List Level)
  /-- A further name in an object. -/
  | key (members : List (String × Json)) (levels : List Level)
  | colon (members : List (String × Json)) (key : String) (levels : List Level)
  /-- A separator or an end, after a value. -/
  | done (value : Json) (levels : List Level)

def maxDepth : Nat := 127

def startValue (levels : List Level) : Token → Option State
  | .scalar v => some (.done v levels)
  | .openArray => if levels.length < maxDepth then some (.firstItem levels) else none
  | .openObject => if levels.length < maxDepth then some (.firstKey levels) else none
  | _ => none

def step : State → Token → Option State
  | .value levels, t => startValue levels t
  | .firstItem levels, .closeArray => some (.done (.array []) levels)
  | .firstItem levels, t => startValue (.array [] :: levels) t
  | .firstKey levels, .closeObject => some (.done (.object []) levels)
  | .firstKey levels, .scalar (.string k) => some (.colon [] k levels)
  | .key members levels, .scalar (.string k) => some (.colon members k levels)
  | .colon members k levels, .colon => some (.value (.object members k :: levels))
  | .done v (.array items :: levels), .comma => some (.value (.array (v :: items) :: levels))
  | .done v (.array items :: levels), .closeArray =>
    some (.done (.array (v :: items).reverse) levels)
  | .done v (.object members k :: levels), .comma => some (.key ((k, v) :: members) levels)
  | .done v (.object members k :: levels), .closeObject =>
    some (.done (ofMembers ((k, v) :: members).reverse) levels)
  | _, _ => none

def result? : State → Option Json
  | .done v [] => some v
  | _ => none

end Reader

def ofTokens? (ts : List Token) : Option Json :=
  (ts.foldlM Reader.step (.value [])).bind Reader.result?

def parse? (text : String) : Option Json :=
  (tokens? text.toList).bind ofTokens?

end MarketFeed.Json
