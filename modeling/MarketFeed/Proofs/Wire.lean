import Mathlib
import MarketFeed.Frame
import MarketFeed.Proofs.Texts

/-!
# Frames on the wire

The text of a frame is a JSON object with the members of the frame and no others, and the frame can
be read from them again.
-/

namespace MarketFeed

namespace Frame

/-! ## Frames -/

def Action.ofName? (s : String) : Option Action := [subscribe, unsubscribe].find? (·.name == s)

theorem Action.ofName?_name (action : Action) : ofName? action.name = some action := by
  cases action <;> decide

def values : Frame → List (String × Json)
  | subscription action kind symbols =>
    [("type", .string action.name), ("to", .string kind.name)] ++
      (symbols.map fun s => ("symbols", Json.array (s.map .string))).toList
  | heartbeat timestamp =>
    [("type", .string "heartbeat"), ("timestamp", .number (.integer timestamp))]

def value : Frame → Json
  | subscription action kind symbols =>
    .object ((symbols.map fun s => ("symbols", Json.array (s.map .string))).toList ++
      [("to", .string kind.name), ("type", .string action.name)])
  | heartbeat timestamp =>
    .object [("timestamp", .number (.integer timestamp)), ("type", .string "heartbeat")]

theorem ofMembers_values (f : Frame) : Json.ofMembers f.values = f.value := by
  have first : "symbols" < "to" := by decide
  have second : "timestamp" < "type" := by decide
  have third : "to" < "type" := by decide
  cases f with
  | heartbeat timestamp => simp [values, value, Json.ofMembers, Json.insertMember, second]
  | subscription action kind symbols =>
    cases symbols <;> simp [values, value, Json.ofMembers, Json.insertMember, first, third]

def ofJson? (j : Json) : Option Frame := do
  let type ← (← j.get? "type").string?
  if type = "heartbeat" then
    match ← j.get? "timestamp" with
    | .number (.integer timestamp) => return heartbeat timestamp
    | _ => none
  else
    let action ← Action.ofName? type
    let kind ← EventKind.ofName? (← (← j.get? "to").string?)
    match j.get? "symbols" with
    | none => return subscription action kind none
    | some (.array items) => return subscription action kind (some (← items.mapM Json.string?))
    | some _ => none

theorem mapM_string? (symbols : List String) :
    (symbols.map Json.string).mapM Json.string? = some symbols := by
  induction symbols with
  | nil => rfl
  | cons s symbols ih =>
    rw [List.map_cons, List.mapM_cons, ih]
    rfl

theorem ofJson?_value (f : Frame) : ofJson? f.value = some f := by
  cases f with
  | heartbeat timestamp => rfl
  | subscription action kind symbols =>
    have other : action.name ≠ "heartbeat" := by cases action <;> decide
    cases symbols with
    | none =>
      simp [ofJson?, value, Json.get?, Json.string?, other, Action.ofName?_name,
        EventKind.ofName?_name]
    | some symbols =>
      simp [ofJson?, value, Json.get?, Json.string?, other, Action.ofName?_name,
        EventKind.ofName?_name, -List.mapM_map, mapM_string?]

def Stamped : Frame → Prop
  | subscription .. => True
  | heartbeat timestamp => Json.Fits timestamp

theorem reads_quotes (symbols : List String) :
    Json.Reads 1 (Json.renderItems (symbols.map Json.quote)) (.array (symbols.map .string)) := by
  apply Json.Reads.array
  rw [List.forall₂_map_left_iff, List.forall₂_map_right_iff]
  exact List.forall₂_same.2 fun s _ => Json.reads_quote s

theorem reads_members (f : Frame) (h : f.Stamped) :
    List.Forall₂ (Json.ReadsMember 1) f.members f.values := by
  have name (key s : String) : Json.ReadsMember 1 (key, Json.quote s) (key, .string s) :=
    ⟨rfl, (Json.reads_quote s).mono (by omega)⟩
  cases f with
  | heartbeat timestamp =>
    have stamp := Json.reads_literal (Json.spells_integerText timestamp) (Json.number?_ofInt h)
    exact .cons (name ..) (.cons ⟨rfl, stamp.mono (by omega)⟩ .nil)
  | subscription action kind symbols =>
    cases symbols with
    | none => exact .cons (name ..) (.cons (name ..) .nil)
    | some symbols =>
      exact .cons (name ..) (.cons (name ..) (.cons ⟨rfl, reads_quotes symbols⟩ .nil))

theorem parse?_render (f : Frame) (h : f.Stamped) : Json.parse? f.render = some f.value := by
  rw [← ofMembers_values]
  exact (Json.Reads.object (reads_members f h)).parse? (by decide)

/-- What is read from the text of a request is the request, from an object that has its members and
no others; so it is with the text of a heartbeat of any time. -/
theorem survives_wire (action : Action) (kind : EventKind) (symbols : List String)
    (timestamp : Int64) :
    (∃ members, Json.parse? (request action kind symbols).render = some (.object members) ∧
      members.map (·.1) = (if kind.isAccount then [] else ["symbols"]) ++ ["to", "type"] ∧
      ofJson? (.object members) = some (request action kind symbols)) ∧
    ∃ members, Json.parse? (heartbeat timestamp.toInt).render = some (.object members) ∧
      members.map (·.1) = ["timestamp", "type"] ∧
      ofJson? (.object members) = some (heartbeat timestamp.toInt) := by
  have stamped : Stamped (heartbeat timestamp.toInt) := by
    have least := timestamp.le_toInt
    have greatest := timestamp.toInt_lt
    refine ⟨by omega, ?_⟩
    unfold Json.maxSignificand
    omega
  refine ⟨⟨_, parse?_render _ trivial, ?_, ofJson?_value (request action kind symbols)⟩,
    ⟨_, parse?_render _ stamped, rfl, ofJson?_value (heartbeat timestamp.toInt)⟩⟩
  cases kind <;> rfl

end Frame

end MarketFeed
