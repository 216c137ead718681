import Mathlib
import MarketFeed.Session
import MarketFeed.Proofs.Names
import MarketFeed.Proofs.Texts

/-!
# Bodies of session responses

The members of the object `stream`, or those of the body itself if it has no such object, describe a
session. A body is decoded to the session that is described, or else fails for what it lacks.
-/

namespace MarketFeed.Session

inductive Describes (body : Json) : Json → Prop where
  | nested {members : List (String × Json)} (h : body.HasMember "stream" (.object members)) :
    Describes body (.object members)
  | flat (h : ∀ members, ¬ body.HasMember "stream" (.object members)) : Describes body body

inductive Decodes (now : Instant) (ttl : Duration) (body : String) :
    Except FeedError Session → Prop where
  | unread (h : Json.parse? body = none) : Decodes now ttl body (.error notJson)
  | noUrl {value d : Json} (hv : Json.parse? body = some value) (hd : Describes value d)
    (hu : ∀ url, ¬ d.HasMember "url" (.string url)) :
    Decodes now ttl body (.error (.parse "session response missing 'url'"))
  | noId {value d : Json} {url : String} (hv : Json.parse? body = some value)
    (hd : Describes value d) (hu : d.HasMember "url" (.string url))
    (hi : ∀ id, ¬ d.HasMember "sessionid" (.string id)) :
    Decodes now ttl body (.error (.parse "session response missing 'sessionid'"))
  | session {value d : Json} {url id : String} (hv : Json.parse? body = some value)
    (hd : Describes value d) (hu : d.HasMember "url" (.string url))
    (hi : d.HasMember "sessionid" (.string id)) : Decodes now ttl body (.ok (withTtl now url id ttl))

/-! ## Descriptions -/

section
variable {body d : Json}

theorem Describes.description_eq (h : Describes body d) (ordered : body.Ordered) :
    description body = d := by
  unfold description
  cases h with
  | nested h => rw [ordered.hasMember_iff.1 h]
  | flat h =>
    split
    · rename_i members found
      exact absurd (ordered.hasMember_iff.2 found) (h members)
    · rfl

theorem exists_describes (body : Json) : ∃ d, Describes body d := by
  by_cases h : ∃ members, body.HasMember "stream" (.object members)
  · obtain ⟨members, nested⟩ := h
    exact ⟨_, .nested nested⟩
  · exact ⟨body, .flat (not_exists.1 h)⟩

theorem Describes.ordered (h : Describes body d) (ordered : body.Ordered) : d.Ordered := by
  cases h with
  | nested h =>
    obtain ⟨members, rfl, mem⟩ := h
    cases ordered with
    | scalar none => cases none
    | object _ values => exact values _ mem
  | flat => exact ordered

theorem stringMember_of_hasMember (ordered : d.Ordered) {name s : String}
    (h : d.HasMember name (.string s)) : stringMember d name = .ok s := by
  unfold stringMember
  rw [ordered.hasMember_iff.1 h]
  rfl

theorem stringMember_of_not (ordered : d.Ordered) {name : String}
    (h : ∀ s, ¬ d.HasMember name (.string s)) : stringMember d name = .error (missingMember name) := by
  unfold stringMember
  cases found : d.get? name with
  | none => rfl
  | some v =>
    cases v with
    | string s => exact absurd (ordered.hasMember_iff.2 found) (h s)
    | _ => rfl

end

/-! ## Decoding -/

section
variable {now : Instant} {ttl : Duration} {body : String}

theorem Decodes.ofBody_eq {r : Except FeedError Session} (h : Decodes now ttl body r) :
    ofBody now ttl body = r := by
  unfold ofBody
  cases h with
  | unread h => rw [h]
  | noUrl hv hd hu =>
    have ordered := Json.ordered_of_parse? hv
    simp only [hv, hd.description_eq ordered, stringMember_of_not (hd.ordered ordered) hu]
    rfl
  | noId hv hd hu hi =>
    have ordered := Json.ordered_of_parse? hv
    simp only [hv, hd.description_eq ordered, stringMember_of_hasMember (hd.ordered ordered) hu,
      stringMember_of_not (hd.ordered ordered) hi]
    rfl
  | session hv hd hu hi =>
    have ordered := Json.ordered_of_parse? hv
    simp only [hv, hd.description_eq ordered, stringMember_of_hasMember (hd.ordered ordered) hu,
      stringMember_of_hasMember (hd.ordered ordered) hi]
    rfl

theorem exists_decodes (now : Instant) (ttl : Duration) (body : String) :
    ∃ r, Decodes now ttl body r := by
  cases hv : Json.parse? body with
  | none => exact ⟨_, .unread hv⟩
  | some value =>
    obtain ⟨d, hd⟩ := exists_describes value
    by_cases hu : ∃ url, d.HasMember "url" (.string url)
    · obtain ⟨url, hu⟩ := hu
      by_cases hi : ∃ id, d.HasMember "sessionid" (.string id)
      · obtain ⟨id, hi⟩ := hi
        exact ⟨_, .session hv hd hu hi⟩
      · exact ⟨_, .noId hv hd hu (not_exists.1 hi)⟩
    · exact ⟨_, .noUrl hv hd (not_exists.1 hu)⟩

theorem ofBody_eq_iff {r : Except FeedError Session} :
    ofBody now ttl body = r ↔ Decodes now ttl body r := by
  refine ⟨fun h => ?_, Decodes.ofBody_eq⟩
  obtain ⟨r', decodes⟩ := exists_decodes now ttl body
  rwa [← h, decodes.ofBody_eq]

end

/-! ## Plain bodies -/

def flatBody (url id : String) : String :=
  Json.renderMembers [("url", Json.quote url), ("sessionid", Json.quote id)]

def nestedBody (url id : String) : String := Json.renderMembers [("stream", flatBody url id)]

section
variable (url id : String)

def plainMembers : List (String × Json) := [("sessionid", .string id), ("url", .string url)]

theorem reads_flatBody : Json.Reads 1 (flatBody url id) (.object (plainMembers url id)) := by
  have name (key s : String) : Json.ReadsMember 0 (key, Json.quote s) (key, .string s) :=
    ⟨rfl, Json.reads_quote s⟩
  have sorted : Json.ofMembers [("url", .string url), ("sessionid", .string id)] =
      .object (plainMembers url id) := by
    have order : "sessionid" < "url" := by decide
    simp [Json.ofMembers, Json.insertMember, plainMembers, order]
  exact sorted ▸ Json.Reads.object (.cons (name ..) (.cons (name ..) .nil))

theorem parse?_flatBody : Json.parse? (flatBody url id) = some (.object (plainMembers url id)) :=
  (reads_flatBody url id).parse? (by decide)

theorem parse?_nestedBody : Json.parse? (nestedBody url id) =
    some (.object [("stream", .object (plainMembers url id))]) := by
  have member : Json.ReadsMember 1 ("stream", flatBody url id)
      ("stream", .object (plainMembers url id)) := ⟨rfl, reads_flatBody url id⟩
  exact (Json.Reads.object (.cons member .nil)).parse? (by decide)

theorem hasMember_url : (Json.object (plainMembers url id)).HasMember "url" (.string url) :=
  ⟨_, rfl, by simp [plainMembers]⟩

theorem hasMember_id : (Json.object (plainMembers url id)).HasMember "sessionid" (.string id) :=
  ⟨_, rfl, by simp [plainMembers]⟩

variable (now : Instant) (ttl : Duration)

theorem ofBody_flatBody : ofBody now ttl (flatBody url id) = .ok (withTtl now url id ttl) := by
  have flat : Describes (.object (plainMembers url id)) (.object (plainMembers url id)) := by
    apply Describes.flat
    rintro members ⟨_, ⟨⟩, mem⟩
    simp [plainMembers] at mem
  exact ofBody_eq_iff.2 (.session (parse?_flatBody url id) flat (hasMember_url url id)
    (hasMember_id url id))

theorem ofBody_nestedBody : ofBody now ttl (nestedBody url id) = .ok (withTtl now url id ttl) := by
  have nested : Describes (.object [("stream", .object (plainMembers url id))])
      (.object (plainMembers url id)) := .nested ⟨_, rfl, by simp⟩
  exact ofBody_eq_iff.2 (.session (parse?_nestedBody url id) nested (hasMember_url url id)
    (hasMember_id url id))

end

/-- Every body comes to what is described, and to nothing else. The object `stream` alone decides where
there is one. Every address and id can be sent in both shapes, and the session has exactly these and is
active just if neither is empty. -/
theorem body_shapes_agree (now : Instant) (ttl : Duration) :
    (∀ body r, ofBody now ttl body = r ↔ Decodes now ttl body r) ∧
    (∀ body body' value value' members,
      Json.parse? body = some value → value.HasMember "stream" (.object members) →
      Json.parse? body' = some value' → value'.HasMember "stream" (.object members) →
      ofBody now ttl body = ofBody now ttl body') ∧
    ∀ url id, ofBody now ttl (nestedBody url id) = .ok (withTtl now url id ttl) ∧
      ofBody now ttl (flatBody url id) = .ok (withTtl now url id ttl) ∧
      (withTtl now url id ttl).url = url ∧ (withTtl now url id ttl).id = id ∧
      ((withTtl now url id ttl).isActive = true ↔ url ≠ "" ∧ id ≠ "") := by
  refine ⟨fun body r => ofBody_eq_iff, fun body body' value value' members hv h hv' h' => ?_,
    fun url id => ⟨ofBody_nestedBody .., ofBody_flatBody .., rfl, rfl, ?_⟩⟩
  · have eq := Describes.description_eq (.nested h) (Json.ordered_of_parse? hv)
    have eq' := Describes.description_eq (.nested h') (Json.ordered_of_parse? hv')
    unfold ofBody
    simp only [hv, hv', eq, eq']
  · show (decide (url ≠ "") && decide (id ≠ "")) = true ↔ _
    rw [Bool.and_eq_true, decide_eq_true_iff, decide_eq_true_iff]

/-- An address and an id beside the object `stream` do not count. -/
theorem outerMembers_ignored :
    ofBody .latest .zero (Json.renderMembers [("url", Json.quote "wss://y"),
        ("stream", flatBody "wss://x" "abc"), ("sessionid", Json.quote "def")]) =
      .ok (withTtl .latest "wss://x" "abc" .zero) := by
  obtain ⟨-, same, plain⟩ := body_shapes_agree .latest .zero
  have name (key s : String) : Json.ReadsMember 1 (key, Json.quote s) (key, .string s) :=
    ⟨rfl, (Json.reads_quote s).mono (by omega)⟩
  have stream : Json.ReadsMember 1 ("stream", flatBody "wss://x" "abc")
      ("stream", .object (plainMembers "wss://x" "abc")) := ⟨rfl, reads_flatBody "wss://x" "abc"⟩
  have parsed := (Json.Reads.object (.cons (name "url" "wss://y") (.cons stream
    (.cons (name "sessionid" "def") .nil)))).parse? (by decide)
  have inner : Json.HasMember _ "stream" (.object (plainMembers "wss://x" "abc")) :=
    (Json.ordered_of_parse? parsed).hasMember_iff.2 rfl
  exact (same _ _ _ _ _ parsed inner (parse?_nestedBody "wss://x" "abc") ⟨_, rfl, by simp⟩).trans
    (plain "wss://x" "abc").1

end MarketFeed.Session
