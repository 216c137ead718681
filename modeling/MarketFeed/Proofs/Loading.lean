import Mathlib
import MarketFeed.Proofs.Items
import MarketFeed.Proofs.Literals

/-!
# Loading settings

Every setting has a variable of its own, a form in which the variable spells its values, and, but for
the access token, a default. Loading takes for each setting what its variable spells, or the default,
and fails only for the token.
-/

namespace MarketFeed

/-! ## Numerals and words -/

namespace Digits

def Numeral (cs : List Char) (n : Nat) : Prop :=
  ∃ ds, (cs = ds ∨ cs = '+' :: ds) ∧ Run ds ∧ value ds = n

theorem toNat?_eq_some_iff {cs : List Char} {n : Nat} :
    toNat? cs = some n ↔ Run cs ∧ value cs = n := by
  unfold toNat? Run
  simp

theorem boundedNat?_eq_some_iff {greatest n : Nat} {cs : List Char} :
    boundedNat? greatest cs = some n ↔ Numeral cs n ∧ n ≤ greatest := by
  unfold boundedNat? Numeral
  rw [Option.filter_eq_some_iff, toNat?_eq_some_iff, decide_eq_true_iff]
  refine and_congr_left fun _ => ?_
  split
  · rename_i r
    constructor
    · exact fun h => ⟨r, .inr rfl, h⟩
    · rintro ⟨ds, rfl | same, h⟩
      · exact absurd (h.1.2 '+' (List.mem_cons_self ..)) (by decide)
      · cases same
        exact h
  · rename_i bare
    constructor
    · exact fun h => ⟨cs, .inl rfl, h⟩
    · rintro ⟨ds, rfl | same, h⟩
      · exact h
      · exact absurd same (bare ds)

theorem numeral_repr (n : Nat) : Numeral (Nat.repr n).toList n := by
  have spelled : (Nat.repr n).toList = Nat.toDigits 10 n := String.toList_ofList
  rw [spelled]
  exact ⟨_, .inl rfl, (Json.isWhole_toDigits n).1, value_toDigits n⟩

end Digits

def boolWords : Bool → List String
  | true => ["1", "true", "yes", "on"]
  | false => ["0", "false", "no", "off"]

theorem mem_boolWords_iff (b : Bool) (s : String) :
    String.ofList (asciiLower s.toList) ∈ boolWords b ↔ ∃ w ∈ boolWords b, sameUpToCase s w = true := by
  have lower : ∀ w ∈ boolWords b, asciiLower w.toList = w.toList := by cases b <;> decide
  have named {w : String} (hw : w ∈ boolWords b) :
      String.ofList (asciiLower s.toList) = w ↔ sameUpToCase s w = true := by
    unfold sameUpToCase
    rw [beq_iff_eq, lower w hw, ← String.toList_inj, String.toList_ofList]
  constructor
  · exact fun h => ⟨_, h, (named h).1 rfl⟩
  · rintro ⟨w, hw, same⟩
    exact (named hw).2 same ▸ hw

theorem boolWord?_eq_some_iff (s : String) (b : Bool) :
    Variables.boolWord? s = some b ↔ ∃ w ∈ boolWords b, sameUpToCase s w = true := by
  have apart : ∀ w ∈ boolWords false, w ∉ boolWords true := by decide
  have read : Variables.boolWord? s =
      if String.ofList (asciiLower s.toList) ∈ boolWords true then some true
      else if String.ofList (asciiLower s.toList) ∈ boolWords false then some false else none := rfl
  rw [read, ← mem_boolWords_iff]
  cases b with
  | true => split_ifs <;> simp_all
  | false =>
    split_ifs with yes no
    · exact iff_of_false (by simp) fun no => apart _ no yes
    · exact iff_of_true rfl no
    · exact iff_of_false (by simp) no

/-! ## Forms -/

inductive Format where
  | filled
  | environment
  | whole (bound : Nat)
  | seconds
  | millis
  | float
  | bool
  | list
  deriving DecidableEq, Repr

namespace Format

def Value : Format → Type
  | filled => String
  | environment => Environment
  | whole _ => Nat
  | seconds | millis => Duration
  | float => Binary64
  | bool => Bool
  | list => TextSet

inductive Spells : (f : Format) → String → f.Value → Prop where
  | filled {t : String} (h : t ≠ "") : Spells filled t t
  | environment (t : String) : Spells environment t (Environment.ofName t)
  | whole {bound n : Nat} {t : String} (ht : Digits.Numeral t.toList n) (hn : n < bound) :
    Spells (whole bound) t n
  | seconds {n : Nat} {t : String} {d : Duration} (ht : Digits.Numeral t.toList n) (hn : n < 2 ^ 64)
    (hd : d.nanos = n * 1000000000) : Spells seconds t d
  | millis {n : Nat} {t : String} {d : Duration} (ht : Digits.Numeral t.toList n) (hn : n < 2 ^ 64)
    (hd : d.nanos = n * 1000000) : Spells millis t d
  | float {t : String} {x : Binary64} (h : Binary64.ofText? t.toList = some x) : Spells float t x
  | bool {t : String} {b : Bool}
    (h : ∃ w ∈ boolWords b, sameUpToCase t w = true) : Spells bool t b
  | list {t : String} {set : TextSet} (h : ∀ x, x ∈ set ↔ x ∈ parseList t) : Spells list t set

def read? : (f : Format) → String → Option f.Value
  | filled, t => if t = "" then none else some t
  | environment, t => some (Environment.ofName t)
  | whole bound, t => Digits.boundedNat? (bound - 1) t.toList
  | seconds, t => (Digits.boundedNat? ((1 <<< 64) - 1) t.toList).map Duration.ofSeconds
  | millis, t => (Digits.boundedNat? ((1 <<< 64) - 1) t.toList).map Duration.ofMillis
  | float, t => Binary64.ofText? t.toList
  | bool, t => Variables.boolWord? t
  | list, t => some (TextSet.ofList (parseList t))

theorem nanos_ofSeconds {n : Nat} (h : n < 2 ^ 64) : (Duration.ofSeconds n).nanos = n * 1000000000 :=
  Duration.nanos_clamp (by unfold durationLimit nanosPerSecond; omega)

theorem nanos_ofMillis {n : Nat} (h : n < 2 ^ 64) : (Duration.ofMillis n).nanos = n * 1000000 :=
  Duration.nanos_clamp (by unfold durationLimit nanosPerSecond nanosPerMilli; omega)

theorem bounded_iff {bound n : Nat} {cs : List Char} (h : 0 < bound) :
    Digits.boundedNat? (bound - 1) cs = some n ↔ Digits.Numeral cs n ∧ n < bound := by
  rw [Digits.boundedNat?_eq_some_iff, Nat.le_sub_one_iff_lt h]

/-- A bound leaves room for a value. -/
def Proper : Format → Prop
  | whole bound => 0 < bound
  | _ => True

theorem read?_eq_some_iff {f : Format} (proper : f.Proper) {t : String} {v : f.Value} :
    f.read? t = some v ↔ f.Spells t v := by
  have duration {unit : Nat → Duration} {per : Nat} {d : Duration}
      (nanos : ∀ {n}, n < 2 ^ 64 → (unit n).nanos = n * per) :
      (Digits.boundedNat? ((1 <<< 64) - 1) t.toList).map unit = some d ↔
        ∃ n, Digits.Numeral t.toList n ∧ n < 2 ^ 64 ∧ d.nanos = n * per := by
    rw [Option.map_eq_some_iff]
    refine exists_congr fun n => ?_
    rw [bounded_iff (by decide), and_assoc]
    refine and_congr_right fun _ => and_congr_right fun hn => ?_
    exact ⟨fun same => same ▸ nanos hn, fun hd => Duration.ext ((nanos hn).trans hd.symm)⟩
  cases f with
  | filled =>
    show (if t = "" then none else some t) = some v ↔ _
    constructor
    · intro h
      split_ifs at h with empty
      cases h
      exact .filled empty
    · intro h
      cases h with
      | filled h => exact if_neg h
  | environment =>
    exact ⟨fun h => Option.some.inj h ▸ .environment t, fun | .environment _ => rfl⟩
  | whole bound =>
    exact (bounded_iff proper).trans ⟨fun h => .whole h.1 h.2, fun | .whole ht hn => ⟨ht, hn⟩⟩
  | seconds =>
    exact (duration nanos_ofSeconds).trans
      ⟨fun ⟨_, ht, hn, hd⟩ => .seconds ht hn hd, fun | .seconds ht hn hd => ⟨_, ht, hn, hd⟩⟩
  | millis =>
    exact (duration nanos_ofMillis).trans
      ⟨fun ⟨_, ht, hn, hd⟩ => .millis ht hn hd, fun | .millis ht hn hd => ⟨_, ht, hn, hd⟩⟩
  | float => exact ⟨.float, fun | .float h => h⟩
  | bool => exact (boolWord?_eq_some_iff t v).trans ⟨.bool, fun | .bool h => h⟩
  | list =>
    constructor
    · intro h
      rw [← Option.some.inj h]
      exact .list fun _ => TextSet.mem_ofList
    · intro h
      cases h with
      | list h =>
        exact congrArg some (TextSet.eq_of_mem_iff fun x => TextSet.mem_ofList.trans (h x).symm)

inductive Canonical : (f : Format) → String → f.Value → Prop where
  | whole {bound n : Nat} (h : n < bound) : Canonical (whole bound) (Nat.repr n) n
  | seconds {n : Nat} {d : Duration} (h : n < 2 ^ 64) (hd : d.nanos = n * 1000000000) :
    Canonical seconds (Nat.repr n) d
  | millis {n : Nat} {d : Duration} (h : n < 2 ^ 64) (hd : d.nanos = n * 1000000) :
    Canonical millis (Nat.repr n) d
  | bool {b : Bool} {w : String} (h : w ∈ boolWords b) : Canonical bool w b
  | list {items : List String} {set : TextSet} (clean : ∀ item ∈ items, Clean item)
    (h : ∀ x, x ∈ set ↔ x ∈ items) : Canonical list (",".intercalate items) set

theorem Canonical.spells {f : Format} {t : String} {v : f.Value} (h : f.Canonical t v) :
    f.Spells t v := by
  cases h with
  | whole h => exact .whole (Digits.numeral_repr _) h
  | seconds h hd => exact .seconds (Digits.numeral_repr _) h hd
  | millis h hd => exact .millis (Digits.numeral_repr _) h hd
  | bool h => exact .bool ⟨_, h, beq_self_eq_true _⟩
  | list clean h =>
    refine .list fun x => ?_
    rw [parseList_join clean]
    exact h x

end Format

/-! ## Settings -/

inductive Setting where
  | accessToken
  | environment
  | baseUrl
  | timeout
  | maxRetries
  | initialBackoff
  | maxBackoff
  | rateLimitBurst
  | rateLimitPerSecond
  | autoReconnect
  | reconnectDelay
  | maxReconnectAttempts
  | heartbeatInterval
  | filterDuplicates
  | validExchanges
  | ttl
  | renewMargin
  | metricsPort
  deriving DecidableEq, Repr

namespace Setting

def name : Setting → String
  | accessToken => "TRADIER_ACCESS_TOKEN"
  | environment => "TRADIER_ENV"
  | baseUrl => "TRADIER_API_BASE_URL"
  | timeout => "TRADIER_HTTP_TIMEOUT_SECS"
  | maxRetries => "TRADIER_HTTP_MAX_RETRIES"
  | initialBackoff => "TRADIER_HTTP_INITIAL_BACKOFF_MS"
  | maxBackoff => "TRADIER_HTTP_MAX_BACKOFF_MS"
  | rateLimitBurst => "TRADIER_HTTP_RATE_LIMIT_BURST"
  | rateLimitPerSecond => "TRADIER_HTTP_RATE_LIMIT_PER_SECOND"
  | autoReconnect => "TRADIER_STREAM_AUTO_RECONNECT"
  | reconnectDelay => "TRADIER_STREAM_RECONNECT_DELAY_MS"
  | maxReconnectAttempts => "TRADIER_STREAM_MAX_RECONNECT_ATTEMPTS"
  | heartbeatInterval => "TRADIER_STREAM_HEARTBEAT_INTERVAL_MS"
  | filterDuplicates => "TRADIER_STREAM_FILTER_DUPLICATES"
  | validExchanges => "TRADIER_STREAM_VALID_EXCHANGES"
  | ttl => "TRADIER_SESSION_TTL_SECS"
  | renewMargin => "TRADIER_SESSION_RENEW_MARGIN_SECS"
  | metricsPort => "TRADIER_METRICS_PORT"

def format : Setting → Format
  | accessToken | baseUrl => .filled
  | environment => .environment
  | timeout | ttl | renewMargin => .seconds
  | initialBackoff | maxBackoff | reconnectDelay | heartbeatInterval => .millis
  | maxRetries | rateLimitBurst | maxReconnectAttempts => .whole (1 <<< 32)
  | metricsPort => .whole (1 <<< 16)
  | rateLimitPerSecond => .float
  | autoReconnect | filterDuplicates => .bool
  | validExchanges => .list

def value : (s : Setting) → Settings → s.format.Value
  | accessToken, c => c.accessToken
  | environment, c => c.environment
  | baseUrl, c => c.baseUrl
  | timeout, c => c.http.timeout
  | maxRetries, c => c.http.maxRetries
  | initialBackoff, c => c.http.initialBackoff
  | maxBackoff, c => c.http.maxBackoff
  | rateLimitBurst, c => c.http.rateLimitBurst
  | rateLimitPerSecond, c => c.http.rateLimitPerSecond
  | autoReconnect, c => c.stream.autoReconnect
  | reconnectDelay, c => c.stream.reconnectDelay
  | maxReconnectAttempts, c => c.stream.maxReconnectAttempts
  | heartbeatInterval, c => c.stream.heartbeatInterval
  | filterDuplicates, c => c.stream.filterDuplicates
  | validExchanges, c => c.stream.validExchanges
  | ttl, c => c.session.ttl
  | renewMargin, c => c.session.renewMargin
  | metricsPort, c => c.metricsPort

def default? (e : Environment) : (s : Setting) → Option s.format.Value
  | accessToken => none
  | environment => some Environment.sandbox
  | baseUrl => some e.baseUrl
  | timeout => some (Duration.ofSeconds 30)
  | maxRetries => some (3 : Nat)
  | initialBackoff => some (Duration.ofMillis 500)
  | maxBackoff => some (Duration.ofSeconds 10)
  | rateLimitBurst => some (10 : Nat)
  | rateLimitPerSecond => some (Binary64.ofNat 2)
  | autoReconnect => some true
  | reconnectDelay => some (Duration.ofSeconds 5)
  | maxReconnectAttempts => some (10 : Nat)
  | heartbeatInterval => some (Duration.ofSeconds 30)
  | filterDuplicates => some false
  | validExchanges => some TextSet.empty
  | ttl => some (Duration.ofSeconds (8 * 60 * 60))
  | renewMargin => some (Duration.ofSeconds 300)
  | metricsPort => some (0 : Nat)

theorem name_injective : Function.Injective name := by
  intro s s' h
  cases s <;> cases s' <;> first | rfl | exact absurd h (by decide)

theorem format_proper (s : Setting) : s.format.Proper := by
  cases s with
  | maxRetries | rateLimitBurst | maxReconnectAttempts => exact (by decide : 0 < 1 <<< 32)
  | metricsPort => exact (by decide : 0 < 1 <<< 16)
  | _ => trivial

theorem default?_congr {s : Setting} (h : s ≠ baseUrl) (e e' : Environment) :
    s.default? e = s.default? e' := by
  cases s <;> first | rfl | exact absurd rfl h

theorem eq_of_values {c c' : Settings} (h : ∀ s : Setting, s.value c = s.value c') : c = c' := by
  obtain ⟨_, _, _, ⟨_, _, _, _, _, _⟩, ⟨_, _, _, _, _, _⟩, ⟨_, _⟩, _⟩ := c
  obtain ⟨_, _, _, ⟨_, _, _, _, _, _⟩, ⟨_, _, _, _, _, _⟩, ⟨_, _⟩, _⟩ := c'
  simp only [Settings.mk.injEq, HttpSettings.mk.injEq, StreamSettings.mk.injEq,
    SessionSettings.mk.injEq]
  exact ⟨h environment, h baseUrl, h accessToken,
    ⟨h timeout, h maxRetries, h initialBackoff, h maxBackoff, h rateLimitBurst,
      h rateLimitPerSecond⟩,
    ⟨h autoReconnect, h reconnectDelay, h maxReconnectAttempts, h heartbeatInterval,
      h filterDuplicates, h validExchanges⟩,
    ⟨h ttl, h renewMargin⟩, h metricsPort⟩

end Setting

namespace Variables

variable {vars : Variables}

def reading (vars : Variables) (s : Setting) : Option s.format.Value :=
  (vars.text? s.name).bind s.format.read?

/-! ## Loading -/

theorem text?_eq_some_iff {name t : String} : vars.text? name = some t ↔ vars name = some (.text t) := by
  unfold text?
  split <;> simp_all

theorem text?_eq_none_iff {name : String} :
    vars.text? name = none ↔ vars name = none ∨ vars name = some .undecodable := by
  unfold text?
  rcases vars name with _ | _ | _ <;> simp

section
variable (vars) (name : String)

theorem nat_eq (bound default : Nat) : vars.nat name bound default =
    ((vars.text? name).bind (Format.whole bound).read?).getD default := rfl

theorem float_eq (default : Binary64) : vars.float name default =
    ((vars.text? name).bind Format.float.read?).getD default := rfl

theorem bool_eq (default : Bool) : vars.bool name default =
    ((vars.text? name).bind Format.bool.read?).getD default := rfl

theorem seconds_eq (default : Duration) : vars.seconds name default =
    ((vars.text? name).bind Format.seconds.read?).getD default := by
  unfold seconds
  cases vars.text? name <;> rfl

theorem millis_eq (default : Duration) : vars.millis name default =
    ((vars.text? name).bind Format.millis.read?).getD default := by
  unfold millis
  cases vars.text? name <;> rfl

theorem filled_eq (default : String) : ((vars.text? name).filter (· ≠ "")).getD default =
    ((vars.text? name).bind Format.filled.read?).getD default := by
  cases vars.text? name with
  | none => rfl
  | some t =>
    rw [Option.filter_some, Option.bind_some]
    show _ = Option.getD (if t = "" then none else some t) default
    by_cases empty : t = "" <;> simp [empty]

theorem environment_eq : vars.environment =
    ((vars.text? "TRADIER_ENV").bind Format.environment.read?).getD Environment.sandbox := by
  unfold environment
  cases vars.text? "TRADIER_ENV" <;> rfl

theorem list_eq : ((vars.text? name).map fun s => TextSet.ofList (parseList s)).getD .empty =
    ((vars.text? name).bind Format.list.read?).getD TextSet.empty := by
  cases vars.text? name <;> rfl

end

theorem settings_eq_error_iff {e : SettingsError} : vars.settings = .error e ↔
    (vars.text? "TRADIER_ACCESS_TOKEN" = none ∧ e = .missing "TRADIER_ACCESS_TOKEN") ∨
      (vars.text? "TRADIER_ACCESS_TOKEN" = some "" ∧ e = .empty "TRADIER_ACCESS_TOKEN") := by
  unfold settings accessToken
  cases vars.text? "TRADIER_ACCESS_TOKEN" with
  | none => simp [bind, Except.bind, eq_comm]
  | some t => by_cases empty : t = "" <;> simp [bind, Except.bind, pure, Except.pure, empty, eq_comm]

theorem accessToken_of_settings {c : Settings} (h : vars.settings = .ok c) :
    vars.text? "TRADIER_ACCESS_TOKEN" = some c.accessToken ∧ c.accessToken ≠ "" := by
  unfold settings accessToken at h
  cases token : vars.text? "TRADIER_ACCESS_TOKEN" with
  | none =>
    rw [token] at h
    cases h
  | some t =>
    rw [token] at h
    by_cases empty : t = ""
    · simp only [if_pos empty] at h
      cases h
    · simp only [if_neg empty] at h
      cases h
      exact ⟨rfl, empty⟩

theorem settings_eq_of_ok {c : Settings} (h : vars.settings = .ok c) :
    c = ⟨vars.environment, vars.baseUrl, c.accessToken, vars.http, vars.stream, vars.session,
      vars.nat "TRADIER_METRICS_PORT" (1 <<< 16) 0⟩ := by
  unfold settings at h
  cases token : vars.accessToken with
  | error e =>
    rw [token] at h
    cases h
  | ok t =>
    rw [token] at h
    cases h
    rfl

theorem value_of_settings {c : Settings} (h : vars.settings = .ok c) (s : Setting) :
    (vars.reading s).or (s.default? c.environment) = some (s.value c) := by
  have defaulted {α : Type} {o : Option α} {d v : α} (hv : v = o.getD d) : o.or (some d) = some v :=
    Option.or_some.trans (congrArg some hv.symm)
  rw [settings_eq_of_ok h]
  cases s with
  | accessToken =>
    obtain ⟨token, filled⟩ := accessToken_of_settings h
    show ((vars.text? "TRADIER_ACCESS_TOKEN").bind fun t => if t = "" then none else some t).or none =
      some c.accessToken
    rw [token, Option.or_none]
    exact if_neg filled
  | environment => exact defaulted (environment_eq vars)
  | baseUrl => exact defaulted (filled_eq vars _ _)
  | timeout | ttl | renewMargin => exact defaulted (seconds_eq vars _ _)
  | initialBackoff | maxBackoff | reconnectDelay | heartbeatInterval =>
    exact defaulted (millis_eq vars _ _)
  | maxRetries | rateLimitBurst | maxReconnectAttempts | metricsPort =>
    exact defaulted (nat_eq vars _ _ _)
  | rateLimitPerSecond =>
    -- Once the field is laid bare no comparison has to compute a double.
    dsimp only [Setting.value, http]
    exact defaulted (float_eq vars _ _)
  | autoReconnect | filterDuplicates => exact defaulted (bool_eq vars _ _)
  | validExchanges => exact defaulted (list_eq vars _)

/-! ## What a variable decides -/

theorem reading_eq_some_iff {s : Setting} {v : s.format.Value} :
    vars.reading s = some v ↔ ∃ t, vars s.name = some (.text t) ∧ s.format.Spells t v := by
  unfold reading
  rw [Option.bind_eq_some_iff]
  refine exists_congr fun t => ?_
  rw [text?_eq_some_iff, Format.read?_eq_some_iff s.format_proper]

theorem reading_congr {vars' : Variables} {s : Setting} (h : vars s.name = vars' s.name) :
    vars.reading s = vars'.reading s := by
  unfold reading text?
  rw [h]

section
variable {c : Settings} (h : vars.settings = .ok c)
include h

theorem value_of_spells {s : Setting} {t : String} {v : s.format.Value}
    (ht : vars s.name = some (.text t)) (hv : s.format.Spells t v) : s.value c = v := by
  have loaded := value_of_settings h s
  rw [reading_eq_some_iff.2 ⟨t, ht, hv⟩, Option.some_or] at loaded
  exact (Option.some.inj loaded).symm

theorem value_of_not_spells {s : Setting}
    (none : ∀ t v, vars s.name = some (.text t) → ¬ s.format.Spells t v) :
    s.default? c.environment = some (s.value c) := by
  have unread : vars.reading s = Option.none := by
    by_contra some
    obtain ⟨v, read⟩ := Option.ne_none_iff_exists'.1 some
    obtain ⟨t, ht, hv⟩ := reading_eq_some_iff.1 read
    exact none t v ht hv
  simpa [unread] using value_of_settings h s

variable {vars' : Variables} {c' : Settings} (h' : vars'.settings = .ok c')
include h'

theorem value_congr {s : Setting} (same : vars s.name = vars' s.name)
    (default : s.default? c.environment = s.default? c'.environment) : s.value c = s.value c' := by
  have loaded := value_of_settings h s
  rw [reading_congr same, default] at loaded
  exact Option.some.inj (loaded.symm.trans (value_of_settings h' s))

theorem value_of_differ {name : String} (differ : ∀ n, n ≠ name → vars n = vars' n) (s : Setting)
    (other : s.name ≠ name) :
    s.value c = s.value c' ∨ s = .baseUrl ∧ name = "TRADIER_ENV" ∧
      ∀ t, vars "TRADIER_API_BASE_URL" = some (.text t) → t = "" := by
  have same := differ s.name other
  by_cases url : s = .baseUrl
  · subst url
    by_cases explicit : ∃ t, vars "TRADIER_API_BASE_URL" = some (.text t) ∧ t ≠ ""
    · obtain ⟨t, ht, filled⟩ := explicit
      have loaded := value_of_spells (s := .baseUrl) h ht (.filled filled)
      have loaded' := value_of_spells (s := .baseUrl) h' (same ▸ ht) (.filled filled)
      exact .inl (loaded.trans loaded'.symm)
    · by_cases env : name = "TRADIER_ENV"
      · refine .inr ⟨rfl, env, fun t ht => ?_⟩
        by_contra filled
        exact explicit ⟨t, ht, filled⟩
      · have environment : Setting.environment.value c = Setting.environment.value c' :=
          value_congr h h' (differ _ (Ne.symm env)) (Setting.default?_congr (by decide) ..)
        exact .inl (value_congr h h' same (congrArg (Setting.default? · .baseUrl) environment))
  · exact .inl (value_congr h h' same (Setting.default?_congr url ..))

end

/-- Loading fails exactly for an access token that is not there, cannot be read or is empty. The
settings are made of their fields, each with a variable of its own. A field is what its variable spells,
as a value in its canonical form is spelled, and the default if it spells nothing. Settings that are
loaded from variables that differ in one only differ at most in the field of that one, and in the
address of the service if it goes by the environment. -/
theorem settings_by_variable :
    (∀ (vars : Variables) e, vars.settings = .error e ↔
      (vars "TRADIER_ACCESS_TOKEN" = none ∨ vars "TRADIER_ACCESS_TOKEN" = some .undecodable) ∧
          e = .missing "TRADIER_ACCESS_TOKEN" ∨
        vars "TRADIER_ACCESS_TOKEN" = some (.text "") ∧ e = .empty "TRADIER_ACCESS_TOKEN") ∧
    Function.Injective Setting.name ∧
    (∀ c c' : Settings, (∀ s : Setting, s.value c = s.value c') → c = c') ∧
    (∀ (vars vars' : Variables) c c' name, vars.settings = .ok c → vars'.settings = .ok c' →
      (∀ n, n ≠ name → vars n = vars' n) → ∀ s : Setting, s.name ≠ name →
        s.value c = s.value c' ∨ s = .baseUrl ∧ name = "TRADIER_ENV" ∧
          ∀ t, vars "TRADIER_API_BASE_URL" = some (.text t) → t = "") ∧
    ∀ (vars : Variables) c, vars.settings = .ok c → ∀ s : Setting,
      ((∀ t v, vars s.name = some (.text t) → ¬ s.format.Spells t v) →
        s.default? c.environment = some (s.value c)) ∧
      (∀ t v, vars s.name = some (.text t) → s.format.Spells t v → s.value c = v) ∧
      ∀ t v, vars s.name = some (.text t) → s.format.Canonical t v → s.value c = v := by
  refine ⟨fun vars e => ?_, Setting.name_injective, fun _ _ => Setting.eq_of_values,
    fun _ _ _ _ _ h h' differ s => value_of_differ h h' differ s,
    fun _ _ h s => ⟨value_of_not_spells h, fun _ _ => value_of_spells h,
      fun _ _ ht hv => value_of_spells h ht hv.spells⟩⟩
  rw [settings_eq_error_iff, text?_eq_none_iff, text?_eq_some_iff]

def ofTexts (texts : List (String × String)) : Variables := fun name => (texts.lookup name).map .text

theorem heartbeat_by_variable :
    ∃ c c' : Settings,
      (ofTexts [("TRADIER_ACCESS_TOKEN", "t"),
        ("TRADIER_STREAM_HEARTBEAT_INTERVAL_MS", "1500")]).settings = .ok c ∧
      (ofTexts [("TRADIER_ACCESS_TOKEN", "t")]).settings = .ok c' ∧
      c.stream.heartbeatInterval = ⟨1500000000, by decide⟩ ∧
      c.stream.reconnectDelay = c'.stream.reconnectDelay := by
  obtain ⟨-, -, -, apart, loaded⟩ := settings_by_variable
  have set : (ofTexts [("TRADIER_ACCESS_TOKEN", "t"),
    ("TRADIER_STREAM_HEARTBEAT_INTERVAL_MS", "1500")]).settings = .ok _ := rfl
  have unset : (ofTexts [("TRADIER_ACCESS_TOKEN", "t")]).settings = .ok _ := rfl
  have differ (n : String) (h : n ≠ "TRADIER_STREAM_HEARTBEAT_INTERVAL_MS") :
      ofTexts [("TRADIER_ACCESS_TOKEN", "t"), ("TRADIER_STREAM_HEARTBEAT_INTERVAL_MS", "1500")] n =
        ofTexts [("TRADIER_ACCESS_TOKEN", "t")] n := by
    have unlike : (n == "TRADIER_STREAM_HEARTBEAT_INTERVAL_MS") = false := beq_eq_false_iff_ne.2 h
    simp [ofTexts, List.lookup_cons, unlike]
  refine ⟨_, _, set, unset, ?_, ?_⟩
  · exact (loaded _ _ set .heartbeatInterval).2.2 "1500" _ rfl (.millis (n := 1500) (by decide) rfl)
  · rcases apart _ _ _ _ _ set unset differ .reconnectDelay (by decide) with same | ⟨url, -⟩
    · exact same
    · cases url

end Variables

end MarketFeed
