import Mathlib
import MarketFeed.Proofs.Capitals
import MarketFeed.Proofs.Loading

/-!
# Words for the live environment

The live environment is named by `live` and `production` in any case, but words are compared by
their upper case, in which `ı` is an `I` as well. No other character beyond ASCII has an upper case
made of the capitals of these words. So loading selects the live environment for these words, and
for a text that becomes one of them when each `ı` is given its dot.
-/

namespace MarketFeed

/-! ## Words -/

namespace Environment

/-- A word for the live environment, in ASCII letters of either case. -/
def LiveWord (s : String) : Prop :=
  sameUpToCase s "live" = true ∨ sameUpToCase s "production" = true

def dotted (s : String) : String := String.ofList (s.toList.map Upper.dotted)

theorem dotted_eq_self {s : String} (h : 'ı' ∉ s.toList) : dotted s = s := by
  have same : s.toList.map Upper.dotted = s.toList.map id :=
    List.map_congr_left fun c hc => if_neg (ne_of_mem_of_not_mem hc h)
  rw [dotted, same, List.map_id, String.ofList_toList]

theorem LiveWord.not_mem {s : String} (h : LiveWord s) : 'ı' ∉ s.toList := by
  intro dotless
  have lower : 'ı' ∈ asciiLower s.toList := List.mem_map.2 ⟨'ı', dotless, by decide⟩
  unfold LiveWord sameUpToCase at h
  rw [beq_iff_eq, beq_iff_eq] at h
  rcases h with same | same <;> rw [same] at lower <;> exact absurd lower (by decide)

theorem ofName_eq_live_iff (s : String) : ofName s = live ↔ LiveWord (dotted s) := by
  have word (upper lower : String) (plain : ∀ n ∈ upper.toList.map Char.toNat, Upper.Plain n)
      (capital : upper.toList = lower.toList.map Char.toUpper) :
      Upper.text s.toList = upper.toList ↔ sameUpToCase (dotted s) lower = true := by
    rw [Upper.text_eq_iff fun d hd => plain _ (List.mem_map_of_mem hd), capital,
      Upper.map_toUpper_eq_iff, sameUpToCase, beq_iff_eq, dotted, String.toList_ofList]
  unfold ofName LiveWord
  rw [← word "LIVE" "live" (by decide) (by decide),
    ← word "PRODUCTION" "production" (by decide) (by decide)]
  dsimp only
  split_ifs with h
  · exact iff_of_true rfl h
  · exact iff_of_false (by decide) h

theorem baseUrl_eq_live_iff (e : Environment) : e.baseUrl = live.baseUrl ↔ e = live := by
  cases e <;> decide

theorem liveWord_dotted_iff (s : String) :
    LiveWord (dotted s) ↔ LiveWord s ∨ 'ı' ∈ s.toList ∧ LiveWord (dotted s) := by
  by_cases dotless : 'ı' ∈ s.toList
  · have no : ¬ LiveWord s := fun h => h.not_mem dotless
    simp [dotless, no]
  · simp [dotless, dotted_eq_self dotless]

end Environment

/-! ## Loading -/

namespace Variables

open Environment

variable (vars : Variables)

def HasToken : Prop := ∃ t, vars "TRADIER_ACCESS_TOKEN" = some (.text t) ∧ t ≠ ""

def HasBaseUrl : Prop := ∃ t, vars "TRADIER_API_BASE_URL" = some (.text t) ∧ t ≠ ""

def Names (kind : String → Prop) : Prop := ∃ s, vars "TRADIER_ENV" = some (.text s) ∧ kind s

def Yields (kind : Settings → Prop) : Prop := ∃ c, vars.settings = .ok c ∧ kind c

/-- The settings are for the live environment exactly if its variable is set to a live word, and so
is their address, unless that is set by itself. -/
def GoesByWord (c : Settings) : Prop :=
  (c.environment = live ↔ vars.Names LiveWord) ∧
    (¬ vars.HasBaseUrl → (c.baseUrl = live.baseUrl ↔ vars.Names LiveWord))

variable {vars}

theorem settings_ok_iff : (∃ c, vars.settings = .ok c) ↔ vars.HasToken := by
  constructor
  · rintro ⟨c, h⟩
    obtain ⟨token, filled⟩ := accessToken_of_settings h
    exact ⟨_, text?_eq_some_iff.1 token, filled⟩
  · rintro ⟨t, token, filled⟩
    have set := text?_eq_some_iff.2 token
    cases h : vars.settings with
    | ok c => exact ⟨c, rfl⟩
    | error e =>
      obtain ⟨none, -⟩ | ⟨empty, -⟩ := settings_eq_error_iff.1 h
      · cases set.symm.trans none
      · exact absurd (Option.some.inj (set.symm.trans empty)) filled

theorem yields_iff {kind : Settings → Prop} {p : Prop}
    (h : ∀ c, vars.settings = .ok c → (kind c ↔ p)) : vars.Yields kind ↔ vars.HasToken ∧ p := by
  rw [← settings_ok_iff]
  constructor
  · rintro ⟨c, hc, hk⟩
    exact ⟨⟨c, hc⟩, (h c hc).1 hk⟩
  · rintro ⟨⟨c, hc⟩, hp⟩
    exact ⟨c, hc, (h c hc).2 hp⟩

/-! ### The environment -/

theorem names_dotted_iff : (vars.Names fun s => LiveWord (dotted s)) ↔
    vars.Names LiveWord ∨ vars.Names fun s => 'ı' ∈ s.toList ∧ LiveWord (dotted s) := by
  unfold Names
  rw [← exists_or]
  refine exists_congr fun s => ?_
  rw [← and_or_left, ← liveWord_dotted_iff]

theorem not_names_dotless (h : vars.Names LiveWord) :
    ¬ vars.Names fun s => 'ı' ∈ s.toList ∧ LiveWord (dotted s) := by
  obtain ⟨s, text, word⟩ := h
  rintro ⟨s', text', dotless, -⟩
  cases text.symm.trans text'
  exact word.not_mem dotless

theorem environment_eq_live_iff :
    vars.environment = live ↔ vars.Names fun s => LiveWord (dotted s) := by
  unfold environment Names
  simp only [← text?_eq_some_iff, ← ofName_eq_live_iff]
  cases vars.text? "TRADIER_ENV" with
  | none => simp
  | some s => simp

section
variable {c : Settings} (h : vars.settings = .ok c)
include h

theorem live_iff_of_settings :
    c.environment = live ↔ vars.Names fun s => LiveWord (dotted s) := by
  rw [settings_eq_of_ok h]
  exact environment_eq_live_iff

theorem baseUrl_of_settings (unset : ¬ vars.HasBaseUrl) : c.baseUrl = c.environment.baseUrl := by
  have blank : (vars.text? "TRADIER_API_BASE_URL").filter (· ≠ "") = none := by
    rw [Option.filter_eq_none_iff]
    intro t set filled
    exact unset ⟨t, text?_eq_some_iff.1 set, by simpa using filled⟩
  rw [settings_eq_of_ok h]
  show ((vars.text? "TRADIER_API_BASE_URL").filter (· ≠ "")).getD _ = _
  rw [blank]
  rfl

theorem goesByWord_of_settings :
    vars.GoesByWord c ↔ ¬ vars.Names fun s => 'ı' ∈ s.toList ∧ LiveWord (dotted s) := by
  have address (unset : ¬ vars.HasBaseUrl) :
      c.baseUrl = live.baseUrl ↔ vars.Names fun s => LiveWord (dotted s) := by
    rw [baseUrl_of_settings h unset, baseUrl_eq_live_iff]
    exact live_iff_of_settings h
  unfold GoesByWord
  rw [live_iff_of_settings h]
  constructor
  · rintro ⟨word, -⟩ dotless
    exact not_names_dotless (word.1 (names_dotted_iff.2 (.inr dotless))) dotless
  · intro dotted
    have word := names_dotted_iff.trans (or_iff_left dotted)
    exact ⟨word, fun unset => (address unset).trans word⟩

end

/-- Settings for the live environment are loaded exactly if there is a token and the text of their
variable, with a dot on each `ı`, is a live word, and settings for the sandbox for any other text or
none. Unless an address is set by itself, that of the live service goes with the environment. So the
settings go by the live words alone exactly if the text is none with an `ı` that its dot turns into
one of them. -/
theorem goesByWord_iff (vars : Variables) :
    (vars.Yields (·.environment = live) ↔
      vars.HasToken ∧ vars.Names fun s => LiveWord (dotted s)) ∧
    (vars.Yields (·.environment = sandbox) ↔
      vars.HasToken ∧ ¬ vars.Names fun s => LiveWord (dotted s)) ∧
    (¬ vars.HasBaseUrl →
      (vars.Yields (·.baseUrl = live.baseUrl) ↔ vars.Yields (·.environment = live))) ∧
    (vars.Yields vars.GoesByWord ↔
      vars.HasToken ∧ ¬ vars.Names fun s => 'ı' ∈ s.toList ∧ LiveWord (dotted s)) := by
  have sandbox_iff (e : Environment) : e = sandbox ↔ ¬ e = live := by cases e <;> decide
  refine ⟨yields_iff fun c => live_iff_of_settings, yields_iff fun c h => ?_, fun unset => ?_,
    yields_iff fun c => goesByWord_of_settings⟩
  · rw [sandbox_iff, live_iff_of_settings h]
  · refine exists_congr fun c => and_congr_right fun h => ?_
    show c.baseUrl = live.baseUrl ↔ c.environment = live
    rw [baseUrl_of_settings h unset, baseUrl_eq_live_iff]

theorem production_goesByWord :
    (ofTexts [("TRADIER_ACCESS_TOKEN", "t"), ("TRADIER_ENV", "Production")]).Yields
      fun c => c.environment = live ∧ c.baseUrl = "https://api.tradier.com" := by
  obtain ⟨-, -, -, kept⟩ :=
    goesByWord_iff (ofTexts [("TRADIER_ACCESS_TOKEN", "t"), ("TRADIER_ENV", "Production")])
  have word : Names (ofTexts [("TRADIER_ACCESS_TOKEN", "t"), ("TRADIER_ENV", "Production")])
      LiveWord := ⟨"Production", rfl, .inr (by decide)⟩
  obtain ⟨c, loaded, environment, address⟩ :=
    kept.2 ⟨⟨"t", rfl, by decide⟩, not_names_dotless word⟩
  refine ⟨c, loaded, environment.2 word, (address ?_).2 word⟩
  rintro ⟨t, text, -⟩
  cases text

/-- Without its dot, the word does so too, though it is none. -/
theorem dotless_selects_live :
    ((ofTexts [("TRADIER_ACCESS_TOKEN", "t"), ("TRADIER_ENV", "lıve")]).Yields
      fun c => c.environment = live ∧ c.baseUrl = "https://api.tradier.com") ∧
    ¬ LiveWord "lıve" :=
  ⟨⟨_, rfl, by decide +kernel, by decide +kernel⟩, fun word => word.not_mem (by decide)⟩

end Variables

end MarketFeed
