import MarketFeed.Proofs.Log
import MarketFeed.Proofs.Step

/-!
# The discipline of the transport

A client opens its transport only when it is closed, for the session that it holds then, and hands
it frames only while it is open. `Orderly` says so of a log, call by call; every run keeps it, with
all that may happen on the line in between.
-/

namespace MarketFeed

namespace Log

def Fits (log : List Call) : Call → Prop
  | .connect held target _ => isUp log = false ∧ ∃ session, held = some session ∧
      session.isActive = true ∧ target.url = session.url ∧ target.sessionId = session.id
  | .send _ _ | .stall _ => isUp log = true
  | .disconnect | .request _ _ => True

theorem fits_of_isSending {log : List Call} {call : Call} (hs : call.isSending = true)
    (hu : isUp log = true) : Fits log call := by
  cases call <;> first | exact hu | cases hs

inductive Orderly : List Call → Prop
  | nil : Orderly []
  | snoc {log call} (h : Orderly log) (hf : Fits log call) : Orderly (log ++ [call])

theorem Orderly.fits {before after : List Call} {call : Call}
    (h : Orderly (before ++ call :: after)) : Fits before call := by
  induction after using List.reverseRecOn with
  | nil =>
    generalize hl : before ++ [call] = log at h
    cases h with
    | nil => exact absurd hl (by simp)
    | snoc h hf =>
      obtain ⟨rfl, rfl⟩ := List.append_singleton_inj.1 hl
      exact hf
  | append_singleton after last ih =>
    refine ih ?_
    generalize hl : before ++ call :: (after ++ [last]) = log at h
    rw [← List.cons_append, ← List.append_assoc] at hl
    cases h with
    | nil => exact absurd hl (by simp)
    | snoc h => exact (List.append_singleton_inj.1 hl).1 ▸ h

end Log

namespace Client

open Log

variable {τ : Type} (w : World τ)

/-- The client knows whether its transport is open, and has a heartbeat only then. -/
structure Tidy (c : Client τ) : Prop where
  orderly : Orderly c.calls
  isUp_iff : isUp c.calls = true ↔ c.phase = .connected
  beats : c.heartbeat.isSome = true → c.phase = .connected

namespace Tidy

variable {w} {c c' : Client τ}

theorem of_eq (h : Tidy c) (hc : c'.calls = c.calls) (hp : c'.phase = c.phase)
    (hb : c'.heartbeat = c.heartbeat) : Tidy c' := by
  refine ⟨hc ▸ h.orderly, ?_, ?_⟩
  · rw [hc, hp]; exact h.isUp_iff
  · rw [hb, hp]; exact h.beats

theorem send (h : Tidy c) (hp : c.phase = .connected) (call : Call) (hs : call.isSending = true)
    (hc : c'.calls = c.calls ++ [call]) (hp' : c'.phase = c.phase) : Tidy c' := by
  have up := h.isUp_iff.2 hp
  refine ⟨hc ▸ h.orderly.snoc (fits_of_isSending hs up), ?_, fun _ => hp'.trans hp⟩
  rw [hc, isUp_snoc, up, hp', hp]
  refine iff_of_true ?_ rfl
  cases call <;> first | rfl | cases hs

theorem request (h : Tidy c) {q o} (hc : c'.calls = c.calls ++ [.request q o])
    (hp : c'.phase = c.phase) (hb : c'.heartbeat = c.heartbeat) : Tidy c' := by
  refine ⟨hc ▸ h.orderly.snoc trivial, ?_, ?_⟩
  · rw [hc, isUp_snoc, hp]
    exact Bool.and_true _ ▸ h.isUp_iff
  · rw [hb, hp]; exact h.beats

end Tidy

theorem Idle.tidy {c c' : Client τ} (s : Idle w c c') (h : Tidy c) : Tidy c' := by
  cases s with
  | ask => exact h.of_eq rfl rfl rfl
  | pass => exact h.of_eq rfl rfl rfl
  | beat hc =>
    have hp : c.phase = .connected := h.beats (hc ▸ rfl)
    rw [beat_apply]
    rcases w.isOpen c.world with ⟨_ | _, s⟩
    · exact ⟨h.orderly, h.isUp_iff, fun _ => hp⟩
    · by_cases hs : w.stalls (w.now s).2 = true
      · simp only [hs, if_true]
        exact h.send hp (.stall _) rfl rfl rfl
      · simp only [hs]
        rcases w.send _ _ with ⟨_ | _, s⟩ <;> exact h.send hp (.send _ _) rfl rfl rfl

theorem Link.tidy {c c' : Client τ} (s : Link w c c') (h : Tidy c) : Tidy c' := by
  cases s with
  | idle s => exact s.tidy w h
  | hold => exact h.of_eq rfl rfl rfl
  | renew settings session =>
    rw [renewSession_apply]
    cases grant w settings.ttl session.kind c <;> exact h.request rfl rfl rfl
  | close =>
    rw [teardown_apply]
    refine ⟨h.orderly.snoc trivial, ?_, fun hb => nomatch hb⟩
    rw [isUp_snoc]
    simp [Call.isOpening, Call.isDisconnect]
  | openFor session hp hs ha =>
    have down : isUp c.calls = false := by
      cases hu : isUp c.calls with
      | false => rfl
      | true => exact absurd (h.isUp_iff.1 hu) hp
    have quiet : c.heartbeat.isSome = true → False := fun hb => hp (h.beats hb)
    have orderly : ∀ r, Orderly (c.calls ++ [.connect c.session (.ofSession session c.token) r]) :=
      fun r => h.orderly.snoc ⟨down, session, hs, ha, rfl, rfl⟩
    rw [openFor_apply]
    rcases w.connect (.ofSession session c.token) c.world with ⟨e | _, s⟩
    · refine ⟨orderly _, ?_, fun hb => (quiet hb).elim⟩
      rw [isUp_snoc, down]
      simp [Call.isOpening]
    · refine ⟨orderly _, ?_, fun _ => rfl⟩
      rw [isUp_snoc]
      exact iff_of_true rfl rfl
  | measure => exact h.of_eq rfl rfl rfl

theorem LineStep.tidy {c c' : Client τ} (s : LineStep w c c') (h : Tidy c) : Tidy c' := by
  cases s with
  | link s => exact s.tidy w h
  | count => exact h.of_eq rfl rfl rfl
  | send _ hp =>
    rw [sendReported_apply]
    exact h.send hp (.send _ _) rfl rfl rfl

theorem Setup.tidy {c c' : Client τ} (s : Setup (LineStep w) c c') (h : Tidy c) : Tidy c' := by
  cases s with
  | base s => exact s.tidy w h
  | arrange => exact h.of_eq rfl rfl rfl
  | add => exact h.of_eq rfl rfl rfl

theorem Trim.tidy {c c' : Client τ} (s : Trim w c c') (h : Tidy c) : Tidy c' := by
  cases s with
  | line s => exact s.tidy w h
  | strike => exact h.of_eq rfl rfl rfl

theorem Plain.tidy {c c' : Client τ} (s : Plain w c c') (h : Tidy c) : Tidy c' := by
  cases s with
  | setup s => exact s.tidy w h
  | create kind =>
    rw [createSession_apply]
    cases c.sessions with
    | none => exact h
    | some settings => exact h.request rfl rfl rfl
  | receive =>
    unfold Client.receive
    split
    · exact h.of_eq rfl rfl rfl
    · exact h
  | configure => exact h.of_eq rfl rfl rfl
  | record => exact h.of_eq rfl rfl rfl
  | remove xs => exact kept_along (fun _ _ s => s.tidy w) (removeSymbols_walks w xs c trivial).1 h

theorem Step.tidy {c c' : Client τ} (s : Step w c c') (h : Tidy c) : Tidy c' := by
  cases s with
  | plain s => exact s.tidy w h
  | subscribe kind xs hp =>
    rw [sendSubscription_apply]
    rcases w.send (.subscribe kind xs) c.world with ⟨_ | _, s⟩ <;>
      exact h.send hp (.send _ _) rfl rfl rfl

theorem tidy_create (world : τ) (settings : StreamSettings) (sessions : Option SessionSettings)
    (token : String) (runtime : Runtime) : Tidy (create world settings sessions token runtime) :=
  ⟨.nil, iff_of_false nofun nofun, nofun⟩

/-! ## Runs -/

section
variable (world : τ) (settings : StreamSettings) (sessions : Option SessionSettings)
  (token : String) (runtime : Runtime)

theorem orderly_after (actions : List Action) :
    Orderly (after w actions (create world settings sessions token runtime)).calls :=
  (kept_after w (fun _ _ s => s.tidy w) actions
    (tidy_create world settings sessions token runtime)).orderly

/-- Between two openings the transport is closed. Frames are handed to it only while it is open,
and after a disconnect not before the next opening. Every connect is for the session that is held. -/
theorem transport_disciplined (actions : List Action) :
    let start := create world settings sessions token runtime
    let calls := (after w actions start).calls
    (∀ before between rest opening opening',
      calls = before ++ opening :: between ++ opening' :: rest →
        opening.isOpening = true → opening'.isOpening = true → .disconnect ∈ between) ∧
    (∀ before call rest, calls = before ++ call :: rest → call.isSending = true →
      ∃ earlier held target since, before = earlier ++ .connect held target (.ok ()) :: since ∧
        .disconnect ∉ since) ∧
    (∀ first later, actions = first ++ .disconnect :: later →
      ∃ since, calls = (after w (first ++ [.disconnect]) start).calls ++ since ∧
        ∀ before call rest, since = before ++ call :: rest → call.isSending = true →
          ∃ held target, .connect held target (.ok ()) ∈ before) ∧
    ∀ held target result, .connect held target result ∈ calls →
      ∃ session, held = some session ∧ target.url = session.url ∧ target.sessionId = session.id ∧
        target.url ≠ "" ∧ target.sessionId ≠ "" := by
  intro start calls
  have orderly : Orderly calls := orderly_after w world settings sessions token runtime actions
  have sending : ∀ before call rest, calls = before ++ call :: rest → call.isSending = true →
      ∃ earlier held target since, before = earlier ++ .connect held target (.ok ()) :: since ∧
        .disconnect ∉ since := by
    intro before call rest hl hs
    have fits := (hl ▸ orderly).fits
    refine opened_of_isUp ?_
    cases call <;> first | exact fits | cases hs
  refine ⟨?_, sending, ?_, ?_⟩
  · intro before between rest opening opening' hl ho ho'
    have fits := (hl ▸ orderly).fits
    have down : isUp (before ++ opening :: between) = false := by
      cases opening' <;> first | exact fits.1 | cases ho'
    exact closed_of_not_isUp ho down
  · rintro first later rfl
    have closed : (after w (first ++ [.disconnect]) start).calls =
        (after w first start).calls ++ [.disconnect] := by
      rw [after_append]
      exact congrArg Client.calls (teardown_apply w _)
    obtain ⟨since, hl⟩ := after_grows w later (after w (first ++ [.disconnect]) start)
    rw [← after_append, List.append_assoc, List.singleton_append] at hl
    refine ⟨since, hl.symm, fun before call rest hs hc => ?_⟩
    rw [closed, hs, ← List.append_assoc] at hl
    obtain ⟨earlier, held, target, after, he, hd⟩ := sending _ _ _ hl.symm hc
    rw [List.append_assoc] at he
    -- The opening has no disconnect after it, so it does not stand before this one.
    have apart : Call.connect held target (.ok ()) ≠ .disconnect := fun e => by cases e
    exact ⟨held, target, mem_of_open apart he hd⟩
  · intro held target result hm
    obtain ⟨before, rest, hl⟩ := List.append_of_mem hm
    obtain ⟨-, session, hs, ha, hu, hi⟩ := (hl ▸ orderly).fits
    have active : session.url ≠ "" ∧ session.id ≠ "" := by simpa [Session.isActive] using ha
    exact ⟨session, hs, hu, hi, hu ▸ active.1, hi ▸ active.2⟩

end

end Client

end MarketFeed
