import Mathlib
import MarketFeed.Proofs.Attempts
import MarketFeed.Proofs.Step

/-!
# What a loop of attempts blames

A loop that is out of attempts answers with an error for the last of them. That is the one which the
attempt failed with, if it failed with any. An attempt that did not, and yet left the client not
connected, had no active session to open a connection for, or had opened one that was closed again;
the loop blames the missing session for both.
-/

namespace MarketFeed.Client

variable {τ : Type} (w : World τ)

/-! ## One attempt -/

def HoldsActive (c : Client τ) : Prop := ∃ session, c.session = some session ∧ session.isActive = true

theorem sendAll_line (frames : List Frame) (c : Client τ) :
    (sendAll w frames c).2.phase = c.phase ∧ (sendAll w frames c).2.heartbeat = c.heartbeat := by
  induction frames generalizing c with
  | nil => exact ⟨rfl, rfl⟩
  | cons frame rest ih =>
    have first := sendReported_apply w frame c
    obtain ⟨phase, heartbeat⟩ := ih (sendReported w frame c).2
    exact ⟨phase.trans (by rw [first]), heartbeat.trans (by rw [first])⟩

theorem restore_line (c : Client τ) :
    (restore w c).2.phase = c.phase ∧ (restore w c).2.heartbeat = c.heartbeat := by
  let counted : Client τ := (sample .reconnect
    (modifyJournal (·.modifyStatistics (·.countReconnect)) c).2).2
  exact sendAll_line w counted.dispatcher.registry.replayFrames counted

theorem openFor_beating {session : Session} {c : Client τ}
    (h : (openFor w session c).2.phase = .connected) : (openFor w session c).2.isBeating = true := by
  rw [openFor_apply] at h ⊢
  generalize w.connect (.ofSession session c.token) c.world = result at h
  rcases result with ⟨_ | _, s⟩
  · cases h
  · rfl

theorem connect_beating {c : Client τ} (hp : c.phase ≠ .connected)
    (h : (connect w c).2.phase = .connected) : (connect w c).2.isBeating = true := by
  obtain ⟨-, -, -, -, -, phase⟩ := activeSession_checks w c
  rw [connect_apply w hp] at h ⊢
  generalize (activeSession w c).1 = answer at h
  rcases answer with e | _ | session
  · exact absurd (phase.symm.trans h) hp
  · exact absurd (phase.symm.trans h) hp
  · exact openFor_beating w h

theorem renewAndConnect_beating {c : Client τ} (hp : c.phase ≠ .connected)
    (h : (renewAndConnect w c).2.phase = .connected) : (renewAndConnect w c).2.isBeating = true := by
  have quiet := (renewHeld_walks w c hp).2
  rw [renewAndConnect_apply] at h ⊢
  generalize (renewHeld w c).1 = answer at h
  rcases answer with e | _
  · exact absurd h quiet
  · exact connect_beating w quiet h

theorem reconnectAfter_opened (c : Client τ) :
    ((reconnectAfter w .zero c).2.phase = .connected ↔
        (reconnectAfter w .zero c).1 = .ok () ∧ HoldsActive (reconnectAfter w .zero c).2) ∧
      ((reconnectAfter w .zero c).2.phase = .connected →
        (reconnectAfter w .zero c).2.isBeating = true) := by
  rw [reconnectAfter_apply, reopen_zero_apply]
  have quiet := waited_phase w .zero c
  generalize waited .zero (teardown w c).2 = start at quiet
  obtain ⟨requests, held, calls, up, -, opens, open', track⟩ := renewAndConnect_course w quiet
  have beating := renewAndConnect_beating w quiet
  generalize renewAndConnect w start = r at opens open' track beating
  obtain ⟨result, c'⟩ := r
  dsimp only at opens open' track beating ⊢
  cases opens with
  | refused e => exact ⟨iff_of_false (by rw [open']; nofun) nofun, beating⟩
  | failed h e => exact ⟨iff_of_false (by rw [open']; nofun) nofun, beating⟩
  | idle h =>
    have shut : c'.phase ≠ .connected := by rw [Ne, open']; nofun
    dsimp only
    rw [if_neg shut]
    refine ⟨iff_of_false shut ?_, beating⟩
    rintro ⟨-, session, hs, ha⟩
    rw [track.session _ rfl] at hs
    cases (h session hs).symm.trans ha
  | opened h =>
    have up := open'.2 rfl
    dsimp only
    rw [if_pos up]
    obtain ⟨phase, heartbeat⟩ := restore_line w c'
    obtain ⟨sent, -, restored⟩ := restore_track w c'
    refine ⟨iff_of_true (phase.trans up) ⟨rfl, _, ?_, h⟩, fun _ => ?_⟩
    · rw [restored.session _ rfl, track.session _ rfl]
    · unfold isBeating
      rw [heartbeat]
      exact beating up

/-- Why an attempt that did not leave the client connected failed. -/
inductive Cause (s : Client τ) : FeedError → Prop
  | failed {e} (h : (reconnectAfter w .zero s).1 = .error e) : Cause s e
  | unheld (h : (reconnectAfter w .zero s).1 = .ok ())
      (hn : ¬ HoldsActive (reconnectAfter w .zero s).2) : Cause s noActiveSession
  | closed (h : (reconnectAfter w .zero s).2.phase = .connected)
      (ho : (w.isOpen (reconnectAfter w .zero s).2.world).1 = false) : Cause s notEstablished

theorem Cause.unique {s : Client τ} {e e' : FeedError} (h : Cause w s e) (h' : Cause w s e') :
    e = e' := by
  obtain ⟨opened, -⟩ := reconnectAfter_opened w s
  cases h with
  | failed h =>
    cases h' with
    | failed h' => exact Except.error.inj (h.symm.trans h')
    | unheld h' => cases h.symm.trans h'
    | closed up => cases h.symm.trans (opened.1 up).1
  | unheld h none =>
    cases h' with
    | failed h' => cases h.symm.trans h'
    | unheld => rfl
    | closed up => exact absurd (opened.1 up).2 none
  | closed up =>
    cases h' with
    | failed h' => cases (opened.1 up).1.symm.trans h'
    | unheld _ none => exact absurd (opened.1 up).2 none
    | closed => rfl

/-- The error of an attempt is its cause, unless a connection was opened, which then has been closed
again. -/
theorem attempt_cause {s : Client τ} {e : FeedError} (h : (attempt w s).1 = some e) :
    (Cause w s e ↔ (reconnectAfter w .zero s).2.phase ≠ .connected) ∧
      ((reconnectAfter w .zero s).2.phase = .connected →
        e = noActiveSession ∧ Cause w s notEstablished) ∧
      (e = noActiveSession → HoldsActive (reconnectAfter w .zero s).2 →
        (reconnectAfter w .zero s).2.phase = .connected ∨
          (reconnectAfter w .zero s).1 = .error noActiveSession) := by
  obtain ⟨opened, beating⟩ := reconnectAfter_opened w s
  have unconnected : connects w s = false := by
    rw [← Bool.not_eq_true, ← (attempt_course w s).2, h]
    nofun
  rw [attempt_apply] at h
  cases hr : (reconnectAfter w .zero s).1 with
  | error e' =>
    rw [hr] at h
    cases h
    have shut := reconnectAfter_error w hr
    refine ⟨iff_of_true (.failed hr) shut, fun up => absurd up shut, ?_⟩
    rintro rfl -
    exact .inr rfl
  | ok =>
    rw [hr, unconnected] at h
    cases h
    by_cases up : (reconnectAfter w .zero s).2.phase = .connected
    · have shut : (w.isOpen (reconnectAfter w .zero s).2.world).1 = false := by
        rw [← Bool.not_eq_true]
        intro isOpen
        rw [connects, ← Bool.not_eq_true, isConnected_iff] at unconnected
        exact unconnected ⟨up, isOpen, beating up⟩
      have closed : Cause w s notEstablished := .closed up shut
      refine ⟨iff_of_false (fun cause => ?_) (absurd up), fun _ => ⟨rfl, closed⟩, fun _ _ => .inl up⟩
      cases cause.unique w closed
    · have none : ¬ HoldsActive (reconnectAfter w .zero s).2 :=
        fun holds => up (opened.2 ⟨hr, holds⟩)
      exact ⟨iff_of_true (.unheld hr none) up, fun up' => absurd up' up, fun _ holds => absurd holds none⟩

theorem attempt_leaves (s : Client τ) :
    ∃ t, (attempt w s).2 = { (reconnectAfter w .zero s).2 with world := t } := by
  rw [attempt_apply]
  cases (reconnectAfter w .zero s).1 with
  | error => exact ⟨_, rfl⟩
  | ok => exact isConnected_world w _

/-! ## The loop -/

theorem attempts_exceeded (cancellation : Cancellation) : ∀ rounds (a : Attempts) last
    (c : Client τ) {n : Nat} {e : FeedError},
    (attempts w cancellation rounds a last c).1 = some (.failed (.exceeded n e)) →
    (n = a.made ∧ e = last.getD noAttempt ∧
      (attempts w cancellation rounds a last c).2 = (ask w.fraction c).2) ∨
    ∃ earlier s, Tries w cancellation a.made c (earlier ++ [s])
        (attempts w cancellation rounds a last c).2 ∧
      n = a.made + earlier.length + 1 ∧ (attempt w s).1 = some e ∧
      ∃ t, (attempts w cancellation rounds a last c).2 = { (attempt w s).2 with world := t } := by
  intro rounds
  -- Induction on the rounds that are left; the last error is kept beside it.
  induction rounds with
  | zero => exact fun a last c n e h => nomatch h
  | succ rounds ih =>
    intro a last c n e h
    have round := attempts_round w cancellation rounds a last c
    generalize attempts w cancellation (rounds + 1) a last c = r at round h
    cases round with
    | exhausted =>
      cases h
      exact .inl ⟨rfl, rfl, rfl⟩
    | outOfRange | cancelled | connected => cases h
    | @failed s e' hm idles allowed failed =>
      obtain ⟨looks, -⟩ := attempt_course w s
      right
      obtain ⟨count, same, final⟩ | ⟨earlier, s', tries, count, he, final⟩ :=
        ih { a with made := a.made + 1 } (some e') (attempt w s).2 h
      · cases same
        refine ⟨[], s, .start idles allowed (.done ?_), count, failed, ?_⟩
        · rw [final]
          exact looks.trans (fraction_idles w _)
        · rw [final]
          exact ⟨_, rfl⟩
      · refine ⟨s :: earlier, s', .start idles allowed (tries.waited looks), ?_, he, final⟩
        dsimp only at count
        rw [count, List.length_cons]
        omega

/-- The error of a loop that is out of attempts is the cause why the last of them failed, unless that
one opened a connection which was then closed again: the loop says that there is no active session,
though the client holds one. -/
theorem exceeded_blames_iff (cancellation : Cancellation) (rounds : Nat) (c : Client τ) (n : Nat)
    (e : FeedError)
    (h : (reconnectWithBackoff w cancellation rounds c).1 = some (.failed (.exceeded n e)))
    (made : 0 < n) :
    let final := (reconnectWithBackoff w cancellation rounds c).2
    ∃ earlier s, Tries w cancellation 0 c (earlier ++ [s]) final ∧ n = earlier.length + 1 ∧
      (∃ t, final = { (reconnectAfter w .zero s).2 with world := t }) ∧
      (Cause w s e ↔ final.phase ≠ .connected) ∧
      (final.phase = .connected →
        e = noActiveSession ∧ HoldsActive final ∧ Cause w s notEstablished) ∧
      (e = noActiveSession → HoldsActive final →
        final.phase = .connected ∨ (reconnectAfter w .zero s).1 = .error noActiveSession) := by
  intro final
  obtain ⟨none, -, -⟩ | ⟨earlier, s, tries, hn, he, t, ht⟩ :=
    attempts_exceeded w cancellation rounds { schedule := .ofSettings c.settings } none c h
  · exact absurd none made.ne'
  obtain ⟨t', leaves⟩ := attempt_leaves w s
  have last : final = { (reconnectAfter w .zero s).2 with world := t } := by
    rw [show final = _ from ht, leaves]
  obtain ⟨cause, lost, claimed⟩ := attempt_cause w he
  refine ⟨earlier, s, tries, by rw [hn]; exact congrArg (· + 1) (Nat.zero_add _), ⟨t, last⟩, ?_⟩
  rw [last]
  refine ⟨cause, fun up => ?_, claimed⟩
  exact ⟨(lost up).1, ((reconnectAfter_opened w s).1.1 up).2, (lost up).2⟩

def onceMore (opening : Opening) : Client Playback :=
  { create { openings := [opening], now := .earliest } { reconnectDelay := .zero, maxReconnectAttempts := 1 } none ""
      .singleThread with session := some Playback.session }

theorem exceeded_blames_refusal : ∃ s,
    Cause Playback.world s (.network "refused") ∧
      (reconnectWithBackoff Playback.world .never 2 (onceMore (.fails (.network "refused")))).1 =
        some (.failed (.exceeded 1 (.network "refused"))) := by
  have ended : (reconnectWithBackoff Playback.world .never 2
      (onceMore (.fails (.network "refused")))).1 =
        some (.failed (.exceeded 1 (.network "refused"))) := by decide +kernel
  have shut : (reconnectWithBackoff Playback.world .never 2
      (onceMore (.fails (.network "refused")))).2.phase ≠ .connected := by decide +kernel
  obtain ⟨-, s, -, -, -, cause, -, -⟩ := exceeded_blames_iff Playback.world .never 2
    (onceMore (.fails (.network "refused"))) 1 (.network "refused") ended (by decide)
  exact ⟨s, cause.2 shut, ended⟩

/-- The transport opens and is closed again at once, while an active session is held. -/
theorem closed_connection_blamed_on_session :
    let r := reconnectWithBackoff Playback.world .never 2 (onceMore .closed)
    r.1 = some (.failed (.exceeded 1 (.validation "no active session"))) ∧
      r.2.session = some Playback.session ∧ Playback.session.isActive = true ∧
      r.2.calls.filterMap Call.target? = [.ofSession Playback.session ""] :=
  ⟨by decide +kernel, by decide +kernel, by decide +kernel, by decide +kernel⟩

end MarketFeed.Client
