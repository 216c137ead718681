import Mathlib
import MarketFeed.Proofs.Line
import MarketFeed.Proofs.Series
import MarketFeed.Text.Utf8

/-!
# Reconnection

What one reconnection comes to, from any client: it closes, asks for sessions, opens and restores.
`Renewals` says which sessions are asked for and what is held then, `Ends` how it goes on from there.
Every reconnection runs in this way, and is counted just when the transport was opened.
-/

namespace MarketFeed

/-! ## The order of texts -/

section
variable {m n : Nat} (hm : m < 256) (hn : n < 256)
include hm hn

theorem ofNat_lt_ofNat : UInt8.ofNat m < UInt8.ofNat n ↔ m < n := by
  rw [UInt8.lt_iff_toNat_lt, UInt8.toNat_ofNat_of_lt' hm, UInt8.toNat_ofNat_of_lt' hn]

theorem ofNat_eq_ofNat : UInt8.ofNat m = UInt8.ofNat n ↔ m = n := by
  rw [← UInt8.toNat_inj, UInt8.toNat_ofNat_of_lt' hm, UInt8.toNat_ofNat_of_lt' hn]

end

/-- A character that comes first has bytes that come first, whatever follows them. -/
theorem utf8EncodeChar_lt {c d : Char} (h : c < d) (s t : List UInt8) :
    String.utf8EncodeChar c ++ s < String.utf8EncodeChar d ++ t := by
  have hv : c.val.toNat < d.val.toNat := h
  have hd : d.val.toNat < 1114112 := by
    rcases d.valid with h | h
    · exact h.trans (by decide)
    · exact h.2
  have digits (n : Nat) : n / 4096 = n / 64 / 64 ∧ n / 262144 = n / 64 / 64 / 64 := by omega
  unfold String.utf8EncodeChar
  generalize c.val.toNat = v at *
  generalize d.val.toNat = u at *
  dsimp only
  -- One case for each two lengths; of equal lengths the first digit that differs decides.
  split_ifs <;>
    simp (disch := omega) only [List.cons_append, List.nil_append, List.cons_lt_cons_iff,
      ofNat_lt_ofNat, ofNat_eq_ofNat, digits] <;>
    omega

theorem encode_lt {cs ds : List Char} (h : cs < ds) : Utf8.encode cs < Utf8.encode ds := by
  unfold Utf8.encode
  induction h with
  | @nil d ds =>
    have hd : String.utf8EncodeChar d ≠ [] := String.utf8EncodeChar_ne_nil
    obtain ⟨b, bs, hb⟩ := List.exists_cons_of_ne_nil hd
    rw [List.flatMap_nil, List.flatMap_cons, hb]
    exact .nil
  | cons _ ih =>
    rw [List.flatMap_cons, List.flatMap_cons]
    exact List.append_left_lt ih
  | rel h =>
    rw [List.flatMap_cons, List.flatMap_cons]
    exact utf8EncodeChar_lt h _ _

theorem TextSet.bytes_sorted (s : TextSet) :
    (s.toList.map fun x => Utf8.encode x.toList).Pairwise (· < ·) :=
  List.pairwise_map.2 (s.sorted.imp fun h => encode_lt (String.lt_iff_toList_lt.1 h))

/-! ## What is restored -/

def Registry.restoring? (r : Registry) (kind : EventKind) : Option Frame :=
  if r.active kind = false then none
  else match kind with
    | .order | .position => some (.subscription .subscribe kind none)
    | _ =>
      if r.symbols.toList = [] then none
      else some (.subscription .subscribe kind (some r.symbols.toList))

theorem Registry.replayFrames_eq (r : Registry) :
    r.replayFrames = EventKind.all.filterMap r.restoring? := by
  have each : ∀ kinds : List EventKind,
      ((kinds.filter r.active).filter fun k => k.isAccount || !r.symbols.isEmpty).map
        (fun k => Frame.subscribe k r.symbols.toList) = kinds.filterMap r.restoring? := by
    intro kinds
    induction kinds with
    | nil => rfl
    | cons kind kinds ih =>
      by_cases ha : r.active kind = true
      · rw [List.filter_cons_of_pos ha, List.filterMap_cons, ← ih]
        by_cases hx : r.symbols.toList = []
        · cases kind <;>
            simp [restoring?, ha, hx, EventKind.isAccount, TextSet.isEmpty, Frame.subscribe, Frame.request]
        · cases kind <;>
            simp [restoring?, ha, hx, EventKind.isAccount, TextSet.isEmpty, Frame.subscribe, Frame.request]
      · rw [List.filter_cons_of_neg ha, List.filterMap_cons, ih]
        simp [restoring?, ha]
  exact each EventKind.all

namespace Journal

structure Reconnects (j j' : Journal) (n : Nat) : Prop where
  statistics : j'.statistics.reconnects = j.statistics.reconnects + n
  samples : ∃ more, j'.samples = j.samples ++ more ∧ more.count .reconnect = n

theorem Reconnects.refl (j : Journal) : Reconnects j j 0 := ⟨rfl, [], by simp, rfl⟩

theorem Reconnects.trans {j j' j'' : Journal} {m n : Nat} (h : Reconnects j j' m)
    (h' : Reconnects j' j'' n) : Reconnects j j'' (m + n) := by
  obtain ⟨more, hs, hm⟩ := h.samples
  obtain ⟨more', hs', hm'⟩ := h'.samples
  refine ⟨?_, more ++ more', ?_, ?_⟩
  · rw [h'.statistics, h.statistics, Nat.add_assoc]
  · rw [hs', hs, List.append_assoc]
  · rw [List.count_append, hm, hm']

theorem reconnects_sample (j : Journal) {s : Sample} (hs : s ≠ .reconnect) :
    Reconnects j (j.sample s) 0 :=
  ⟨rfl, [s], rfl, by simp [hs]⟩

theorem reconnects_statistics (j : Journal) {f : Statistics → Statistics}
    (hf : (f j.statistics).reconnects = j.statistics.reconnects) :
    Reconnects j (j.modifyStatistics f) 0 :=
  ⟨hf, [], by simp [modifyStatistics], rfl⟩

theorem reconnects_report (j : Journal) (e : FeedError) : Reconnects j (j.report e) 0 := by
  refine ⟨?_, [.error e.label], ?_, ?_⟩
  · rw [report_statistics]
    rfl
  · rw [report_samples]
  · simp

theorem Reconnects.value {j j' : Journal} {n : Nat} (h : Reconnects j j' n) :
    Sample.reconnect.value j'.samples = Sample.reconnect.value j.samples + n := by
  obtain ⟨more, hs, hn⟩ := h.samples
  rw [hs, Sample.value_reconnect_append, hn]

end Journal

namespace Client

variable {τ : Type} (w : World τ)

/-! ## Sessions -/

def asking (kind : SessionKind) (c : Client τ) : Call :=
  .request kind.request (w.perform kind.request (w.now c.world).2).1

def looked (c : Client τ) : Client τ := { c with world := (w.now c.world).2 }

inductive Checks (c : Client τ) : List Call → Except FeedError (Option Session) → Prop
  | keeps (h : ∀ settings session, c.sessions = some settings → c.session = some session →
      session.isExpired (w.now c.world).1 = false) : Checks c [] (.ok c.session)
  | renews {settings session} (hm : c.sessions = some settings) (hs : c.session = some session)
      (hx : session.isExpired (w.now c.world).1 = true) :
      Checks c [asking w session.kind (looked w c)]
        ((grant w settings.ttl session.kind (looked w c)).map some)

/-- What is asked for when reconnecting, and what is held then. Without sessions to manage, or none
held, nothing is asked for. Otherwise it is one request, and if that grants a session which has
expired when it is looked at, a second one. -/
inductive Renewals (c : Client τ) : List Call → Except FeedError (Option Session) → Prop
  | none (h : c.sessions = none ∨ c.session = none) : Renewals c [] (.ok c.session)
  | refused {settings held e} (hm : c.sessions = some settings) (hs : c.session = some held)
      (hg : grant w settings.ttl held.kind c = .error e) :
      Renewals c [asking w held.kind c] (.error e)
  | once {settings held renewed} (hm : c.sessions = some settings) (hs : c.session = some held)
      (hg : grant w settings.ttl held.kind c = .ok renewed)
      (hx : renewed.isExpired (w.now (requested w held.kind c).world).1 = false) :
      Renewals c [asking w held.kind c] (.ok (some renewed))
  | twice {settings held renewed} (hm : c.sessions = some settings) (hs : c.session = some held)
      (hg : grant w settings.ttl held.kind c = .ok renewed)
      (hx : renewed.isExpired (w.now (requested w held.kind c).world).1 = true) :
      Renewals c
        [asking w held.kind c, asking w renewed.kind (looked w (requested w held.kind c))]
        ((grant w settings.ttl renewed.kind (looked w (requested w held.kind c))).map some)

/-- From one client to the other these calls are made and so many reconnections counted; the
subscriptions stay, and unless it failed that is held in the end. -/
structure Track (c c' : Client τ) (calls : List Call) (reconnections : Nat)
    (held : Except FeedError (Option Session)) : Prop where
  calls : c'.calls = c.calls ++ calls
  token : c'.token = c.token
  registry : c'.dispatcher.registry = c.dispatcher.registry
  journal : c.dispatcher.journal.Reconnects c'.dispatcher.journal reconnections
  session : ∀ s, held = .ok s → c'.session = s

section
variable {w} {c c' c'' : Client τ} {calls calls' : List Call} {m n : Nat}
  {held held' : Except FeedError (Option Session)}

theorem Track.refl (c : Client τ) : Track c c [] 0 (.ok c.session) := by
  refine ⟨by simp, rfl, rfl, .refl _, ?_⟩
  intro s hs
  cases hs
  rfl

theorem Track.trans (h : Track c c' calls m held) (h' : Track c' c'' calls' n held') :
    Track c c'' (calls ++ calls') (m + n) held' := by
  refine ⟨?_, h'.token.trans h.token, h'.registry.trans h.registry, h.journal.trans h'.journal,
    h'.session⟩
  rw [h'.calls, h.calls, List.append_assoc]

end

theorem renewSession_track (settings : SessionSettings) (session : Session) (c : Client τ) :
    Track c (renewSession w settings session c).2 [asking w session.kind c] 0
      ((grant w settings.ttl session.kind c).map some) := by
  rw [renewSession_apply]
  cases hg : grant w settings.ttl session.kind c with
  | ok renewed =>
    refine ⟨rfl, rfl, rfl, .refl _, ?_⟩
    intro s hs
    cases hs
    rfl
  | error e =>
    refine ⟨rfl, rfl, rfl, Journal.reconnects_report _ e, ?_⟩
    intro s hs
    cases hs

theorem renewSession_answer (settings : SessionSettings) (session : Session) (c : Client τ) :
    (renewSession w settings session c).1 = grant w settings.ttl session.kind c := by
  rw [renewSession_apply]
  cases grant w settings.ttl session.kind c <;> rfl

theorem activeSession_apply (c : Client τ) :
    activeSession w c =
      match c.session with
      | none => (.ok none, c)
      | some session =>
        match session.isExpired (w.now c.world).1, c.sessions with
        | true, some settings =>
          ((renewSession w settings session (looked w c)).1.map
            fun renewed => (some renewed).filter Session.isActive,
            (renewSession w settings session (looked w c)).2)
        | _, _ => (.ok ((some session).filter Session.isActive), looked w c) := by
  -- Looking leaves the way to manage sessions as it is; the cases are on that alone.
  have looks : ask w.now c = ((w.now c.world).1, looked w c) := rfl
  have same : (looked w c).sessions = c.sessions := rfl
  unfold activeSession
  rw [bind_apply, get_apply]
  rcases c.session with _ | session
  · rfl
  simp only [bind_apply, looks, get_apply, same, Option.filter_some]
  rcases session.isExpired (w.now c.world).1 with _ | _
  · rfl
  rcases c.sessions with _ | settings
  · rfl
  · simp only [bind_apply]
    rcases (renewSession w settings session (looked w c)).1 with e | renewed <;> rfl

theorem renewHeld_apply (c : Client τ) :
    renewHeld w c =
      match c.sessions, c.session with
      | some settings, some held =>
        ((renewSession w settings held c).1.map fun _ => (), (renewSession w settings held c).2)
      | _, _ => (.ok (), c) := by
  unfold renewHeld
  simp only [bind_apply, get_apply]
  cases c.sessions with
  | none => rfl
  | some settings =>
    cases c.session with
    | none => rfl
    | some held =>
      simp only [bind_apply]
      cases (renewSession w settings held c).1 <;> rfl

theorem activeSession_checks (c : Client τ) : ∃ requests held,
    Checks w c requests held ∧ Track c (activeSession w c).2 requests 0 held ∧
      (activeSession w c).1 = held.map (·.filter Session.isActive) ∧
      (activeSession w c).2.phase = c.phase := by
  have looks : Track c (looked w c) [] 0 (.ok c.session) :=
    ⟨(Track.refl c).calls, rfl, rfl, .refl _, (Track.refl c).session⟩
  rw [activeSession_apply]
  cases hs : c.session with
  | none =>
    refine ⟨[], _, .keeps ?_, .refl c, by rw [hs]; rfl, rfl⟩
    intro settings session _ h
    rw [hs] at h
    cases h
  | some session =>
    dsimp only
    cases hx : session.isExpired (w.now c.world).1 with
    | false =>
      refine ⟨[], _, .keeps ?_, looks, by rw [hs]; rfl, rfl⟩
      intro settings held _ h
      rw [hs] at h
      cases h
      exact hx
    | true =>
      cases hm : c.sessions with
      | none =>
        refine ⟨[], _, .keeps ?_, looks, by rw [hs]; rfl, rfl⟩
        intro settings held h
        rw [hm] at h
        cases h
      | some settings =>
        have track := looks.trans (renewSession_track w settings session (looked w c))
        refine ⟨_, _, .renews hm hs hx, track, ?_, renewSession_phase w settings session _⟩
        dsimp only
        rw [renewSession_answer]
        cases grant w settings.ttl session.kind (looked w c) <;> rfl

section
variable {w} {c : Client τ} {requests : List Call} {held : Except FeedError (Option Session)}

theorem Checks.renewals_of_none (h : c.sessions = none ∨ c.session = none)
    (checks : Checks w c requests held) : Renewals w c requests held := by
  cases checks with
  | keeps => exact .none h
  | renews hm hs =>
    rw [hm, hs] at h
    simp at h

theorem Checks.renewals_of_renewed {settings : SessionSettings} {session renewed : Session}
    (hm : c.sessions = some settings) (hs : c.session = some session)
    (hg : grant w settings.ttl session.kind c = .ok renewed)
    (checks : Checks w (renewSession w settings session c).2 requests held) :
    Renewals w c (asking w session.kind c :: requests) held := by
  rw [renewSession_apply, hg] at checks
  cases checks with
  | keeps h => exact .once hm hs hg (h settings renewed hm rfl)
  | renews hm' hs' hx =>
    cases hs'
    obtain rfl := Option.some.inj (hm.symm.trans hm')
    exact .twice hm hs hg hx

end

/-! ## Opening -/

/-- How a connect goes on with what is held: the calls it makes then, its result, and whether the
transport is open after it. -/
inductive Opens (token : String) :
    Except FeedError (Option Session) → List Call → Except FeedError Unit → Bool → Prop
  | refused (e) : Opens token (.error e) [] (.error e) false
  | idle {held : Option Session} (h : ∀ s, held = some s → s.isActive = false) :
      Opens token (.ok held) [] (.ok ()) false
  | failed {s : Session} (h : s.isActive = true) (e) :
      Opens token (.ok (some s)) [.connect (some s) (.ofSession s token) (.error e)] (.error e) false
  | opened {s : Session} (h : s.isActive = true) :
      Opens token (.ok (some s)) [.connect (some s) (.ofSession s token) (.ok ())] (.ok ()) true

theorem connect_apply {c : Client τ} (hp : c.phase ≠ .connected) :
    connect w c =
      match (activeSession w c).1 with
      | .error e => (.error e, (activeSession w c).2)
      | .ok none => (.ok (), (activeSession w c).2)
      | .ok (some session) => openFor w session (activeSession w c).2 := by
  unfold connect
  rw [bind_apply, get_apply, if_neg hp]
  show (activeSession w >>= _) c = _
  rw [bind_apply]
  rcases (activeSession w c).1 with _ | _ | session <;> rfl

theorem openFor_opens {session : Session} {c : Client τ} (hs : c.session = some session)
    (ha : session.isActive = true) : ∃ calls up,
    Opens c.token (.ok (some session)) calls (openFor w session c).1 up ∧
      ((openFor w session c).2.phase = .connected ↔ up = true) ∧
      Track c (openFor w session c).2 calls 0 (.ok (some session)) := by
  have holds : ∀ s, Except.ok (ε := FeedError) (some session) = .ok s → c.session = s := by
    rintro s h
    cases h
    exact hs
  rw [openFor_apply, hs]
  rcases w.connect (.ofSession session c.token) c.world with ⟨e | _, s⟩
  · refine ⟨_, false, .failed ha e, iff_of_false nofun nofun, rfl, rfl, rfl, ?_, ?_⟩
    · exact Journal.reconnects_report _ e
    · exact fun s h => hs ▸ holds s h
  · refine ⟨_, true, .opened ha, iff_of_true rfl rfl, rfl, rfl, rfl, ?_, ?_⟩
    · have marked := Journal.reconnects_statistics c.dispatcher.journal
        (f := Statistics.markStarted) rfl
      exact marked.trans (Journal.reconnects_sample (s := .connected true) _ nofun)
    · exact fun s h => hs ▸ holds s h

theorem connect_course {c : Client τ} (hp : c.phase ≠ .connected) : ∃ requests held calls up,
    Checks w c requests held ∧ Opens c.token held calls (connect w c).1 up ∧
      ((connect w c).2.phase = .connected ↔ up = true) ∧
      Track c (connect w c).2 (requests ++ calls) 0 held := by
  obtain ⟨requests, held, checks, track, answer, phase⟩ := activeSession_checks w c
  have quiet : (activeSession w c).2.phase ≠ .connected := phase ▸ hp
  rw [connect_apply w hp, answer]
  rcases held with e | session
  · refine ⟨requests, _, [], false, checks, .refused e, iff_of_false quiet nofun, ?_⟩
    rwa [List.append_nil]
  by_cases hidle : ∀ s, session = some s → s.isActive = false
  · have unused : session.filter Session.isActive = none := by
      cases session with
      | none => rfl
      | some s => simp [hidle s rfl]
    rw [Except.map, unused]
    refine ⟨requests, _, [], false, checks, .idle hidle, iff_of_false quiet nofun, ?_⟩
    rwa [List.append_nil]
  · push Not at hidle
    obtain ⟨s, rfl, ha⟩ := hidle
    have ha : s.isActive = true := by simpa using ha
    rw [Except.map, Option.filter_some, if_pos ha]
    obtain ⟨calls, up, opens, open', opened⟩ := openFor_opens w (track.session _ rfl) ha
    rw [track.token] at opens
    exact ⟨requests, _, calls, up, checks, opens, open', track.trans opened⟩

def renewAndConnect : Op τ (Except FeedError Unit) := do
  match ← renewHeld w with
  | .error e => return .error e
  | .ok _ => connect w

theorem renewAndConnect_apply (c : Client τ) :
    renewAndConnect w c =
      match (renewHeld w c).1 with
      | .error e => (.error e, (renewHeld w c).2)
      | .ok _ => connect w (renewHeld w c).2 := by
  unfold renewAndConnect
  rw [bind_apply]
  rcases (renewHeld w c).1 with e | _ <;> rfl

theorem renewAndConnect_course {c : Client τ} (hp : c.phase ≠ .connected) :
    ∃ requests held calls up,
      Renewals w c requests held ∧ Opens c.token held calls (renewAndConnect w c).1 up ∧
      ((renewAndConnect w c).2.phase = .connected ↔ up = true) ∧
      Track c (renewAndConnect w c).2 (requests ++ calls) 0 held := by
  have unrenewed (h : c.sessions = none ∨ c.session = none) (hr : renewHeld w c = (.ok (), c)) :
      ∃ requests held calls up,
        Renewals w c requests held ∧ Opens c.token held calls (renewAndConnect w c).1 up ∧
        ((renewAndConnect w c).2.phase = .connected ↔ up = true) ∧
        Track c (renewAndConnect w c).2 (requests ++ calls) 0 held := by
    obtain ⟨requests, held, calls, up, checks, opens, open', track⟩ := connect_course w hp
    rw [renewAndConnect_apply, hr]
    exact ⟨requests, held, calls, up, checks.renewals_of_none h, opens, open', track⟩
  have hr := renewHeld_apply w c
  cases hm : c.sessions with
  | none =>
    rw [hm] at hr
    exact unrenewed (.inl hm) hr
  | some settings =>
    cases hs : c.session with
    | none =>
      rw [hm, hs] at hr
      exact unrenewed (.inr hs) hr
    | some session =>
      rw [hm, hs] at hr
      dsimp only at hr
      have renewed := renewSession_track w settings session c
      have quiet : (renewSession w settings session c).2.phase ≠ .connected := by
        rw [renewSession_phase]
        exact hp
      rw [renewAndConnect_apply, hr, renewSession_answer]
      cases hg : grant w settings.ttl session.kind c with
      | error e =>
        rw [hg] at renewed
        exact ⟨_, _, [], false, .refused hm hs hg, .refused e, iff_of_false quiet nofun, renewed⟩
      | ok granted =>
        obtain ⟨requests, held, calls, up, checks, opens, open', track⟩ := connect_course w quiet
        rw [renewed.token] at opens
        exact ⟨_, held, calls, up, checks.renewals_of_renewed hm hs hg, opens, open',
          renewed.trans track⟩

/-! ## Restoring -/

theorem sendReported_track (frame : Frame) (c : Client τ) :
    Track c (sendReported w frame c).2 [.send frame (w.send frame c.world).1] 0
      (.ok c.session) := by
  rw [sendReported_apply]
  have kept := (Track.refl c).session
  cases (w.send frame c.world).1 with
  | ok => exact ⟨rfl, rfl, rfl, .refl _, kept⟩
  | error e => exact ⟨rfl, rfl, rfl, Journal.reconnects_report _ e, kept⟩

theorem sendAll_track (frames : List Frame) (c : Client τ) :
    ∃ sent : List (Frame × Except FeedError Unit), sent.map Prod.fst = frames ∧
      Track c (sendAll w frames c).2 (sent.map fun s => .send s.1 s.2) 0 (.ok c.session) := by
  induction frames generalizing c with
  | nil => exact ⟨[], rfl, .refl c⟩
  | cons frame rest ih =>
    have first := sendReported_track w frame c
    obtain ⟨sent, hf, others⟩ := ih (sendReported w frame c).2
    rw [first.session _ rfl] at others
    exact ⟨(frame, (w.send frame c.world).1) :: sent, congrArg _ hf, first.trans others⟩

theorem restore_track (c : Client τ) :
    ∃ sent : List (Frame × Except FeedError Unit),
      sent.map Prod.fst = EventKind.all.filterMap c.dispatcher.registry.restoring? ∧
      Track c (restore w c).2 (sent.map fun s => .send s.1 s.2) 1 (.ok c.session) := by
  let counted : Client τ := (sample .reconnect
    (modifyJournal (·.modifyStatistics (·.countReconnect)) c).2).2
  have count : Track c counted [] 1 (.ok c.session) :=
    ⟨(Track.refl c).calls, rfl, rfl, ⟨rfl, [.reconnect], rfl, rfl⟩, (Track.refl c).session⟩
  obtain ⟨sent, hf, track⟩ := sendAll_track w counted.dispatcher.registry.replayFrames counted
  refine ⟨sent, ?_, count.trans track⟩
  rw [hf, Registry.replayFrames_eq]
  rfl

inductive Ends (token : String) (r : Registry) :
    Except FeedError (Option Session) → List Call → Except FeedError Unit → Nat → Prop
  | refused (e) : Ends token r (.error e) [] (.error e) 0
  | idle {held : Option Session} (h : ∀ s, held = some s → s.isActive = false) :
      Ends token r (.ok held) [] (.ok ()) 0
  | failed {s : Session} (h : s.isActive = true) (e) :
      Ends token r (.ok (some s)) [.connect (some s) (.ofSession s token) (.error e)] (.error e) 0
  | restored {s : Session} (h : s.isActive = true) {sent : List (Frame × Except FeedError Unit)}
      (hs : sent.map Prod.fst = EventKind.all.filterMap r.restoring?) :
      Ends token r (.ok (some s))
        (.connect (some s) (.ofSession s token) (.ok ()) :: sent.map fun s => .send s.1 s.2)
        (.ok ()) 1

theorem reopen_zero_apply (c : Client τ) :
    reopen w .zero c =
      match (renewAndConnect w c).1 with
      | .error e => (.error e, (renewAndConnect w c).2)
      | .ok _ => (.ok (), if (renewAndConnect w c).2.phase = .connected then
          (restore w (renewAndConnect w c).2).2 else (renewAndConnect w c).2) := by
  rw [renewAndConnect_apply]
  show (renewHeld w >>= _) c = _
  rw [bind_apply]
  rcases (renewHeld w c).1 with e | _
  · rfl
  show (connect w >>= _) (renewHeld w c).2 = _
  rw [bind_apply]
  dsimp only
  rcases (connect w (renewHeld w c).2).1 with e | _
  · rfl
  show ((get : Op τ (Client τ)) >>= _) (connect w (renewHeld w c).2).2 = _
  rw [bind_apply, get_apply]
  by_cases hp : (connect w (renewHeld w c).2).2.phase = .connected
  · rw [if_pos hp, if_pos hp]
    rfl
  · rw [if_neg hp, if_neg hp]
    rfl

theorem reopen_zero_course {c : Client τ} (hp : c.phase ≠ .connected) : ∃ requests held rest n,
    Renewals w c requests held ∧
      Ends c.token c.dispatcher.registry held rest (reopen w .zero c).1 n ∧
      Track c (reopen w .zero c).2 (requests ++ rest) n held := by
  obtain ⟨requests, held, calls, up, renewals, opens, open', track⟩ := renewAndConnect_course w hp
  rw [reopen_zero_apply]
  cases opens' : (renewAndConnect w c).1 with
  | error e =>
    rw [opens'] at opens
    cases opens with
    | refused => exact ⟨_, _, _, _, renewals, .refused e, track⟩
    | failed h => exact ⟨_, _, _, _, renewals, .failed h e, track⟩
  | ok =>
    rw [opens'] at opens
    dsimp only
    cases opens with
    | idle h =>
      rw [if_neg (by rw [open']; nofun)]
      exact ⟨_, _, _, _, renewals, .idle h, track⟩
    | opened h =>
      rw [if_pos (open'.2 rfl)]
      obtain ⟨sent, hs, restored⟩ := restore_track w (renewAndConnect w c).2
      rw [track.registry] at hs
      rw [track.session _ rfl] at restored
      refine ⟨_, _, _, _, renewals, .restored h hs, ?_⟩
      have all := track.trans restored
      rwa [List.append_assoc] at all

/-! ## Waiting -/

def waited (delay : Duration) (c : Client τ) : Client τ :=
  if delay.isZero then c else { c with time := Nat.max c.time (Timer.wake c.time delay) }

theorem beats_apply {c : Client τ} (hb : c.heartbeat = none) (upTo n : Nat) :
    (beats w upTo n c).2 = c := by
  cases n with
  | zero => rfl
  | succ n =>
    unfold beats
    rw [bind_apply, get_apply, hb]
    rfl

theorem sleep_apply {c : Client τ} (hb : c.heartbeat = none) (d : Duration) :
    (sleep w d c).2 = { c with time := Nat.max c.time (Timer.wake c.time d) } := by
  unfold sleep elapse
  rw [bind_apply, get_apply, bind_apply, modify_apply, beats_apply w hb]

theorem reopen_apply {c : Client τ} (hb : c.heartbeat = none) (delay : Duration) :
    reopen w delay c = reopen w .zero (waited delay c) := by
  have none : ¬ (!Duration.zero.isZero) = true := by decide
  unfold reopen waited
  rw [if_neg none]
  by_cases hd : delay.isZero = true
  · rw [if_pos hd, if_neg (by simp [hd])]
  · rw [if_neg hd, if_pos (by simp [hd]), bind_apply, sleep_apply w hb]

theorem teardown_track (c : Client τ) :
    Track c (teardown w c).2 [.disconnect] 0 (.ok c.session) := by
  rw [teardown_apply]
  refine ⟨rfl, rfl, ?_, ?_, (Track.refl c).session⟩
  · by_cases hp : c.phase = .disconnected
    · rw [if_pos hp]
    · rw [if_neg hp]
      rfl
  · by_cases hp : c.phase = .disconnected
    · rw [if_pos hp]
      exact .refl _
    · rw [if_neg hp]
      exact Journal.reconnects_sample _ nofun

theorem waited_track (delay : Duration) (c : Client τ) :
    Track c (waited delay c) [] 0 (.ok c.session) := by
  unfold waited
  by_cases hd : delay.isZero = true
  · rw [if_pos hd]
    exact .refl c
  · rw [if_neg hd]
    exact ⟨(Track.refl c).calls, rfl, rfl, .refl _, (Track.refl c).session⟩

theorem reconnectAfter_apply (delay : Duration) (c : Client τ) :
    reconnectAfter w delay c = reopen w .zero (waited delay (teardown w c).2) := by
  have closed := teardown_apply w c
  unfold reconnectAfter
  rw [bind_apply, reopen_apply w (by rw [closed])]

theorem waited_phase (delay : Duration) (c : Client τ) :
    (waited delay (teardown w c).2).phase ≠ .connected := by
  have closed := teardown_phase w c
  unfold waited
  by_cases hd : delay.isZero = true
  · rw [if_pos hd]
    exact closed
  · rw [if_neg hd]
    exact closed

theorem reconnectAfter_course (delay : Duration) (c : Client τ) : ∃ requests held rest n,
    Renewals w (waited delay (teardown w c).2) requests held ∧
      Ends c.token c.dispatcher.registry held rest (reconnectAfter w delay c).1 n ∧
      Track c (reconnectAfter w delay c).2 (.disconnect :: requests ++ rest) n held := by
  have before := (teardown_track w c).trans (waited_track delay (teardown w c).2)
  obtain ⟨requests, held, rest, n, renewals, ends, track⟩ :=
    reopen_zero_course w (waited_phase w delay c)
  have track := before.trans track
  rw [before.token, before.registry] at ends
  rw [show 0 + 0 + n = n by omega] at track
  rw [reconnectAfter_apply]
  exact ⟨requests, held, rest, n, renewals, ends, track⟩

theorem reconnectAfter_error {delay : Duration} {c : Client τ} {e : FeedError}
    (h : (reconnectAfter w delay c).1 = .error e) :
    (reconnectAfter w delay c).2.phase ≠ .connected := by
  rw [reconnectAfter_apply, reopen_zero_apply] at h ⊢
  obtain ⟨requests, held, calls, up, -, opens, open', -⟩ :=
    renewAndConnect_course w (waited_phase w delay c)
  cases hr : (renewAndConnect w (waited delay (teardown w c).2)).1 with
  | error e =>
    dsimp only
    rw [hr] at opens
    rw [Ne, open']
    cases opens <;> nofun
  | ok =>
    rw [hr] at h
    cases h

/-- A reconnection closes, asks for sessions and then ends in one of four ways. It is counted in
both places just when the transport was opened, and then every active kind is restored, in order
and with the symbols in the order of their bytes. -/
theorem reconnect_course (c : Client τ) : ∃ requests held rest n,
    (reconnect w c).2.calls = c.calls ++ (.disconnect :: requests ++ rest) ∧
    Renewals w (waited c.settings.reconnectDelay (teardown w c).2) requests held ∧
    Ends c.token c.dispatcher.registry held rest (reconnect w c).1 n ∧
    (reconnect w c).2.dispatcher.journal.statistics.reconnects =
      c.dispatcher.journal.statistics.reconnects + n ∧
    Sample.reconnect.value (reconnect w c).2.dispatcher.journal.samples =
      Sample.reconnect.value c.dispatcher.journal.samples + n ∧
    (reconnect w c).2.dispatcher.registry = c.dispatcher.registry ∧
    (∀ s, held = .ok s → (reconnect w c).2.session = s) ∧
    (c.dispatcher.registry.symbols.toList.map fun x => Utf8.encode x.toList).Pairwise (· < ·) := by
  obtain ⟨requests, held, rest, n, renewals, ends, track⟩ :=
    reconnectAfter_course w c.settings.reconnectDelay c
  exact ⟨requests, held, rest, n, track.calls, renewals, ends, track.journal.statistics,
    track.journal.value, track.registry, track.session, TextSet.bytes_sorted _⟩

end Client

end MarketFeed
