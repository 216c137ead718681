import Mathlib
import MarketFeed.Proofs.Reconnection

/-!
# Attempts to reconnect

A loop of attempts waits, makes an attempt and looks whether it left the client connected. `Tries`
lists the clients with which attempts were started, each of them before the loop was told to stop,
and `Finish` says what each end of the loop means for that list.
-/

namespace MarketFeed

theorem Attempts.next_cases (a : Attempts) (fraction : Binary64) :
    (0 < a.schedule.maxAttempts ∧ a.schedule.maxAttempts ≤ a.made ∧
      a.next fraction = (.exhausted, a)) ∨
    (0 < a.schedule.maxAttempts → a.made < a.schedule.maxAttempts) ∧
      ((∃ d, a.next fraction = (.after d, { a with made := a.made + 1 })) ∨
        a.next fraction = (.outOfRange, { a with made := a.made + 1 })) := by
  have remain : a.remain = true ↔
      a.schedule.maxAttempts = 0 ∨ a.made < a.schedule.maxAttempts := by simp [Attempts.remain]
  unfold next
  cases h : a.remain with
  | true =>
    right
    have h := remain.1 h
    refine ⟨by omega, ?_⟩
    simp only [Bool.not_true, Bool.false_eq_true, if_false]
    generalize (Schedule.baseDelay? _ _).bind _ = delay
    cases delay with
    | some d => exact .inl ⟨d, rfl⟩
    | none => exact .inr rfl
  | false =>
    left
    have h := mt remain.2 (by rw [h]; nofun)
    exact ⟨by omega, by omega, rfl⟩

namespace Client

/-- Whether an attempt with a number may start at a time: the loop has not been told to stop
before. -/
def Cancellation.allows : Cancellation → Nat → Nat → Prop
  | .never, _, _ => True
  | .already, _, _ => False
  | .at t, _, time => time ≤ t
  | .during n, attempt, _ => attempt ≤ n

def Cancellation.hasCome : Cancellation → Nat → Nat → Prop
  | .never, _, _ => False
  | .already, _, _ => True
  | .at t, _, time => t ≤ time
  | .during n, made, _ => n ≤ made

variable {τ : Type} (w : World τ)

theorem answer_apply {α β : Type} (m : Op τ α) (b : β) (c : Client τ) :
    (m >>= fun _ => pure b) c = (b, (m c).2) := rfl

/-! ## Time -/

theorem beat_time (heartbeat : Heartbeat) (due : Nat) (c : Client τ) :
    (beat w heartbeat due c).2.time = max c.time due := by
  rw [beat_apply]
  rcases w.isOpen c.world with ⟨_ | _, s⟩
  · rfl
  · by_cases hs : w.stalls (w.now s).2 = true
    · simp only [if_pos hs]
    · simp only [if_neg hs]
      rcases w.send _ _ with ⟨_ | _, s⟩ <;> rfl

theorem beats_time (upTo : Nat) : ∀ n (c : Client τ),
    c.time ≤ (beats w upTo n c).2.time ∧ (beats w upTo n c).2.time ≤ max c.time upTo := by
  intro n
  induction n with
  | zero => exact fun c => ⟨Nat.le_refl _, Nat.le_max_left _ _⟩
  | succ n ih =>
    intro c
    have still : c.time ≤ c.time ∧ c.time ≤ max c.time upTo :=
      ⟨Nat.le_refl _, Nat.le_max_left _ _⟩
    unfold beats
    rw [bind_apply, get_apply]
    rcases c.heartbeat with _ | ⟨monitor, due | _ | _⟩
    · exact still
    · by_cases hd : due ≤ upTo
      · simp only [if_pos hd]
        obtain ⟨h₁, h₂⟩ := ih (beat w ⟨monitor, .waiting due⟩ due c).2
        rw [beat_time] at h₁ h₂
        rw [bind_apply]
        omega
      · simp only [if_neg hd]
        exact still
    · exact still
    · exact still

theorem elapse_time (upTo : Nat) (c : Client τ) : (elapse w upTo c).2.time = max c.time upTo := by
  obtain ⟨h₁, h₂⟩ := beats_time w upTo (Timer.tickBefore upTo + 1) c
  unfold elapse
  rw [bind_apply, modify_apply]
  show max (beats w upTo _ c).2.time upTo = _
  omega

theorem waitForAttempt_apply (cancellation : Cancellation) (attempt : Nat) (delay : Duration)
    (c : Client τ) : waitForAttempt w cancellation attempt delay c =
      match cancellation with
      | .already => (false, c)
      | .never => (true, (elapse w (Timer.wake c.time delay) c).2)
      | .at t =>
        if t < Timer.wake c.time delay then (false, (elapse w t c).2)
        else (true, (elapse w (Timer.wake c.time delay) c).2)
      | .during earlier =>
        if earlier < attempt then (false, c)
        else (true, (elapse w (Timer.wake c.time delay) c).2) := by
  unfold waitForAttempt
  rw [bind_apply, get_apply]
  cases cancellation with
  | never =>
    dsimp only
    rw [answer_apply]
  | already => rfl
  | «at» t =>
    dsimp only
    by_cases ht : t < Timer.wake c.time delay
    · rw [if_pos ht, if_pos ht, answer_apply]
    · rw [if_neg ht, if_neg ht, answer_apply]
  | during earlier =>
    dsimp only
    by_cases hn : earlier < attempt
    · rw [if_pos hn, if_pos hn]
      rfl
    · rw [if_neg hn, if_neg hn, answer_apply]

structure Waits (cancellation : Cancellation) (made : Nat) (c : Client τ)
    (r : Bool × Client τ) : Prop where
  idles : Relation.ReflTransGen (Idle w) c r.2
  allowed : r.1 = true → cancellation.allows (made + 1) r.2.time
  told : r.1 = false → cancellation.hasCome made r.2.time

theorem waitForAttempt_waits (cancellation : Cancellation) (made : Nat) (delay : Duration)
    (c : Client τ) :
    Waits w cancellation made c (waitForAttempt w cancellation (made + 1) delay c) := by
  have woken := Timer.le_wake c.time delay
  have idles (upTo : Nat) : Relation.ReflTransGen (Idle w) c (elapse w upTo c).2 :=
    (elapse_idles w upTo c trivial).1
  have goes (upTo : Nat) (h : cancellation.allows (made + 1) (max c.time upTo)) :
      Waits w cancellation made c (true, (elapse w upTo c).2) := by
    rw [← elapse_time w] at h
    exact ⟨idles upTo, fun _ => h, nofun⟩
  have stops (upTo : Nat) (h : cancellation.hasCome made (max c.time upTo)) :
      Waits w cancellation made c (false, (elapse w upTo c).2) := by
    rw [← elapse_time w] at h
    exact ⟨idles upTo, nofun, fun _ => h⟩
  rw [waitForAttempt_apply]
  cases cancellation with
  | never => exact goes _ trivial
  | already => exact ⟨.refl, nofun, fun _ => trivial⟩
  | «at» t =>
    dsimp only
    by_cases ht : t < Timer.wake c.time delay
    · rw [if_pos ht]
      exact stops t (Nat.le_max_right c.time t)
    · rw [if_neg ht]
      refine goes _ ?_
      show max c.time _ ≤ t
      omega
  | during earlier =>
    dsimp only
    by_cases hn : earlier < made + 1
    · rw [if_pos hn]
      exact ⟨.refl, nofun, fun _ => Nat.le_of_lt_succ hn⟩
    · rw [if_neg hn]
      exact goes _ (Nat.le_of_not_lt hn)

/-! ## One attempt -/

def connects (c : Client τ) : Bool := (isConnected w (reconnectAfter w .zero c).2).1

theorem attempt_apply (c : Client τ) :
    attempt w c =
      match (reconnectAfter w .zero c).1 with
      | .error e => (some e, (reconnectAfter w .zero c).2)
      | .ok _ => (if connects w c then none else some noActiveSession,
          (isConnected w (reconnectAfter w .zero c).2).2) := by
  unfold attempt connects
  rw [bind_apply]
  rcases (reconnectAfter w .zero c).1 with e | _
  · rfl
  · rfl

theorem attempt_course (c : Client τ) :
    Relation.ReflTransGen (Idle w) (reconnectAfter w .zero c).2 (attempt w c).2 ∧
      ((attempt w c).1 = none ↔ connects w c = true) := by
  rw [attempt_apply]
  cases h : (reconnectAfter w .zero c).1 with
  | error e =>
    have closed := reconnectAfter_error w h
    refine ⟨.refl, iff_of_false nofun fun hc => ?_⟩
    exact closed ((isConnected_iff w _).1 hc).1
  | ok =>
    refine ⟨(isConnected_idles w _ trivial).1, ?_⟩
    cases connects w c with
    | true => simp
    | false => simp

def closings (c : Client τ) : Nat := c.calls.countP Call.isDisconnect

theorem Idle.closings {c c' : Client τ} (s : Idle w c c') : c'.closings = c.closings := by
  unfold Client.closings
  obtain ⟨-, -, h | ⟨t, h | ⟨r, h⟩⟩⟩ := s.calls <;> simp [h, Call.isDisconnect]

theorem Renewals.closes_nothing {c : Client τ} {requests : List Call}
    {held : Except FeedError (Option Session)} (renewals : Renewals w c requests held) :
    requests.countP Call.isDisconnect = 0 := by
  cases renewals <;> simp [asking, Call.isDisconnect]

theorem Ends.closes_nothing {token : String} {r : Registry}
    {held : Except FeedError (Option Session)} {rest : List Call} {result : Except FeedError Unit}
    {n : Nat} (ends : Ends token r held rest result n) : rest.countP Call.isDisconnect = 0 := by
  cases ends <;> simp [Call.isDisconnect]

/-- Each attempt closes the transport once, at its start. -/
theorem reconnectAfter_closings (delay : Duration) (c : Client τ) :
    (reconnectAfter w delay c).2.closings = c.closings + 1 := by
  obtain ⟨requests, held, rest, n, renewals, ends, track⟩ := reconnectAfter_course w delay c
  unfold closings
  rw [track.calls, List.countP_append, List.countP_append, List.countP_cons,
    renewals.closes_nothing, ends.closes_nothing]
  rfl

/-! ## The loop -/

/-- A loop that has made a number of attempts starts further ones in these states. Before each of
them it waits, and it has not been told to stop when it starts one. -/
inductive Tries (cancellation : Cancellation) : Nat → Client τ → List (Client τ) → Client τ → Prop
  | done {made c c'} (h : Relation.ReflTransGen (Idle w) c c') : Tries cancellation made c [] c'
  | start {made c s c' starts} (h : Relation.ReflTransGen (Idle w) c s)
      (ha : cancellation.allows (made + 1) s.time)
      (rest : Tries cancellation (made + 1) (reconnectAfter w .zero s).2 starts c') :
      Tries cancellation made c (s :: starts) c'

/-- What each end of a loop means, with a limit for the attempts, the number of them that were made
and the states in which they were started. -/
inductive Finish (limit : Nat) (cancellation : Cancellation) (made : Nat)
    (starts : List (Client τ)) (c' : Client τ) : Option LoopEnd → Prop
  | connected {failed s} (hs : starts = failed ++ [s]) (hc : connects w s = true)
      (hf : ∀ s ∈ failed, connects w s = false) :
      Finish limit cancellation made starts c' (some (.connected made))
  | exceeded (hl : 0 < limit) (hm : made = limit) (hf : ∀ s ∈ starts, connects w s = false) (e) :
      Finish limit cancellation made starts c' (some (.failed (.exceeded made e)))
  | cancelled (h : cancellation.hasCome made c'.time) (hf : ∀ s ∈ starts, connects w s = false) :
      Finish limit cancellation made starts c' (some (.failed .cancelled))
  | outOfRange (hf : ∀ s ∈ starts, connects w s = false) :
      Finish limit cancellation made starts c' (some .outOfRange)
  | unfinished (hf : ∀ s ∈ starts, connects w s = false) :
      Finish limit cancellation made starts c' none

section
variable {w} {cancellation : Cancellation}

theorem Tries.waited {made : Nat} {c s c' : Client τ} {starts : List (Client τ)}
    (h : Relation.ReflTransGen (Idle w) c s) (tries : Tries w cancellation made s starts c') :
    Tries w cancellation made c starts c' := by
  cases tries with
  | done h' => exact .done (h.trans h')
  | start h' ha rest => exact .start (h.trans h') ha rest

theorem Tries.closings {made : Nat} {c c' : Client τ} {starts : List (Client τ)}
    (tries : Tries w cancellation made c starts c') :
    c'.closings = c.closings + starts.length := by
  have still {c c' : Client τ} (h : Relation.ReflTransGen (Idle w) c c') :
      c'.closings = c.closings :=
    kept_along (I := fun c' => c'.closings = c.closings) (fun _ _ s h => s.closings.trans h) h rfl
  induction tries with
  | done h => exact still h
  | start h _ _ ih =>
    rw [ih, reconnectAfter_closings, still h, List.length_cons]
    omega

theorem Finish.prepend {limit made : Nat} {s c' : Client τ} {starts : List (Client τ)}
    {ended : Option LoopEnd} (hs : connects w s = false)
    (finish : Finish w limit cancellation made starts c' ended) :
    Finish w limit cancellation made (s :: starts) c' ended := by
  have more {l : List (Client τ)} (h : ∀ s ∈ l, connects w s = false) :
      ∀ s' ∈ s :: l, connects w s' = false := List.forall_mem_cons.2 ⟨hs, h⟩
  cases finish with
  | @connected failed s' h hc hf =>
    subst h
    exact .connected (List.cons_append ..).symm hc (more hf)
  | exceeded hl hm hf e => exact .exceeded hl hm (more hf) e
  | cancelled h hf => exact .cancelled h (more hf)
  | outOfRange hf => exact .outOfRange (more hf)
  | unfinished hf => exact .unfinished (more hf)

end

theorem attempts_succ (cancellation : Cancellation) (rounds : Nat) (a : Attempts)
    (last : Option FeedError) (c : Client τ) :
    attempts w cancellation (rounds + 1) a last c =
      match a.next (ask w.fraction c).1 with
      | (.exhausted, a) => (some (.failed (.exceeded a.made (last.getD noAttempt))), (ask w.fraction c).2)
      | (.outOfRange, _) => (some .outOfRange, (ask w.fraction c).2)
      | (.after delay, a) =>
        let r := waitForAttempt w cancellation a.made delay (ask w.fraction c).2
        if r.1 then
          match (attempt w r.2).1 with
          | none => (some (.connected a.made), (attempt w r.2).2)
          | some e => attempts w cancellation rounds a (some e) (attempt w r.2).2
        else (some (.failed .cancelled), r.2) := by
  conv_lhs => unfold attempts
  rw [bind_apply]
  rcases a.next (ask w.fraction c).1 with ⟨_ | d | _, a⟩
  · rfl
  · dsimp only
    rw [bind_apply]
    by_cases hg : (waitForAttempt w cancellation a.made d (ask w.fraction c).2).1 = true
    · rw [if_pos hg, if_pos hg, bind_apply]
      cases (attempt w (waitForAttempt w cancellation a.made d (ask w.fraction c).2).2).1 <;> rfl
    · rw [if_neg hg, if_neg hg]
      rfl
  · rfl

inductive Round (cancellation : Cancellation) (rounds : Nat) (a : Attempts) (last : Option FeedError)
    (c : Client τ) : Option LoopEnd × Client τ → Prop
  | exhausted (h0 : 0 < a.schedule.maxAttempts) (hm : a.schedule.maxAttempts ≤ a.made) :
      Round cancellation rounds a last c
        (some (.failed (.exceeded a.made (last.getD noAttempt))), (ask w.fraction c).2)
  | outOfRange : Round cancellation rounds a last c (some .outOfRange, (ask w.fraction c).2)
  | cancelled {c' : Client τ} (idles : Relation.ReflTransGen (Idle w) c c')
      (told : cancellation.hasCome a.made c'.time) :
      Round cancellation rounds a last c (some (.failed .cancelled), c')
  | connected {s : Client τ} (hm : 0 < a.schedule.maxAttempts → a.made < a.schedule.maxAttempts)
      (idles : Relation.ReflTransGen (Idle w) c s) (allowed : cancellation.allows (a.made + 1) s.time)
      (h : (attempt w s).1 = none) :
      Round cancellation rounds a last c (some (.connected (a.made + 1)), (attempt w s).2)
  | failed {s : Client τ} {e : FeedError}
      (hm : 0 < a.schedule.maxAttempts → a.made < a.schedule.maxAttempts)
      (idles : Relation.ReflTransGen (Idle w) c s) (allowed : cancellation.allows (a.made + 1) s.time)
      (h : (attempt w s).1 = some e) :
      Round cancellation rounds a last c
        (attempts w cancellation rounds { a with made := a.made + 1 } (some e) (attempt w s).2)

theorem fraction_idles (c : Client τ) : Relation.ReflTransGen (Idle w) c (ask w.fraction c).2 :=
  .single (.ask w.fraction (fun _ => .fraction .refl) c)

theorem attempts_round (cancellation : Cancellation) (rounds : Nat) (a : Attempts)
    (last : Option FeedError) (c : Client τ) : Round w cancellation rounds a last c
      (attempts w cancellation (rounds + 1) a last c) := by
  rw [attempts_succ]
  rcases a.next_cases (ask w.fraction c).1 with ⟨h0, hm, h⟩ | ⟨hm, ⟨d, h⟩ | h⟩
  · rw [h]
    exact .exhausted h0 hm
  · rw [h]
    dsimp only
    have waits := waitForAttempt_waits w cancellation a.made d (ask w.fraction c).2
    generalize waitForAttempt w cancellation (a.made + 1) d (ask w.fraction c).2 = r at waits
    have idles := (fraction_idles w c).trans waits.idles
    by_cases hg : r.1 = true
    · rw [if_pos hg]
      cases ha : (attempt w r.2).1 with
      | none => exact .connected hm idles (waits.allowed hg) ha
      | some e => exact .failed hm idles (waits.allowed hg) ha
    · rw [if_neg hg]
      exact .cancelled idles (waits.told (by simpa using hg))
  · rw [h]
    exact .outOfRange

theorem attempts_course (cancellation : Cancellation) : ∀ rounds (a : Attempts) last (c : Client τ),
    (0 < a.schedule.maxAttempts → a.made ≤ a.schedule.maxAttempts) →
    ∃ starts : List (Client τ),
      Tries w cancellation a.made c starts (attempts w cancellation rounds a last c).2 ∧
      Finish w a.schedule.maxAttempts cancellation (a.made + starts.length) starts
        (attempts w cancellation rounds a last c).2 (attempts w cancellation rounds a last c).1 ∧
      (0 < a.schedule.maxAttempts → a.made + starts.length ≤ a.schedule.maxAttempts) ∧
      ((attempts w cancellation rounds a last c).1 = none → starts.length = rounds) := by
  have none : ∀ s ∈ ([] : List (Client τ)), connects w s = false := List.forall_mem_nil _
  intro rounds
  -- Induction on the rounds that are left; what is counted is kept beside it, as `a`.
  induction rounds with
  | zero => exact fun a last c hl => ⟨[], .done .refl, .unfinished none, hl, fun _ => rfl⟩
  | succ rounds ih =>
    intro a last c hl
    have round := attempts_round w cancellation rounds a last c
    generalize attempts w cancellation (rounds + 1) a last c = r at round
    cases round with
    | exhausted h0 hm =>
      have all : a.made = a.schedule.maxAttempts := Nat.le_antisymm (hl h0) hm
      exact ⟨[], .done (fraction_idles w c), .exceeded h0 all none _, hl, nofun⟩
    | outOfRange => exact ⟨[], .done (fraction_idles w c), .outOfRange none, hl, nofun⟩
    | cancelled idles told => exact ⟨[], .done idles, .cancelled told none, hl, nofun⟩
    | @connected s hm idles allowed h =>
      obtain ⟨looks, hc⟩ := attempt_course w s
      refine ⟨[s], .start idles allowed (.done looks), ?_, hm, nofun⟩
      exact .connected (List.nil_append _).symm (hc.1 h) none
    | @failed s e hm idles allowed h =>
      obtain ⟨looks, hc⟩ := attempt_course w s
      have failed : connects w s = false := by
        rw [← Bool.not_eq_true, ← hc, h]
        nofun
      obtain ⟨starts, tries, finish, hn, hr⟩ :=
        ih { a with made := a.made + 1 } (some e) (attempt w s).2 hm
      have count : a.made + 1 + starts.length = a.made + (s :: starts).length := by
        rw [List.length_cons]
        omega
      dsimp only at finish hn
      rw [count] at finish hn
      refine ⟨s :: starts, .start idles allowed (tries.waited looks), finish.prepend failed, hn, ?_⟩
      intro hr'
      rw [List.length_cons, hr hr']

theorem attempts_already (rounds : Nat) (a : Attempts) (last : Option FeedError) (c : Client τ) :
    ∃ s, (attempts w .already rounds a last c).2 = { c with world := s } := by
  cases rounds with
  | zero => exact ⟨c.world, rfl⟩
  | succ rounds =>
    refine ⟨(w.fraction c.world).2, ?_⟩
    show _ = (ask w.fraction c).2
    rw [attempts_succ]
    rcases a.next (ask w.fraction c).1 with ⟨_ | d | _, a⟩
    · rfl
    · dsimp only
      rw [waitForAttempt_apply]
      rfl
    · rfl

/-- A loop with a limit makes no more attempts than that, and one that ends says how many there
were. It was connected by the last of them and by none before, was out of attempts with all of them
made and none that connected, or was told to stop; after that no attempt is started. -/
theorem reconnectWithBackoff_bounded (cancellation : Cancellation) (rounds : Nat) (c : Client τ) :
    let limit := c.settings.maxReconnectAttempts
    let ended := (reconnectWithBackoff w cancellation rounds c).1
    let final := (reconnectWithBackoff w cancellation rounds c).2
    ∃ starts : List (Client τ),
      Tries w cancellation 0 c starts final ∧
      Finish w limit cancellation starts.length starts final ended ∧
      final.closings = c.closings + starts.length ∧
      (0 < limit → starts.length ≤ limit) ∧
      (ended = none → starts.length = rounds) ∧
      (cancellation = .already → starts = [] ∧ ∃ s, final = { c with world := s }) := by
  intro limit ended final
  obtain ⟨starts, tries, finish, hl, hr⟩ := attempts_course w cancellation rounds
    { schedule := .ofSettings c.settings } none c fun _ => Nat.zero_le _
  rw [Nat.zero_add] at finish hl
  refine ⟨starts, tries, finish, tries.closings, hl, hr, ?_⟩
  rintro rfl
  refine ⟨?_, attempts_already w rounds _ none c⟩
  cases tries with
  | done => rfl
  | start _ ha => exact absurd ha id

end Client

end MarketFeed
