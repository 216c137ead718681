import MarketFeed.Client.World
import Mathlib.Data.List.Induction

/-!
# What a log of calls says

A log tells whether the transport should be open, which calls were made on the connection that was
opened last, and which subscriptions the other side should have after them.
-/

namespace MarketFeed

namespace Call

def isOpening : Call → Bool
  | connect _ _ (.ok _) => true
  | _ => false

def isSending : Call → Bool
  | send _ _ | stall _ => true
  | _ => false

def refuses (action : Frame.Action) : Call → Bool
  | send (.subscription a _ _) (.error _) => a = action
  | _ => false

def subscribes (kind : EventKind) : Call → Bool
  | send (.subscription .subscribe k _) (.ok _) => k = kind
  | _ => false

theorem sent_of_subscribes {call : Call} {kind : EventKind} (h : call.subscribes kind = true) :
    ∃ xs r, call = .send (.subscription .subscribe kind xs) (.ok r) := by
  unfold subscribes at h
  split at h
  · obtain rfl := of_decide_eq_true h
    exact ⟨_, _, rfl⟩
  · cases h

end Call

namespace Log

def isUp (log : List Call) : Bool :=
  log.foldl (fun up call => call.isOpening || up && !call.isDisconnect) false

def current (log : List Call) : List Call :=
  log.foldl (fun calls call => if call.isOpening then [] else calls ++ [call]) []

def openings (log : List Call) : Nat := log.countP Call.isOpening

theorem isUp_snoc (log : List Call) (call : Call) :
    isUp (log ++ [call]) = (call.isOpening || isUp log && !call.isDisconnect) := by
  unfold isUp
  rw [List.foldl_append]
  rfl

theorem current_snoc (log : List Call) (call : Call) :
    current (log ++ [call]) = if call.isOpening then [] else current log ++ [call] := by
  unfold current
  rw [List.foldl_append]
  rfl

theorem openings_snoc (log : List Call) (call : Call) :
    openings (log ++ [call]) = openings log + if call.isOpening then 1 else 0 := by
  unfold openings
  rw [List.countP_append, List.countP_cons, List.countP_nil, Nat.zero_add]

theorem openings_append {log more : List Call} (h : ∀ call ∈ more, call.isOpening = false) :
    openings (log ++ more) = openings log := by
  have none : more.countP Call.isOpening = 0 := List.countP_eq_zero.2 fun call hm => by simp [h call hm]
  unfold openings
  rw [List.countP_append, none, Nat.add_zero]

theorem isOpening_of_sent {sent : List (Frame × Except FeedError Unit)} :
    ∀ call ∈ sent.map fun s => Call.send s.1 s.2, call.isOpening = false := by
  intro call hm
  obtain ⟨s, -, rfl⟩ := List.mem_map.1 hm
  rfl

/-- The symbols for which each kind is subscribed, once a call was made that may change that. -/
def applied (subscribed : EventKind → String → Bool) : Call → EventKind → String → Bool
  | .send (.subscription .subscribe kind (some xs)) (.ok _) => fun k x =>
    subscribed k x || (k = kind && xs.contains x)
  | .send (.subscription .unsubscribe kind (some xs)) (.ok _) => fun k x =>
    subscribed k x && !(k = kind && xs.contains x)
  | _ => subscribed

theorem applied_error (subscribed : EventKind → String → Bool) (frame : Frame) (e : FeedError) :
    applied subscribed (.send frame (.error e)) = subscribed := by
  rcases frame with ⟨_ | _, _, _ | _⟩ | _ <;> rfl

theorem applied_subscribe {subscribed : EventKind → String → Bool} {kind k : EventKind}
    {xs : List String} {x : String} :
    applied subscribed (.send (.subscribe kind xs) (.ok ⟨⟩)) k x = true ↔
      subscribed k x = true ∨ k = kind ∧ kind.isAccount = false ∧ x ∈ xs := by
  unfold Frame.subscribe Frame.request
  cases ha : kind.isAccount with
  | true => simp [applied]
  | false => simp [applied]

theorem applied_unsubscribe {subscribed : EventKind → String → Bool} {kind k : EventKind}
    {xs : List String} {x : String} :
    applied subscribed (.send (.unsubscribe kind xs) (.ok ⟨⟩)) k x = true ↔
      subscribed k x = true ∧ (k = kind → kind.isAccount = false → x ∉ xs) := by
  unfold Frame.unsubscribe Frame.request
  cases ha : kind.isAccount with
  | true => simp [applied]
  | false => simp [applied, Decidable.imp_iff_not_or]

/-- The symbols for which each kind is subscribed on the other side, by the frames that were
accepted since the latest opening. -/
def upstream (log : List Call) : EventKind → String → Bool :=
  (current log).foldl applied fun _ _ => false

theorem upstream_snoc (log : List Call) (call : Call) :
    upstream (log ++ [call]) =
      if call.isOpening then fun _ _ => false else applied (upstream log) call := by
  unfold upstream
  rw [current_snoc]
  by_cases h : call.isOpening = true
  · rw [if_pos h, if_pos h]
    rfl
  · rw [if_neg h, if_neg h, List.foldl_append]
    rfl

theorem current_append {log more : List Call} (h : ∀ call ∈ more, call.isOpening = false) :
    current (log ++ more) = current log ++ more := by
  induction more generalizing log with
  | nil => rw [List.append_nil, List.append_nil]
  | cons call more ih =>
    rw [← List.singleton_append, ← List.append_assoc, ih fun c hc => h c (List.mem_cons_of_mem _ hc),
      current_snoc, h call List.mem_cons_self, if_neg Bool.false_ne_true, List.append_assoc]

def carries (log : List Call) (kind : EventKind) : Bool := (current log).any (·.subscribes kind)

theorem carries_of_mem {log : List Call} {kind : EventKind} {xs : List String}
    (h : .send (.subscribe kind xs) (.ok ⟨⟩) ∈ current log) : carries log kind = true :=
  List.any_eq_true.2 ⟨_, h, decide_eq_true rfl⟩

theorem carries_snoc (log : List Call) (call : Call) (kind : EventKind) :
    carries (log ++ [call]) kind =
      (!call.isOpening && (carries log kind || call.subscribes kind)) := by
  unfold carries
  rw [current_snoc]
  cases call.isOpening with
  | true => rfl
  | false => simp [List.any_append]

theorem carries_append {log more : List Call} (h : ∀ call ∈ more, call.isOpening = false)
    (kind : EventKind) :
    carries (log ++ more) kind = (carries log kind || more.any (·.subscribes kind)) := by
  unfold carries
  rw [current_append h, List.any_append]

theorem mem_of_subscribes {sent : List (Frame × Except FeedError Unit)} {kind : EventKind}
    (h : (sent.map fun s => Call.send s.1 s.2).any (·.subscribes kind) = true) :
    ∃ xs, .subscription .subscribe kind xs ∈ sent.map Prod.fst := by
  obtain ⟨call, hm, hk⟩ := List.any_eq_true.1 h
  obtain ⟨s, hs, rfl⟩ := List.mem_map.1 hm
  obtain ⟨xs, r, he⟩ := Call.sent_of_subscribes hk
  exact ⟨xs, List.mem_map.2 ⟨s, hs, (Call.send.inj he).1⟩⟩

theorem current_subset (log : List Call) : current log ⊆ log := by
  induction log using List.reverseRecOn with
  | nil => exact List.Subset.refl _
  | append_singleton log call ih =>
    rw [current_snoc]
    by_cases h : call.isOpening = true
    · rw [if_pos h]
      exact List.nil_subset _
    · rw [if_neg h]
      exact List.append_subset.2
        ⟨fun c hc => List.mem_append_left _ (ih hc), fun c hc => List.mem_append_right _ hc⟩

theorem opened_of_isUp {log : List Call} (h : isUp log = true) :
    ∃ before held target after, log = before ++ .connect held target (.ok ()) :: after ∧
      .disconnect ∉ after := by
  induction log using List.reverseRecOn with
  | nil => cases h
  | append_singleton log call ih =>
    rw [isUp_snoc] at h
    by_cases ho : call.isOpening = true
    · obtain ⟨held, target, rfl⟩ : ∃ held target, call = .connect held target (.ok ()) := by
        unfold Call.isOpening at ho
        split at ho
        · exact ⟨_, _, rfl⟩
        · cases ho
      exact ⟨log, held, target, [], rfl, List.not_mem_nil⟩
    · have hu : isUp log = true ∧ call.isDisconnect = false := by simpa [ho] using h
      obtain ⟨before, held, target, rest, rfl, hd⟩ := ih hu.1
      refine ⟨before, held, target, rest ++ [call], by simp, fun hm => ?_⟩
      rcases List.mem_append.1 hm with hm | hm
      · exact hd hm
      · rw [← List.mem_singleton.1 hm] at hu
        cases hu.2

theorem closed_of_not_isUp {before after : List Call} {opening : Call}
    (ho : opening.isOpening = true) (h : isUp (before ++ opening :: after) = false) :
    .disconnect ∈ after := by
  induction after using List.reverseRecOn with
  | nil =>
    rw [isUp_snoc, ho] at h
    cases h
  | append_singleton after call ih =>
    rw [← List.cons_append, ← List.append_assoc, isUp_snoc] at h
    by_cases hd : call.isDisconnect = true
    · obtain rfl : call = .disconnect := by cases call <;> first | rfl | cases hd
      exact List.mem_append_right _ List.mem_cons_self
    · have hu : isUp (before ++ opening :: after) = false := by
        simp only [hd, Bool.not_false, Bool.and_true, Bool.or_eq_false_iff] at h
        exact h.2
      exact List.mem_append_left _ (ih hu)

theorem mem_of_open {call : Call} (hc : call ≠ .disconnect) : ∀ {closed since earlier rest : List Call},
    closed ++ .disconnect :: since = earlier ++ call :: rest → .disconnect ∉ rest → call ∈ since
  | [], _, [], _, h, _ => absurd (List.cons.inj h).1.symm hc
  | [], _, _ :: _, _, h, _ => (List.cons.inj h).2 ▸ List.mem_append_right _ List.mem_cons_self
  | _ :: _, _, [], _, h, hd =>
    absurd ((List.cons.inj h).2 ▸ List.mem_append_right _ List.mem_cons_self) hd
  | _ :: _, _, _ :: _, _, h, hd => mem_of_open hc (List.cons.inj h).2 hd

end Log

end MarketFeed
