import Mathlib
import MarketFeed.Proofs.Carriage
import MarketFeed.Proofs.Upstream

/-!
# A subscription and a removal at once

A subscription writes the registry, sends its frame and writes the registry again; a removal writes
the registry, looks at it and then sends its frames. Both may run at once, each with its own moves in
order. A schedule lists all of them as they take place.
-/

namespace MarketFeed

inductive Move where
  | add
  | subscribe
  | activate
  | strike
  | look
  | unsubscribe (kind : EventKind)
  deriving DecidableEq, Repr

def Move.ofSubscription : Move → Bool
  | add | subscribe | activate => true
  | strike | look | unsubscribe _ => false

/-- What both write, and what the removal remembers: the symbols that it took out, and the kinds that
it found. -/
structure Race where
  registry : Registry
  calls : List Call := []
  removed : List String := []
  kinds : List EventKind := []

namespace Race

variable (kind : EventKind) (xs ys : List String)

/-- Symbols are subscribed for a kind while others are removed; all frames are accepted. -/
def take (s : Race) : Move → Race
  | .add => { s with registry := (s.registry.addSymbols xs).2 }
  | .subscribe => { s with calls := s.calls ++ [.send (.subscribe kind xs) (.ok ())] }
  | .activate => { s with registry := s.registry.activate kind }
  | .strike =>
    let (removed, registry) := s.registry.removeSymbols ys
    { s with removed, registry }
  | .look => { s with kinds := s.registry.activeMarketKinds }
  | .unsubscribe k => { s with calls := s.calls ++ [.send (.unsubscribe k s.removed) (.ok ())] }

def run (s : Race) (moves : List Move) : Race := moves.foldl (take kind xs ys) s

def removal (s : Race) : List Move :=
  .strike :: if s.removed = [] then [] else .look :: s.kinds.map .unsubscribe

def Interleaved (s : Race) (schedule : List Move) : Prop :=
  schedule.filter Move.ofSubscription = [.add, .subscribe, .activate] ∧
    schedule.filter (!·.ofSubscription) = removal (run kind xs ys s schedule)

instance (s : Race) (schedule : List Move) : Decidable (Interleaved kind xs ys s schedule) :=
  inferInstanceAs (Decidable (_ ∧ _))

def Registered (s : Race) : Prop :=
  ∀ k x, Log.upstream s.calls k x = true → s.registry.active k = true ∧ x ∈ s.registry.symbols

/-! ## Moves -/

section
variable {kind} {xs ys} {s : Race} {m : Move} {k : EventKind} {x : String}

theorem take_active : (s.take kind xs ys m).registry.active k = true ↔
    s.registry.active k = true ∨ k = kind ∧ .activate = m := by
  cases m with
  | activate =>
    show (if k = kind then true else s.registry.active k) = true ↔ _
    by_cases hk : k = kind <;> simp [hk]
  | _ => simp [take, Registry.addSymbols, Registry.removeSymbols]

theorem take_symbols (hm : .strike ≠ m) : x ∈ (s.take kind xs ys m).registry.symbols ↔
    x ∈ s.registry.symbols ∨ .add = m ∧ x ∈ xs ∧ x ≠ "" := by
  cases m with
  | add =>
    refine TextSet.mem_addAll.trans ?_
    simp
  | strike => exact absurd rfl hm
  | _ => simp [take, Registry.activate]

theorem take_upstream (hm : .subscribe ≠ m) :
    Log.upstream (s.take kind xs ys m).calls k x = true ↔
      Log.upstream s.calls k x = true ∧
        (.unsubscribe k = m → k.isAccount = false → x ∉ s.removed) := by
  cases m with
  | subscribe => exact absurd rfl hm
  | unsubscribe k' =>
    show Log.upstream (s.calls ++ [_]) k x = true ↔ _
    rw [Log.upstream_snoc, if_neg nofun, Log.applied_unsubscribe, Move.unsubscribe.injEq]
    apply and_congr_right
    rintro -
    constructor
    · rintro h rfl
      exact h rfl
    · rintro h rfl
      exact h rfl
  | _ => simp [take]

end

section
variable {kind} {xs ys} {s : Race} {moves : List Move}

theorem run_append (first rest : List Move) :
    run kind xs ys s (first ++ rest) = run kind xs ys (run kind xs ys s first) rest :=
  List.foldl_append

theorem run_snoc (m : Move) :
    run kind xs ys s (moves ++ [m]) = (run kind xs ys s moves).take kind xs ys m :=
  run_append moves [m]

theorem run_keeps {α : Type} {f : Race → α}
    (h : ∀ m ∈ moves, ∀ s : Race, f (s.take kind xs ys m) = f s) :
    f (run kind xs ys s moves) = f s := by
  induction moves using List.reverseRecOn with
  | nil => rfl
  | append_singleton moves m ih =>
    rw [run_snoc, h m (List.mem_append_right _ List.mem_cons_self)]
    exact ih fun m hm => h m (List.mem_append_left _ hm)

theorem run_removed (hm : .strike ∉ moves) : (run kind xs ys s moves).removed = s.removed := by
  apply run_keeps
  intro m h s
  cases m with
  | strike => exact absurd h hm
  | _ => rfl

theorem run_kinds (hm : .look ∉ moves) : (run kind xs ys s moves).kinds = s.kinds := by
  apply run_keeps
  intro m h s
  cases m with
  | look => exact absurd h hm
  | _ => rfl

theorem run_active (k : EventKind) : (run kind xs ys s moves).registry.active k = true ↔
    s.registry.active k = true ∨ k = kind ∧ .activate ∈ moves := by
  induction moves using List.reverseRecOn with
  | nil => simp [run]
  | append_singleton moves m ih =>
    rw [run_snoc, take_active, ih, List.mem_append, List.mem_singleton, or_assoc, ← and_or_left]

theorem run_symbols (hm : .strike ∉ moves) {x : String} :
    x ∈ (run kind xs ys s moves).registry.symbols ↔
      x ∈ s.registry.symbols ∨ .add ∈ moves ∧ x ∈ xs ∧ x ≠ "" := by
  induction moves using List.reverseRecOn with
  | nil => simp [run]
  | append_singleton moves m ih =>
    simp only [List.mem_append, List.mem_singleton, not_or] at hm ⊢
    rw [run_snoc, take_symbols hm.2, ih hm.1, or_assoc, ← or_and_right]

theorem run_upstream (hs : .subscribe ∉ moves)
    (ho : ∀ k, ¬ [.unsubscribe k, .strike].Sublist moves) {k : EventKind} {x : String} :
    Log.upstream (run kind xs ys s moves).calls k x = true ↔
      Log.upstream s.calls k x = true ∧ (.unsubscribe k ∈ moves → k.isAccount = false →
        x ∉ (run kind xs ys s moves).removed) := by
  induction moves using List.reverseRecOn with
  | nil => simp [run]
  | append_singleton moves m ih =>
    simp only [List.mem_append, List.mem_singleton, not_or] at hs ⊢
    have ih := ih hs.1 fun k h => ho k (h.trans (List.sublist_append_left _ _))
    rw [run_snoc, take_upstream hs.2, ih]
    by_cases hm : m = .strike
    · -- Nothing was unsubscribed before, so what is removed now does not matter.
      subst hm
      have none : Move.unsubscribe k ∉ moves := fun h =>
        ho k ((List.singleton_sublist.2 h).append (.refl [Move.strike]))
      simp [none]
    · have same : ((run kind xs ys s moves).take kind xs ys m).removed =
          (run kind xs ys s moves).removed := by
        cases m with
        | strike => exact absurd rfl hm
        | _ => rfl
      rw [same, and_assoc, or_imp]

end

/-! ## Operations -/

section
variable {τ : Type} (w : World τ) {kind} {xs ys}

theorem subscribe_runs {session : Session} {symbols : List String} {handler : Handler} {c : Client τ}
    (hc : (Client.isConnected w c).1 = true)
    (h : (Client.subscribe w kind session symbols handler c).1 = .ok ()) :
    ∃ xs, Client.subscriptionSymbols kind symbols = .ok xs ∧
      let start : Race := ⟨c.dispatcher.registry.setHandler kind (some handler), c.calls, [], []⟩
      let last := run kind xs ys start [.add, .subscribe, .activate]
      (Client.subscribe w kind session symbols handler c).2.dispatcher.registry = last.registry ∧
        (Client.subscribe w kind session symbols handler c).2.calls = last.calls := by
  obtain ⟨-, xs, ready, hx, hr, calls, registry⟩ := Client.subscribe_course w h
  have connected :
      (Client.isConnected w (Client.prepareSubscription kind session xs handler c).2).1 = true := by
    rw [Client.isConnected_iff] at hc ⊢
    exact hc
  obtain ⟨s, hs⟩ := Client.isConnected_world w (Client.prepareSubscription kind session xs handler c).2
  rw [Client.ensureConnected_apply, if_pos connected, hs] at hr
  obtain ⟨-, rfl⟩ := Prod.mk.inj hr
  exact ⟨xs, hx, registry, calls⟩

theorem run_unsubscribe (kinds : List EventKind) (s : Race) :
    run kind xs ys s (kinds.map .unsubscribe) =
      { s with calls := s.calls ++ kinds.map fun k => .send (.unsubscribe k s.removed) (.ok ()) } := by
  induction kinds generalizing s with
  | nil => simp [run]
  | cons k kinds ih =>
    refine (ih (s.take kind xs ys (.unsubscribe k))).trans ?_
    simp [take]

theorem sendAll_unrefused {kinds : List EventKind} {c : Client τ}
    (h : Client.Unrefused .unsubscribe
      (Client.sendAll w (kinds.map fun k => .unsubscribe k xs) c).2) :
    (Client.sendAll w (kinds.map fun k => .unsubscribe k xs) c).2.calls =
      c.calls ++ kinds.map fun k => .send (.unsubscribe k xs) (.ok ()) := by
  induction kinds generalizing c with
  | nil => exact (List.append_nil _).symm
  | cons k kinds ih =>
    have rest := ih (c := (Client.sendReported w (.unsubscribe k xs) c).2) h
    have first := h.of_grows (c := (Client.sendReported w (.unsubscribe k xs) c).2) ⟨_, rest.symm⟩
    have sent : (Client.sendReported w (.unsubscribe k xs) c).2.calls =
        c.calls ++ [.send (.unsubscribe k xs) (w.send (.unsubscribe k xs) c.world).1] := by
      rw [Client.sendReported_apply]
    have accepted := Client.accepted_of_unrefused
      (first _ (by rw [sent]; exact List.mem_append_right _ List.mem_cons_self))
    refine rest.trans ?_
    rw [sent, accepted, List.map_cons, List.append_assoc]
    rfl

theorem removeSymbols_runs {c : Client τ} (hc : (Client.isConnected w c).1 = true)
    (hu : Client.Unrefused .unsubscribe (Client.removeSymbols w ys c).2) :
    let start : Race := ⟨c.dispatcher.registry, c.calls, [], []⟩
    ∃ moves, moves = removal (run kind xs ys start moves) ∧
      (Client.removeSymbols w ys c).1 = (run kind xs ys start moves).removed ∧
      (Client.removeSymbols w ys c).2.dispatcher.registry = (run kind xs ys start moves).registry ∧
      (Client.removeSymbols w ys c).2.calls = (run kind xs ys start moves).calls := by
  intro start
  let struck := start.take kind xs ys .strike
  let c' : Client τ := (Client.sampleSymbols (Client.withRegistry (·.removeSymbols ys) c).2).2
  have connected : (Client.isConnected w c').1 = true := by
    rw [Client.isConnected_iff] at hc ⊢
    exact hc
  have result : (Client.removeSymbols w ys c).2 =
      (Client.sendForMarketKinds w struck.removed .unsubscribe c').2 := rfl
  have registry : (Client.removeSymbols w ys c).2.dispatcher.registry = struck.registry :=
    Client.removeSymbols_registry w ys c
  rw [result, Client.sendForMarketKinds_apply] at hu
  by_cases hr : struck.removed = []
  · refine ⟨[.strike], ?_, rfl, registry, ?_⟩
    · show _ = removal struck
      rw [removal, if_pos hr]
    · rw [result, Client.sendForMarketKinds_apply, if_pos hr]
      rfl
  · rw [if_neg hr, if_pos connected] at hu
    obtain ⟨s, hs⟩ := Client.isConnected_world w c'
    let kinds := struck.registry.activeMarketKinds
    have last : run kind xs ys start (.strike :: .look :: kinds.map .unsubscribe) =
        { struck.take kind xs ys .look with
          calls := struck.calls ++ kinds.map fun k => .send (.unsubscribe k struck.removed) (.ok ()) } :=
      run_unsubscribe kinds (struck.take kind xs ys .look)
    refine ⟨.strike :: .look :: kinds.map .unsubscribe, ?_, ?_⟩
    · rw [last, removal]
      exact congrArg (Move.strike :: ·) (if_neg hr).symm
    · rw [last, result, Client.sendForMarketKinds_apply, if_neg hr, if_pos connected,
        sendAll_unrefused w hu, hs]
      exact ⟨rfl, by rw [Client.sendAll_registry]; rfl, rfl⟩

end

/-! ## Schedules -/

section
variable {a b : Move} {l p q : List Move}

theorem split_of_count_eq_one (h : l.count a = 1) : ∃ p q, l = p ++ a :: q ∧ a ∉ p ∧ a ∉ q := by
  have hm : a ∈ l := List.count_pos_iff.1 (by omega)
  obtain ⟨p, q, rfl⟩ := List.append_of_mem hm
  rw [List.count_append, List.count_cons_self] at h
  exact ⟨p, q, rfl, List.count_eq_zero.1 (by omega), List.count_eq_zero.1 (by omega)⟩

theorem pair_sublist_iff (hp : a ∉ p) (hq : a ∉ q) : [a, b].Sublist (p ++ a :: q) ↔ b ∈ q := by
  constructor
  · intro h
    obtain ⟨u, v, he, hu, hv⟩ := List.sublist_append_iff.1 h
    cases u with
    | nil =>
      rw [List.nil_append] at he
      subst he
      cases hv with
      | cons _ hv => exact absurd (hv.subset List.mem_cons_self) hq
      | cons_cons _ hv => exact List.singleton_sublist.1 hv
    | cons c u =>
      obtain rfl : a = c := (List.cons.inj he).1
      exact absurd (hu.subset List.mem_cons_self) hp
  · intro h
    exact ((List.singleton_sublist.2 h).cons_cons a).trans (List.sublist_append_right p _)

theorem pair_sublist_iff_mem_left (hp : b ∉ p) (hq : b ∉ q) :
    [a, b].Sublist (p ++ b :: q) ↔ a ∈ p := by
  have turned : [b, a].Sublist (q.reverse ++ b :: p.reverse) ↔ a ∈ p.reverse :=
    pair_sublist_iff (by simpa using hq) (by simpa using hp)
  rw [← List.reverse_sublist]
  simpa using turned

theorem pair_sublist_trans {c : Move} (hb : l.count b = 1) (hab : [a, b].Sublist l)
    (hbc : [b, c].Sublist l) : [a, c].Sublist l := by
  obtain ⟨p, q, rfl, hp, hq⟩ := split_of_count_eq_one hb
  rw [pair_sublist_iff_mem_left hp hq] at hab
  rw [pair_sublist_iff hp hq] at hbc
  exact (List.singleton_sublist.2 hab).append ((List.singleton_sublist.2 hbc).cons b)

end

section
variable {kind} {xs ys} {r : Registry} {schedule : List Move}

theorem Interleaved.count_subscribing {s : Race} (h : Interleaved kind xs ys s schedule) {m : Move}
    (hm : m ∈ [Move.add, .subscribe, .activate]) : schedule.count m = 1 := by
  have own : m.ofSubscription = true := by
    rw [← h.1] at hm
    exact (List.mem_filter.1 hm).2
  have once : [Move.add, .subscribe, .activate].Nodup := by decide
  rw [← List.count_filter own, h.1]
  exact List.count_eq_one_of_mem once hm

theorem Interleaved.mem {s : Race} (h : Interleaved kind xs ys s schedule) {m : Move}
    (hm : m ∈ [Move.add, .subscribe, .activate]) : m ∈ schedule := by
  rw [← h.1] at hm
  exact List.mem_of_mem_filter hm

theorem strike_not_mem (s : Race) :
    .strike ∉ if s.removed = [] then [] else Move.look :: s.kinds.map .unsubscribe := by
  split <;> simp

theorem Interleaved.count_strike {s : Race} (h : Interleaved kind xs ys s schedule) :
    schedule.count .strike = 1 := by
  have own : (!Move.strike.ofSubscription) = true := rfl
  rw [← List.count_filter (p := (!·.ofSubscription)) own, h.2, removal, List.count_cons_self,
    List.count_eq_zero.2 (strike_not_mem _)]

theorem Interleaved.strike_first {s : Race} (h : Interleaved kind xs ys s schedule) (k : EventKind) :
    ¬ [.unsubscribe k, .strike].Sublist schedule := by
  intro hs
  have hs := hs.filter (!·.ofSubscription)
  rw [h.2] at hs
  cases hs with
  | cons _ hs => exact strike_not_mem _ (hs.subset (by simp [Move.ofSubscription]))

theorem Interleaved.symbols_iff {s : Race} (h : Interleaved kind xs ys s schedule) {x : String}
    (hx : x ∈ xs) (hn : x ≠ "") :
    x ∈ (run kind xs ys s schedule).registry.symbols ↔ x ∉ ys ∨ [.strike, .add].Sublist schedule := by
  have added : Move.add ∈ schedule := h.mem (by simp)
  obtain ⟨p, q, rfl, hp, hq⟩ := split_of_count_eq_one h.count_strike
  have struck : x ∈ ((run kind xs ys s p).take kind xs ys .strike).registry.symbols ↔
      x ∈ (run kind xs ys s p).registry.symbols ∧ x ∉ ys := TextSet.mem_removeAll
  rw [pair_sublist_iff hp hq, run_append]
  refine (run_symbols (s := (run kind xs ys s p).take kind xs ys .strike) hq).trans ?_
  rw [struck, run_symbols hp]
  simp only [List.mem_append, List.mem_cons, reduceCtorEq, false_or] at added
  tauto

theorem Interleaved.mem_removed {s : Race} (h : Interleaved kind xs ys s schedule) {x : String}
    (hx : x ∈ xs) (hn : x ≠ "") (hy : x ∈ ys) (ha : ¬ [.strike, .add].Sublist schedule) :
    x ∈ (run kind xs ys s schedule).removed := by
  have added : Move.add ∈ schedule := h.mem (by simp)
  obtain ⟨p, q, rfl, hp, hq⟩ := split_of_count_eq_one h.count_strike
  rw [pair_sublist_iff hp hq] at ha
  simp only [List.mem_append, List.mem_cons, reduceCtorEq, ha, or_false] at added
  have listed : x ∈ (run kind xs ys s p).registry.symbols := (run_symbols hp).2 (.inr ⟨added, hx, hn⟩)
  rw [run_append]
  show x ∈ (run kind xs ys ((run kind xs ys s p).take kind xs ys .strike) q).removed
  rw [run_removed hq]
  exact TextSet.mem_removed.2 ⟨listed, fun hm => (TextSet.mem_removeAll.1 hm).2 hy⟩

theorem Interleaved.upstream_iff (h : Interleaved kind xs ys { registry := r } schedule)
    (k : EventKind) (x : String) :
    Log.upstream (run kind xs ys { registry := r } schedule).calls k x = true ↔
      k = kind ∧ kind.isAccount = false ∧ x ∈ xs ∧
        ([.subscribe, .unsubscribe kind].Sublist schedule →
          x ∉ (run kind xs ys { registry := r } schedule).removed) := by
  have first := h.strike_first
  obtain ⟨p, q, rfl, hp, hq⟩ :=
    split_of_count_eq_one (h.count_subscribing (m := .subscribe) (by decide))
  rw [pair_sublist_iff hp hq, run_append]
  let s := (run kind xs ys { registry := r } p).take kind xs ys .subscribe
  show Log.upstream (run kind xs ys s q).calls k x = true ↔
    _ ∧ _ ∧ _ ∧ (_ → x ∉ (run kind xs ys s q).removed)
  have before : ¬ Log.upstream (run kind xs ys { registry := r } p).calls k x = true := by
    rw [run_upstream hp fun k hs => first k (hs.trans (List.sublist_append_left _ _))]
    rintro ⟨hu, -⟩
    cases hu
  have sent : Log.upstream s.calls k x = true ↔ k = kind ∧ kind.isAccount = false ∧ x ∈ xs := by
    show Log.upstream ((run kind xs ys { registry := r } p).calls ++ [_]) k x = true ↔ _
    rw [Log.upstream_snoc, if_neg nofun, Log.applied_subscribe, or_iff_right before]
  rw [run_upstream hq fun k hs => first k (hs.trans (.trans (.cons _ (.refl q))
    (List.sublist_append_right _ _))), sent]
  constructor
  · rintro ⟨⟨rfl, ha, hx⟩, hu⟩
    exact ⟨rfl, ha, hx, fun hm => hu hm ha⟩
  · rintro ⟨rfl, ha, hx, hu⟩
    exact ⟨⟨rfl, ha, hx⟩, fun hm _ => hu hm⟩

theorem Interleaved.removal_of_look {s : Race} (h : Interleaved kind xs ys s schedule)
    (hl : .look ∈ schedule) : schedule.filter (!·.ofSubscription) =
      .strike :: .look :: (run kind xs ys s schedule).kinds.map .unsubscribe := by
  have hm : Move.look ∈ schedule.filter (!·.ofSubscription) := List.mem_filter.2 ⟨hl, rfl⟩
  rw [h.2, removal] at hm ⊢
  by_cases hr : (run kind xs ys s schedule).removed = []
  · simp [hr] at hm
  · rw [if_neg hr]

/-- A removal that looks after the kind was made active unsubscribes what was subscribed. -/
theorem Interleaved.unsubscribed {s : Race} (h : Interleaved kind xs ys s schedule)
    (hk : kind.isAccount = false) (hl : [.activate, .look].Sublist schedule) :
    [.subscribe, .unsubscribe kind].Sublist schedule := by
  have moves := h.removal_of_look (hl.subset (by simp))
  have once : schedule.count .look = 1 := by
    have own : (!Move.look.ofSubscription) = true := rfl
    rw [← List.count_filter (p := (!·.ofSubscription)) own, moves]
    simp [List.count_eq_zero]
  have found : kind ∈ (run kind xs ys s schedule).kinds := by
    obtain ⟨p, q, rfl, hp, hq⟩ := split_of_count_eq_one once
    rw [pair_sublist_iff_mem_left hp hq] at hl
    rw [run_append]
    show kind ∈ (run kind xs ys ((run kind xs ys s p).take kind xs ys .look) q).kinds
    rw [run_kinds hq]
    exact Registry.mem_activeMarketKinds.2 ⟨(run_active kind).2 (.inr ⟨rfl, hl⟩), hk⟩
  have looked : [.look, .unsubscribe kind].Sublist schedule := by
    refine .trans ?_ (List.filter_sublist (p := (!·.ofSubscription)))
    rw [moves]
    refine .cons _ (.cons_cons _ (List.singleton_sublist.2 ?_))
    exact List.mem_map_of_mem found
  have subscribed : [.subscribe, .activate].Sublist schedule := by
    refine .trans ?_ (List.filter_sublist (p := Move.ofSubscription))
    rw [h.1]
    exact .cons _ (.refl _)
  -- Subscribed, then made active, then looked for, then unsubscribed.
  have seen := pair_sublist_trans (h.count_subscribing (m := .activate) (by decide)) subscribed hl
  exact pair_sublist_trans once seen looked

theorem market_of_mem {symbols : List String} (h : Client.subscriptionSymbols kind symbols = .ok xs)
    {x : String} (hx : x ∈ xs) : kind.isAccount = false := by
  unfold Client.subscriptionSymbols at h
  cases hk : kind.isAccount with
  | false => rfl
  | true =>
    rw [hk] at h
    cases h
    cases hx

/-- Once both are over, everything that the frames left subscribed is in the registry if and only if
no symbol was both subscribed and removed, or the symbols were removed before they were added, or they
were unsubscribed for the kind after they were subscribed. The last is so if the kind was active before
the removal looked. -/
theorem registered_iff {symbols : List String} (hx : Client.subscriptionSymbols kind symbols = .ok xs)
    (h : Interleaved kind xs ys { registry := r } schedule) :
    (Registered (run kind xs ys { registry := r } schedule) ↔
      (∀ x ∈ xs, x ∉ ys) ∨ [.strike, .add].Sublist schedule ∨
        [.subscribe, .unsubscribe kind].Sublist schedule) ∧
    ([.activate, .look].Sublist schedule →
      Registered (run kind xs ys { registry := r } schedule)) := by
  have named (x : String) : x ∈ xs → x ≠ "" := (Client.subscriptionSymbols_ok hx).1 x
  have activated : Move.activate ∈ schedule := h.mem (by simp)
  have iff : Registered (run kind xs ys { registry := r } schedule) ↔
      (∀ x ∈ xs, x ∉ ys) ∨ [.strike, .add].Sublist schedule ∨
        [.subscribe, .unsubscribe kind].Sublist schedule := by
    constructor
    · intro registered
      by_contra hn
      push Not at hn
      obtain ⟨⟨x, hm, hy⟩, ha, hu⟩ := hn
      have left : Log.upstream (run kind xs ys { registry := r } schedule).calls kind x = true :=
        (h.upstream_iff kind x).2 ⟨rfl, market_of_mem hx hm, hm, fun hs => absurd hs hu⟩
      obtain hy' | ha' := (h.symbols_iff hm (named x hm)).1 (registered kind x left).2
      · exact hy' hy
      · exact ha ha'
    · intro ordered k x hu
      obtain ⟨rfl, -, hm, gone⟩ := (h.upstream_iff k x).1 hu
      refine ⟨(run_active k).2 (.inr ⟨rfl, activated⟩), ?_⟩
      by_contra hl
      rw [h.symbols_iff hm (named x hm), not_or, not_not] at hl
      obtain apart | ha | hs := ordered
      · exact apart x hm hl.1
      · exact hl.2 ha
      · exact gone hs (h.mem_removed hm (named x hm) hl.1 hl.2)
  refine ⟨iff, ?_⟩
  intro hl
  apply iff.2
  by_cases hk : kind.isAccount = false
  · exact .inr (.inr (h.unsubscribed hk hl))
  · exact .inl fun x hm => absurd (market_of_mem hx hm) hk

end

def trading : Registry := ({} : Registry).activate .trade

/-- The removal looks before trades are made active again, but sends its frame last. -/
def unsubscribedLast : List Move :=
  [.add, .strike, .look, .subscribe, .activate, .unsubscribe .trade]

theorem registered_of_unsubscribedLast :
    Client.subscriptionSymbols .trade ["", "SPY"] = .ok ["SPY"] ∧
    Interleaved .trade ["SPY"] ["SPY"] { registry := trading } unsubscribedLast ∧
    Registered (run .trade ["SPY"] ["SPY"] { registry := trading } unsubscribedLast) := by
  have symbols : Client.subscriptionSymbols .trade ["", "SPY"] = .ok ["SPY"] := by decide
  have interleaved : Interleaved .trade ["SPY"] ["SPY"] { registry := trading } unsubscribedLast := by
    decide
  refine ⟨symbols, interleaved, ?_⟩
  exact (registered_iff symbols interleaved).1.2 (.inr (.inr (by decide)))

def LeftOver (r : Registry) (schedule : List Move) : Prop :=
  Interleaved .trade ["SPY"] ["SPY"] { registry := r } schedule ∧
    Log.upstream (run .trade ["SPY"] ["SPY"] { registry := r } schedule).calls .trade "SPY" = true ∧
    "SPY" ∉ (run .trade ["SPY"] ["SPY"] { registry := r } schedule).registry.symbols

/-- The removal does not find the kind that is being subscribed to, or its frame comes before that of
the subscription. -/
theorem subscription_outlives_removal :
    LeftOver {} [.add, .subscribe, .strike, .look, .activate] ∧
    LeftOver trading [.add, .strike, .look, .unsubscribe .trade, .subscribe, .activate] :=
  ⟨⟨by decide, by decide, by decide⟩, by decide, by decide, by decide⟩

end Race

end MarketFeed
