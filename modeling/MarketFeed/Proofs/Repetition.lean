import Mathlib.Data.List.Induction
import MarketFeed.Proofs.Filtering

/-!
# Repeated messages

A message that is handed out while duplicates are held back is remembered at its place, that is for
its kind and symbol. While the rules do not change, holding back duplicates leaves out just the
messages that equal the one handed out before them at their place. When the rules do change, the
memory is that of the messages handed out while duplicates were held back, which need not be the latest.
-/

namespace MarketFeed

structure Handout where
  handler : String
  message : Json
  event : Event

namespace Handout

def place (h : Handout) : EventKind × String :=
  (h.event.kind, Dispatcher.routingSymbol h.message)

def entry (h : Handout) : String × Event := (h.handler, h.event)

def latest? (place : EventKind × String) (past : List Handout) : Option Handout :=
  (past.filter (·.place = place)).getLast?

def repeats (past : List Handout) (place : EventKind × String) (message : Json) : Bool :=
  (latest? place past).any (·.message.same message)

/-- Leaves out every message that equals the one before it at its place, where `past` comes before
the whole list. -/
def unstuttered (past : List Handout) : List Handout → List Handout
  | [] => []
  | h :: rest =>
    if repeats past h.place h.message then unstuttered (past ++ [h]) rest
    else h :: unstuttered (past ++ [h]) rest

theorem latest?_snoc (place : EventKind × String) (past : List Handout) (h : Handout) :
    latest? place (past ++ [h]) = if h.place = place then some h else latest? place past := by
  unfold latest?
  by_cases hp : h.place = place
  · simp [hp]
  · simp [hp]

theorem latest?_isSome {place : EventKind × String} {past : List Handout} :
    (latest? place past).isSome = true ↔ ∃ h ∈ past, h.place = place := by
  simp [latest?]

theorem repeats_iff {past : List Handout} {place : EventKind × String} {message : Json} :
    repeats past place message = true ↔
      ∃ last, latest? place past = some last ∧ last.message.same message = true := by
  unfold repeats
  cases latest? place past <;> simp

theorem unstuttered_snoc (past l : List Handout) (h : Handout) :
    unstuttered past (l ++ [h]) =
      unstuttered past l ++ if repeats (past ++ l) h.place h.message then [] else [h] := by
  induction l generalizing past with
  | nil => simp [unstuttered]
  | cons g l ih =>
    have hp : past ++ g :: l = (past ++ [g]) ++ l := by simp
    simp only [List.cons_append, unstuttered, hp, ih]
    by_cases hr : repeats past g.place g.message = true
    · rw [if_pos hr, if_pos hr]
    · rw [if_neg hr, if_neg hr, List.cons_append]

theorem repeats_unstuttered (l : List Handout) (place : EventKind × String) (message : Json) :
    repeats (unstuttered [] l) place message = repeats l place message := by
  induction l using List.reverseRecOn with
  | nil => rfl
  | append_singleton l h ih =>
    have after : repeats (l ++ [h]) place message =
        if h.place = place then h.message.same message else repeats l place message := by
      unfold repeats
      rw [latest?_snoc]
      by_cases hp : h.place = place <;> simp [hp]
    rw [unstuttered_snoc, List.nil_append, after]
    by_cases hr : repeats l h.place h.message = true
    · rw [if_pos hr, List.append_nil, ih]
      by_cases hp : h.place = place
      · -- What is left out equals what stays, so the same messages repeat either.
        obtain ⟨last, hl, hs⟩ := repeats_iff.1 hr
        rw [if_pos hp, repeats, ← hp, hl]
        exact Json.same_congr hs message
      · rw [if_neg hp]
    · rw [if_neg hr]
      unfold repeats at ih ⊢
      rw [latest?_snoc]
      by_cases hp : h.place = place
      · simp [hp]
      · simpa [hp] using ih

end Handout

namespace Dispatcher

open Handout

/-! ## What a text hands out -/

def handout? (d : Dispatcher) (rules : DispatchRules) (text : String) : Option Handout :=
  match Json.parse? text, (d.dispatch rules text).2.deliveries.drop d.deliveries.length with
  | some message, (handler, event) :: _ => some { handler, message, event }
  | _, _ => none

section
variable {d : Dispatcher} {rules : DispatchRules} {text : String}

theorem Fate.handout? {v : Verdict} {handed : Option (String × Event)}
    (f : Fate d rules text v handed) : d.handout? rules text =
      (Json.parse? text).bind fun message =>
        handed.map fun entry => ⟨entry.1, message, entry.2⟩ := by
  unfold Dispatcher.handout?
  rw [f.dispatch.2, List.drop_left]
  cases Json.parse? text <;> cases handed <;> rfl

theorem handout?_eq_some {h : Handout} : d.handout? rules text = some h ↔
    ∃ kind message handler, Json.IsMessage text kind message ∧
      d.registry.Admits rules.validExchanges kind message handler ∧
      ¬ d.Repeats rules kind message ∧ h = ⟨handler.id, message, .ofMessage message kind⟩ := by
  constructor
  · intro hs
    obtain ⟨v, handed, f⟩ := exists_fate d rules text
    rw [f.handout?] at hs
    cases f with
    | delivered h ha hr hd =>
      rw [h.1] at hs
      exact ⟨_, _, _, h, ha, hr, (Option.some.inj hs).symm⟩
    | handlerFailed h ha hr hd =>
      rw [h.1] at hs
      exact ⟨_, _, _, h, ha, hr, (Option.some.inj hs).symm⟩
    | _ => simp at hs
  · rintro ⟨kind, message, handler, h, ha, hr, rfl⟩
    by_cases hd : handler.reply d.deliveries.length (.ofMessage message kind) = .done
    · rw [(Fate.delivered h ha hr hd).handout?, h.1]
      rfl
    · rw [(Fate.handlerFailed h ha hr hd).handout?, h.1]
      rfl

theorem dispatch_deliveries (d : Dispatcher) (rules : DispatchRules) (text : String) :
    (d.dispatch rules text).2.deliveries =
      d.deliveries ++ ((d.handout? rules text).map entry).toList := by
  obtain ⟨v, handed, f⟩ := exists_fate d rules text
  rw [f.dispatch.2, f.handout?]
  cases f with
  | delivered h => simp [h.1, entry]
  | handlerFailed h => simp [h.1, entry]
  | _ => simp

theorem noting_memory {kind : EventKind} {message : Json} : (d.noting rules kind message).memory =
    if rules.filterDuplicates then d.memory.remember kind (routingSymbol message) message
    else d.memory := by
  unfold noting
  split <;> rfl

theorem dispatch_memory (d : Dispatcher) (rules : DispatchRules) (text : String) :
    (d.dispatch rules text).2.memory = (d.handout? rules text).elim d.memory fun h =>
      if rules.filterDuplicates then d.memory.remember h.place.1 h.place.2 h.message
      else d.memory := by
  obtain ⟨v, handed, f⟩ := exists_fate d rules text
  rw [f.handout?]
  cases f with
  | malformed h => rw [dispatch_malformed h, h]; rfl
  | untyped h ht => rw [dispatch_untyped h ht, h]; rfl
  | unknownType h ht hn => rw [dispatch_unknownType h ht hn, h]; rfl
  | filteredSymbol h hs => rw [dispatch_filteredSymbol h hs, h.1]; rfl
  | filteredExchange h hs he => rw [dispatch_filteredExchange h hs he, h.1]; rfl
  | noHandler h hs he hh => rw [dispatch_noHandler h hs he hh, h.1]; rfl
  | duplicate h ha hr => rw [dispatch_duplicate h ha hr, h.1]; rfl
  | delivered h ha hr hd =>
    rw [dispatch_delivered h ha hr hd, h.1]
    simp only [Option.bind_some, Option.map_some, Option.elim_some, place, Event.kind_ofMessage]
    exact noting_memory
  | handlerFailed h ha hr hd =>
    obtain ⟨detail, hf⟩ := Option.ne_none_iff_exists'.1 fun h => hd (Reply.failure?_eq_none.1 h)
    rw [dispatch_handlerFailed h ha hr hf, h.1]
    simp only [Option.bind_some, Option.map_some, Option.elim_some, place, Event.kind_ofMessage]
    exact noting_memory

end

/-! ## Progress -/

structure Progress where
  rules : DispatchRules
  dispatcher : Dispatcher
  recent : List Handout := []
  /-- Those that were handed out while duplicates were held back. -/
  watched : List Handout := []

def Progress.take (p : Progress) (turn : Turn) : Progress :=
  let (_, rules, dispatcher) := p.dispatcher.take p.rules turn
  match turn with
  | .text text =>
    let handed := (p.dispatcher.handout? p.rules text).toList
    { rules, dispatcher
      recent := p.recent ++ handed
      watched := if p.rules.filterDuplicates then p.watched ++ handed else p.watched }
  | .resetDuplicates => { rules, dispatcher }
  | _ => { p with rules, dispatcher }

def progress (d : Dispatcher) (rules : DispatchRules) (turns : List Turn) : Progress :=
  turns.foldl Progress.take { rules, dispatcher := d.resetDuplicates }

theorem progress_snoc (d : Dispatcher) (rules : DispatchRules) (turns : List Turn) (turn : Turn) :
    d.progress rules (turns ++ [turn]) = (d.progress rules turns).take turn := by
  unfold progress
  rw [List.foldl_append]
  rfl

theorem progress_dispatcher (d : Dispatcher) (rules : DispatchRules) (turns : List Turn) :
    (d.progress rules turns).dispatcher = (d.resetDuplicates.run rules turns).2 := by
  have along : ∀ p : Progress,
      (turns.foldl Progress.take p).dispatcher = (p.dispatcher.run p.rules turns).2 := by
    induction turns with
    | nil => intro p; rfl
    | cons turn rest ih =>
      intro p
      rw [List.foldl_cons, ih]
      cases turn <;> rfl
  exact along _

theorem remember_snoc {memory : Memory} {past : List Handout}
    (h : ∀ kind symbol, memory kind symbol = (latest? (kind, symbol) past).map Handout.message)
    (handed : Handout) (kind : EventKind) (symbol : String) :
    memory.remember handed.place.1 handed.place.2 handed.message kind symbol =
      (latest? (kind, symbol) (past ++ [handed])).map Handout.message := by
  rw [latest?_snoc]
  by_cases hp : handed.place = (kind, symbol)
  · simp [hp, Memory.remember]
  · have other : ¬ (kind = handed.place.1 ∧ symbol = handed.place.2) := by
      rintro ⟨hk, hs⟩
      apply hp
      rw [hk, hs]
    simp only [if_neg hp, Memory.remember, if_neg other]
    exact h kind symbol

structure Progress.Tracked (p : Progress) : Prop where
  memory : ∀ kind symbol, p.dispatcher.memory kind symbol =
    (latest? (kind, symbol) p.watched).map Handout.message
  watched : p.watched.Sublist p.recent

theorem Progress.Tracked.take {p : Progress} (h : p.Tracked) (turn : Turn) :
    (p.take turn).Tracked := by
  cases turn with
  | text text =>
    have memory : (p.take (.text text)).dispatcher.memory =
        (p.dispatcher.dispatch p.rules text).2.memory := rfl
    rw [dispatch_memory] at memory
    cases hh : p.dispatcher.handout? p.rules text with
    | none =>
      have watched : (p.take (.text text)).watched = p.watched := by simp [Progress.take, hh]
      have recent : (p.take (.text text)).recent = p.recent := by simp [Progress.take, hh]
      rw [hh, Option.elim_none] at memory
      constructor
      · rw [memory, watched]
        exact h.memory
      · rw [watched, recent]
        exact h.watched
    | some handed =>
      have recent : (p.take (.text text)).recent = p.recent ++ [handed] := by
        simp [Progress.take, hh]
      rw [hh, Option.elim_some] at memory
      by_cases hf : p.rules.filterDuplicates = true
      · have watched : (p.take (.text text)).watched = p.watched ++ [handed] := by
          simp [Progress.take, hh, hf]
        rw [if_pos hf] at memory
        constructor
        · rw [memory, watched]
          exact remember_snoc h.memory handed
        · rw [watched, recent]
          exact h.watched.append (List.Sublist.refl _)
      · have watched : (p.take (.text text)).watched = p.watched := by simp [Progress.take, hf]
        rw [if_neg hf] at memory
        constructor
        · rw [memory, watched]
          exact h.memory
        · rw [watched, recent]
          exact h.watched.trans (List.sublist_append_left _ _)
  | resetDuplicates => exact ⟨fun _ _ => rfl, List.Sublist.refl _⟩
  | arrange f => exact ⟨h.memory, h.watched⟩
  | configure rules => exact ⟨h.memory, h.watched⟩
  | listen listener => exact ⟨h.memory, h.watched⟩

theorem progress_tracked (d : Dispatcher) (rules : DispatchRules) (turns : List Turn) :
    (d.progress rules turns).Tracked := by
  induction turns using List.reverseRecOn with
  | nil => exact ⟨fun _ _ => rfl, List.Sublist.refl _⟩
  | append_singleton turns turn ih =>
    rw [progress_snoc]
    exact ih.take turn

theorem Progress.Tracked.repeats {p : Progress} (h : p.Tracked) (place : EventKind × String)
    (message : Json) : p.dispatcher.memory.repeats place.1 place.2 message =
      Handout.repeats p.watched place message := by
  unfold Memory.repeats Handout.repeats
  rw [h.memory]
  cases latest? (place.1, place.2) p.watched <;> rfl

/-! ## Rules that stay as they are -/

theorem progress_texts (d : Dispatcher) (rules : DispatchRules) (texts : List String) :
    let p := d.progress rules (texts.map .text)
    p.rules = rules ∧ p.dispatcher.registry = d.registry ∧
      p.dispatcher.deliveries = d.deliveries ++ p.recent.map entry ∧
      (rules.filterDuplicates = true → p.watched = p.recent) := by
  induction texts using List.reverseRecOn with
  | nil => exact ⟨rfl, rfl, (List.append_nil _).symm, fun _ => rfl⟩
  | append_singleton texts text ih =>
    obtain ⟨hr, hg, hd, hw⟩ := ih
    rw [List.map_append, List.map_singleton, progress_snoc]
    refine ⟨hr, (dispatch_registry ..).trans hg, ?_, ?_⟩
    · apply (dispatch_deliveries ..).trans
      rw [hd, List.append_assoc]
      simp only [Progress.take, List.map_append]
      cases handout? _ _ _ <;> rfl
    · intro hf
      simp only [Progress.take, hr, if_pos hf, hw hf]

theorem not_repeats (d : Dispatcher) (configured : List String) (kind : EventKind)
    (message : Json) : ¬ d.Repeats ⟨false, configured⟩ kind message := by
  intro h
  cases h.1

theorem handout?_heldBack {on off : Dispatcher} (hr : on.registry = off.registry)
    (configured : List String) (text : String) : on.handout? ⟨true, configured⟩ text =
      (off.handout? ⟨false, configured⟩ text).filter fun h =>
        !on.memory.repeats h.place.1 h.place.2 h.message := by
  refine Option.ext fun h => ?_
  rw [Option.filter_eq_some_iff, handout?_eq_some, handout?_eq_some, hr]
  constructor
  · rintro ⟨kind, message, handler, hm, ha, hn, rfl⟩
    have free : on.memory.repeats kind (routingSymbol message) message = false := by
      apply Bool.eq_false_iff.2
      intro hs
      exact hn ⟨rfl, repeats_iff.1 hs⟩
    refine ⟨⟨kind, message, handler, hm, ha, not_repeats off configured kind message, rfl⟩, ?_⟩
    simp [place, Event.kind_ofMessage, free]
  · rintro ⟨⟨kind, message, handler, hm, ha, -, rfl⟩, hn⟩
    have fresh : ¬ on.Repeats ⟨true, configured⟩ kind message := by
      intro h
      simp [place, Event.kind_ofMessage, repeats_iff.2 h.2] at hn
    exact ⟨kind, message, handler, hm, ha, fresh, rfl⟩

theorem recent_unstuttered (d : Dispatcher) (configured texts : List String) :
    (d.progress ⟨true, configured⟩ (texts.map .text)).recent =
      unstuttered [] (d.progress ⟨false, configured⟩ (texts.map .text)).recent := by
  induction texts using List.reverseRecOn with
  | nil => rfl
  | append_singleton texts text ih =>
    obtain ⟨hr, hg, -, hw⟩ := progress_texts d ⟨true, configured⟩ texts
    obtain ⟨hr', hg', -, -⟩ := progress_texts d ⟨false, configured⟩ texts
    have tracked := progress_tracked d ⟨true, configured⟩ (texts.map .text)
    rw [List.map_append, List.map_singleton, progress_snoc, progress_snoc]
    simp only [Progress.take, hr, hr']
    rw [handout?_heldBack (hg.trans hg'.symm)]
    cases handout? _ _ text with
    | none => simpa using ih
    | some h =>
      -- With the filter on, all that is handed out is watched, so what is remembered is what was
      -- handed out last, in either run.
      have repeated := tracked.repeats h.place h.message
      rw [hw rfl, ih, repeats_unstuttered] at repeated
      rw [Option.filter_some, repeated, Option.toList_some, unstuttered_snoc, List.nil_append, ih]
      cases repeats _ h.place h.message <;> rfl

/-- While rules stay as they are, holding back duplicates leaves out just the messages that equal
the one that was handed out before them at their place. -/
theorem deliveries_unstuttered (d : Dispatcher) (configured texts : List String) :
    let on := d.progress ⟨true, configured⟩ (texts.map .text)
    let off := d.progress ⟨false, configured⟩ (texts.map .text)
    on.recent = unstuttered [] off.recent ∧
      (d.resetDuplicates.run ⟨true, configured⟩ (texts.map .text)).2.deliveries =
        d.deliveries ++ on.recent.map entry ∧
      (d.resetDuplicates.run ⟨false, configured⟩ (texts.map .text)).2.deliveries =
        d.deliveries ++ off.recent.map entry := by
  refine ⟨recent_unstuttered d configured texts, ?_, ?_⟩
  · rw [← progress_dispatcher]
    exact (progress_texts d ⟨true, configured⟩ texts).2.2.1
  · rw [← progress_dispatcher]
    exact (progress_texts d ⟨false, configured⟩ texts).2.2.1

/-! ## Rules that change -/

theorem Progress.Tracked.exists_latest {p : Progress} (h : p.Tracked)
    {place : EventKind × String} {kept : Handout} (hk : latest? place p.watched = some kept) :
    ∃ last, latest? place p.recent = some last := by
  obtain ⟨g, hg, hp⟩ := latest?_isSome.1 (Option.isSome_iff_exists.2 ⟨kept, hk⟩)
  exact Option.isSome_iff_exists.1 (latest?_isSome.2 ⟨g, h.watched.subset hg, hp⟩)

/-- A message that is held back equals the latest one of its place that was handed out while
duplicates were held back. It equals the latest one that was handed out at all just if these two are
equal. -/
theorem duplicate_equals_latest_iff (d : Dispatcher) (rules : DispatchRules) (turns : List Turn)
    (text : String) (hv : ((d.progress rules turns).dispatcher.dispatch
      (d.progress rules turns).rules text).1 = .duplicate) :
    ∃ kind message last kept, Json.IsMessage text kind message ∧
      latest? (kind, routingSymbol message) (d.progress rules turns).recent = some last ∧
      latest? (kind, routingSymbol message) (d.progress rules turns).watched = some kept ∧
      kept.message.same message = true ∧
      (last.message.same message = true ↔ kept.message.same last.message = true) := by
  have tracked := progress_tracked d rules turns
  obtain ⟨v, handed, f⟩ :=
    exists_fate (d.progress rules turns).dispatcher (d.progress rules turns).rules text
  rw [f.dispatch.1] at hv
  subst hv
  cases f with
  | @duplicate kind message handler hm ha hr =>
    obtain ⟨remembered, hm', hs⟩ := hr.2
    rw [tracked.memory] at hm'
    obtain ⟨kept, hk, rfl⟩ := Option.map_eq_some_iff.1 hm'
    obtain ⟨last, hl⟩ := tracked.exists_latest hk
    refine ⟨kind, message, last, kept, hm, hl, hk, hs, ?_⟩
    constructor
    · intro h
      exact Json.same_trans hs (Json.same_symm h)
    · intro h
      exact Json.same_trans (Json.same_symm h) hs

def interrupted (text text' : String) : List Turn :=
  [.text text, .configure {}, .text text', .configure ⟨true, []⟩]

theorem admits_of_unfiltered {d : Dispatcher} (hd : d.registry = (filtering [] []).registry)
    (kind : EventKind) (message : Json) :
    d.registry.Admits [] kind message ⟨"handler", fun _ _ => .done⟩ := by
  rw [hd]
  exact ⟨fun hs => hs.1 rfl, fun he => he.1 rfl, rfl⟩

theorem interrupted_duplicate {text text' : String} {kind : EventKind} {message message' : Json}
    (h : Json.IsMessage text kind message) (h' : Json.IsMessage text' kind message')
    (hs : routingSymbol message' = routingSymbol message) (hr : message.same message = true) :
    (((filtering [] []).progress ⟨true, []⟩ (interrupted text text')).dispatcher.dispatch
      ⟨true, []⟩ text).1 = .duplicate ∧
    (latest? (kind, routingSymbol message)
      ((filtering [] []).progress ⟨true, []⟩ (interrupted text text')).recent).map Handout.message =
        some message' := by
  have tracked := progress_tracked (filtering [] []) ⟨true, []⟩ (interrupted text text')
  have first : (filtering [] []).resetDuplicates.handout? ⟨true, []⟩ text =
      some ⟨"handler", message, .ofMessage message kind⟩ := by
    refine handout?_eq_some.2 ⟨kind, message, _, h, admits_of_unfiltered rfl _ _, ?_, rfl⟩
    rintro ⟨-, last, hl, -⟩
    cases hl
  have second : ((filtering [] []).resetDuplicates.dispatch ⟨true, []⟩ text).2.handout? {} text' =
      some ⟨"handler", message', .ofMessage message' kind⟩ := by
    have ha := admits_of_unfiltered
      (dispatch_registry (filtering [] []).resetDuplicates ⟨true, []⟩ text) kind message'
    exact handout?_eq_some.2 ⟨kind, message', _, h', ha, not_repeats _ [] kind message', rfl⟩
  have watched : ((filtering [] []).progress ⟨true, []⟩ (interrupted text text')).watched =
      [⟨"handler", message, .ofMessage message kind⟩] := by
    simp [progress, interrupted, Progress.take, Dispatcher.take, first]
  have recent : ((filtering [] []).progress ⟨true, []⟩ (interrupted text text')).recent =
      [⟨"handler", message, .ofMessage message kind⟩,
        ⟨"handler", message', .ofMessage message' kind⟩] := by
    simp [progress, interrupted, Progress.take, Dispatcher.take, first, second]
  constructor
  · have registry : ((filtering [] []).progress ⟨true, []⟩
        (interrupted text text')).dispatcher.registry = (filtering [] []).registry := by
      simp [progress, interrupted, Progress.take, Dispatcher.take, dispatch_registry]
      rfl
    rw [dispatch_duplicate h (admits_of_unfiltered registry kind message) ⟨rfl, message, ?_, hr⟩]
    rw [tracked.memory, watched]
    simp [latest?, place, Event.kind_ofMessage]
  · rw [recent]
    simp [latest?, place, Event.kind_ofMessage, hs]

def quoteOf (bid : Nat) : Json := .object
  [("bid", .number (.integer bid)), ("symbol", .string "SPY"), ("type", .string "quote")]

def quoteText : String := "\x7b\"type\":\"quote\",\"symbol\":\"SPY\",\"bid\":1\x7d"

def reorderedText : String := "\x7b\"bid\":1,\"symbol\":\"SPY\",\"type\":\"quote\"\x7d"

def raisedText : String := "\x7b\"type\":\"quote\",\"symbol\":\"SPY\",\"bid\":2\x7d"

theorem quoteText_isMessage : Json.IsMessage quoteText .quote (quoteOf 1) := ⟨by cbv, by cbv⟩

theorem reorderedText_equals_latest :
    let p := (filtering [] []).progress ⟨true, []⟩ (interrupted quoteText reorderedText)
    (p.dispatcher.dispatch p.rules quoteText).1 = .duplicate ∧
    ∃ kind message last kept, Json.IsMessage quoteText kind message ∧
      latest? (kind, routingSymbol message) p.recent = some last ∧
      latest? (kind, routingSymbol message) p.watched = some kept ∧
      kept.message.same message = true ∧
      (last.message.same message = true ↔ kept.message.same last.message = true) := by
  have reordered : Json.IsMessage reorderedText .quote (quoteOf 1) := ⟨by cbv, by cbv⟩
  have hv := (interrupted_duplicate quoteText_isMessage reordered rfl (by cbv)).1
  exact ⟨hv, duplicate_equals_latest_iff _ _ _ _ hv⟩

/-- A quote is held back as a duplicate, though another one was handed out last. -/
theorem raisedText_stale :
    let p := (filtering [] []).progress ⟨true, []⟩ (interrupted quoteText raisedText)
    Json.IsMessage quoteText .quote (quoteOf 1) ∧
    (p.dispatcher.dispatch p.rules quoteText).1 = .duplicate ∧
    (latest? (.quote, routingSymbol (quoteOf 1)) p.recent).map Handout.message =
      some (quoteOf 2) ∧
    (quoteOf 2).same (quoteOf 1) = false := by
  have raised : Json.IsMessage raisedText .quote (quoteOf 2) := ⟨by cbv, by cbv⟩
  obtain ⟨hv, hl⟩ := interrupted_duplicate quoteText_isMessage raised rfl (by cbv)
  exact ⟨quoteText_isMessage, hv, hl, by cbv⟩

end Dispatcher

end MarketFeed
