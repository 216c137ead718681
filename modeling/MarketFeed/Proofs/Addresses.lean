import Mathlib
import MarketFeed.Proofs.Places
import MarketFeed.Socket

/-!
# Addresses that are read back

An address that was read is in a settled form, in which it is read from its own text as what it is.
So is one to whose query a pair is appended, and a pair that is there is not appended again.
-/

namespace MarketFeed

namespace Url

open Percent

/-! ## Visible characters -/

theorem isVisible_of_alphanum {c : Char} (h : c.isAlphanum = true) : isVisible c = true := by
  simp only [Char.isAlphanum, Char.isAlpha, Char.isUpper, Char.isLower, Char.isDigit,
    Bool.or_eq_true, Bool.and_eq_true, decide_eq_true_eq, ge_iff_le, UInt32.le_iff_toNat_le] at h
  have range : 48 ≤ c.toNat ∧ c.toNat ≤ 122 := by
    obtain (upper | lower) | digit := h
    · obtain ⟨least, greatest⟩ := upper
      simp at least greatest
      omega
    · obtain ⟨least, greatest⟩ := lower
      simp at least greatest
      omega
    · obtain ⟨least, greatest⟩ := digit
      simp at least greatest
      omega
  simp [isVisible]
  omega

theorem of_visible {p : Char → Prop} (h : ∀ n < 0x7F, p (Char.ofNat n)) {c : Char}
    (visible : isVisible c = true) : p c := by
  simp only [isVisible, Bool.and_eq_true, decide_eq_true_eq] at visible
  have holds := h c.toNat visible.2
  rwa [Char.ofNat_toNat] at holds

/-! ## Schemes -/

def fitsScheme (c : Char) : Bool := c.isAlphanum || c = '+' || c = '-' || c = '.'

theorem isVisible_of_fitsScheme {c : Char} (h : fitsScheme c = true) : isVisible c = true := by
  simp only [fitsScheme, Bool.or_eq_true, decide_eq_true_eq] at h
  obtain ((alphanum | rfl) | rfl) | rfl := h
  · exact isVisible_of_alphanum alphanum
  · decide
  · decide
  · decide

structure SettledScheme (cs : List Char) : Prop where
  letter : ∃ c ∈ cs.head?, c.isAlpha = true
  fits : ∀ c ∈ cs, fitsScheme c = true
  lower : ∀ c ∈ cs, c.toLower = c

theorem scheme?_settled {scheme : String} (h : SettledScheme scheme.toList) (rest : List Char) :
    scheme? (scheme.toList ++ ':' :: rest) = some (scheme, rest) := by
  have colon : ':' ∉ scheme.toList := fun hc => absurd (h.fits ':' hc) (by decide)
  unfold scheme?
  rw [cutOnce_append_cons colon]
  obtain ⟨c, hc, alpha⟩ := h.letter
  obtain ⟨name, text⟩ := List.head?_eq_some_iff.1 hc
  have fits := h.fits
  have lower := asciiLower_eq_self h.lower
  have good : (c.isAlpha && name.all fitsScheme) = true := by
    rw [alpha, Bool.true_and, List.all_eq_true]
    exact fun d hd => fits d (text ▸ List.mem_cons_of_mem c hd)
  unfold fitsScheme at good
  rw [text] at lower ⊢
  simp only [good, if_true, lower]
  rw [← text, String.ofList_toList]

theorem not_break {c : Char} (h : c ∉ ['\t', '\n', '\r']) :
    (!(['\t', '\n', '\r'].contains c)) = true := by
  simpa using h

theorem clean_eq {cs : List Char} (kept : ∀ c ∈ cs, keptLoosely c = true)
    (first : cs.head? ≠ some ' ') (last : cs.getLast? ≠ some ' ') : clean cs = cs := by
  have inner : ∀ c ∈ cs, c ≠ ' ' → decide (c.toNat ≤ 0x20) = false := by
    intro c hc apart
    have visible : isVisible c = true := by simpa [keptLoosely, apart] using kept c hc
    simp [isVisible] at visible
    simpa using visible.1
  have stays {xs : List Char} (sub : ∀ c ∈ xs, c ∈ cs) (outer : xs.head? ≠ some ' ') :
      xs.dropWhile (fun c => decide (c.toNat ≤ 0x20)) = xs := by
    cases xs with
    | nil => rfl
    | cons c xs =>
      have apart : c ≠ ' ' := fun same => outer (congrArg some same)
      exact List.dropWhile_cons_of_neg (by simp [inner c (sub c List.mem_cons_self) apart])
  have breaks : ∀ c ∈ cs, (!(['\t', '\n', '\r'].contains c)) = true := by
    intro c hc
    have plain := kept c hc
    apply not_break
    intro member
    fin_cases member <;> exact absurd plain (by decide)
  unfold clean
  simp only
  rw [stays (fun _ => id) first, stays (fun c hc => List.mem_reverse.1 hc) (by simpa using last),
    List.reverse_reverse, List.filter_eq_self.2 breaks]

theorem last_of_append {xs ys : List Char} {c : Char} (h : (xs ++ ys).getLast? = some c) :
    ys.getLast? = some c ∨ ys = [] ∧ xs.getLast? = some c := by
  cases ys with
  | nil => exact .inr ⟨rfl, by rwa [List.append_nil] at h⟩
  | cons y ys =>
    rw [List.getLast?_append_of_ne_nil _ (List.cons_ne_nil _ _)] at h
    exact .inl h

/-! ## Whole addresses -/

def keptInQueryOf (scheme : String) (c : Char) : Bool :=
  keptInQuery c && !(isWeb scheme && c = '\'')

theorem lasting_query (scheme : String) : Lasting (keptInQueryOf scheme) := by
  unfold keptInQueryOf
  cases isWeb scheme <;> exact ⟨by decide, by decide⟩

structure Settled (u : Url) : Prop where
  scheme : SettledScheme u.scheme.toList
  place : SettledPlace u.scheme u.authority u.path.toList
  query : ∀ q ∈ u.query, ∀ c ∈ q.toList, keptInQueryOf u.scheme c = true
  fragment : ∀ f ∈ u.fragment, ∀ c ∈ f.toList, keptInFragment c = true
  last : u.query = none → u.fragment = none → u.path.toList.getLast? ≠ some ' '

def queryText (u : Url) : List Char := led '?' (u.query.map String.toList)

def fragmentText (u : Url) : List Char := led '#' (u.fragment.map String.toList)

theorem render_toList (u : Url) : u.render.toList = u.scheme.toList ++
    ':' :: ((u.renderPlace ++ u.path).toList ++ u.queryText ++ u.fragmentText) := by
  unfold render resource queryText fragmentText led
  cases u.query <;> cases u.fragment <;> simp

theorem keptLoosely_of_visible {c : Char} (h : isVisible c = true) : keptLoosely c = true := by
  simp [keptLoosely, h]

theorem EndsNothing.kept {c : Char} (h : EndsNothing c) :
    keptLoosely c = true ∧ c ≠ '#' ∧ c ≠ '?' :=
  ⟨keptLoosely_of_visible h.1, ne_of_mem_of_not_mem (by decide : '#' ∈ _) h.2 |>.symm,
    ne_of_mem_of_not_mem (by decide : '?' ∈ _) h.2 |>.symm⟩

theorem kept_of_keptInPath {c : Char} (h : keptInPath c = true) :
    keptLoosely c = true ∧ c ≠ '#' ∧ c ≠ '?' := by
  simp [keptInPath, keptInQuery] at h
  simp [keptLoosely, h]

theorem SettledPath.noEnd {web : Bool} {cs : List Char} (h : SettledPath web cs) :
    ∀ c ∈ cs, keptLoosely c = true ∧ c ≠ '#' ∧ c ≠ '?' := fun c hc =>
  kept_of_keptInPath (h.kept c hc).1

theorem SettledPlace.path_kept {scheme : String} {authority : Option Authority} {cs : List Char}
    (h : SettledPlace scheme authority cs) :
    ∀ c ∈ cs, keptLoosely c = true ∧ c ≠ '#' ∧ c ≠ '?' := by
  cases h with
  | web web place way => exact way.noEnd
  | host notWeb place way =>
    obtain rfl | way := way
    · exact nofun
    · exact way.noEnd
  | rooted notWeb way => exact way.noEnd
  | loose notWeb kept ends noRoot =>
    exact fun c hc => ⟨kept c hc, ne_of_mem_of_not_mem hc ends.1, ne_of_mem_of_not_mem hc ends.2⟩

theorem renderPlace_endsNothing {u : Url}
    (h : SettledPlace u.scheme u.authority u.path.toList) :
    ∀ c ∈ u.renderPlace.toList, isVisible c = true ∧ c ≠ '#' ∧ c ≠ '?' := by
  have settled {a : Authority} (place : SettledAuthority u.scheme a) :
      ∀ c ∈ ("//" ++ renderAuthority a).toList, isVisible c = true ∧ c ≠ '#' ∧ c ≠ '?' := by
    intro c hc
    rw [String.toList_append, List.mem_append] at hc
    obtain hc | hc := hc
    · fin_cases hc <;> decide
    · have ends := place.endsNothing c hc
      exact ⟨ends.1, ends.kept.2⟩
  unfold renderPlace
  cases ha : u.authority with
  | some a =>
    rw [ha] at h
    cases h with
    | web web place way => exact settled place
    | host notWeb place way => exact settled place
  | none =>
    dsimp only
    split_ifs
    · intro c hc
      fin_cases hc <;> decide
    · exact nofun

theorem SettledPlace.kept {u : Url} (h : SettledPlace u.scheme u.authority u.path.toList) :
    ∀ c ∈ (u.renderPlace ++ u.path).toList, keptLoosely c = true ∧ c ≠ '#' ∧ c ≠ '?' := by
  intro c hc
  rw [String.toList_append, List.mem_append] at hc
  obtain hc | hc := hc
  · obtain ⟨visible, ends⟩ := renderPlace_endsNothing h c hc
    exact ⟨keptLoosely_of_visible visible, ends⟩
  · exact h.path_kept c hc

theorem Settled.queryText_kept {u : Url} (h : u.Settled) :
    ∀ c ∈ u.queryText, isVisible c = true ∧ c ≠ '#' := by
  unfold queryText led
  cases hq : u.query with
  | none => exact nofun
  | some q =>
    rintro c (_ | ⟨_, hc⟩)
    · exact ⟨by decide, by decide⟩
    · have kept := h.query q hq c hc
      simp [keptInQueryOf, keptInQuery] at kept
      exact ⟨kept.1.1, kept.1.2.2.1⟩

theorem Settled.fragmentText_kept {u : Url} (h : u.Settled) :
    ∀ c ∈ u.fragmentText, isVisible c = true := by
  unfold fragmentText led
  cases hf : u.fragment with
  | none => exact nofun
  | some f =>
    rintro c (_ | ⟨_, hc⟩)
    · decide
    · have kept := h.fragment f hf c hc
      simp [keptInFragment] at kept
      exact kept.1

theorem led_eq_nil {separator : Char} {text : Option String}
    (h : led separator (text.map String.toList) = []) : text = none := by
  cases text with
  | none => rfl
  | some text => cases h

theorem clean_render {u : Url} (h : u.Settled) : clean u.render.toList = u.render.toList := by
  obtain ⟨c, hc, alpha⟩ := h.scheme.letter
  obtain ⟨name, scheme⟩ := List.head?_eq_some_iff.1 hc
  rw [render_toList]
  apply clean_eq
  · intro c hc
    simp only [List.mem_append, List.mem_cons] at hc
    rcases hc with hc | rfl | (hc | hc) | hc
    · exact keptLoosely_of_visible (isVisible_of_fitsScheme (h.scheme.fits c hc))
    · decide
    · exact (h.place.kept c hc).1
    · exact keptLoosely_of_visible (h.queryText_kept c hc).1
    · exact keptLoosely_of_visible (h.fragmentText_kept c hc)
  · rw [scheme]
    rintro ⟨⟩
    exact absurd alpha (by decide)
  · intro last
    have regroup : u.scheme.toList ++ ':' :: ((u.renderPlace ++ u.path).toList ++ u.queryText ++
        u.fragmentText) = u.scheme.toList ++ ':' :: u.renderPlace.toList ++ u.path.toList ++
          u.queryText ++ u.fragmentText := by simp
    rw [regroup] at last
    have noSpace {xs : List Char} (visible : ∀ c ∈ xs, isVisible c = true) :
        xs.getLast? ≠ some ' ' := fun last =>
      absurd (visible ' ' (List.mem_of_getLast? last)) (by decide)
    obtain last | ⟨noFragment, last⟩ := last_of_append last
    · exact noSpace h.fragmentText_kept last
    obtain last | ⟨noQuery, last⟩ := last_of_append last
    · exact noSpace (fun c hc => (h.queryText_kept c hc).1) last
    obtain last | ⟨-, last⟩ := last_of_append last
    · exact h.last (led_eq_nil noQuery) (led_eq_nil noFragment) last
    · obtain last | ⟨none, -⟩ := last_of_append last
      · refine noSpace (List.forall_mem_cons.2 ⟨by decide, fun c hc => ?_⟩) last
        exact (renderPlace_endsNothing h.place c hc).1
      · cases none

theorem parse?_render {u : Url} (h : u.Settled) : parse? u.render = some u := by
  have place := place?_settled h.place
  have cut : cutOnce '#' ((u.renderPlace ++ u.path).toList ++ u.queryText ++ u.fragmentText) =
      ((u.renderPlace ++ u.path).toList ++ u.queryText, u.fragment.map String.toList) := by
    apply cutOnce_append_led
    intro hc
    obtain hc | hc := List.mem_append.1 hc
    · exact (h.place.kept _ hc).2.1 rfl
    · exact (h.queryText_kept _ hc).2 rfl
  have cut' : cutOnce '?' ((u.renderPlace ++ u.path).toList ++ u.queryText) =
      ((u.renderPlace ++ u.path).toList, u.query.map String.toList) :=
    cutOnce_append_led (fun hc => (h.place.kept _ hc).2.2 rfl) _
  have query : u.query.map
      (fun q => String.ofList (encode (keptInQueryOf u.scheme) q.toList)) = u.query := by
    refine (Option.map_congr fun q hq => ?_).trans Option.map_id'
    rw [encode_of_kept (h.query q hq), String.ofList_toList]
  have fragment : u.fragment.map
      (fun f => String.ofList (encode keptInFragment f.toList)) = u.fragment := by
    refine (Option.map_congr fun f hf => ?_).trans Option.map_id'
    rw [encode_of_kept (h.fragment f hf), String.ofList_toList]
  unfold parse?
  rw [clean_render h, render_toList, scheme?_settled h.scheme]
  simp only [Option.bind_eq_bind, Option.bind_some, cut, cut', place, Option.map_map,
    Function.comp_def]
  unfold keptInQueryOf at query
  rw [query, fragment]
  rfl

theorem isVisible_of_plain {c : Char} (h : Form.isPlain c = true) : isVisible c = true := by
  simp only [Form.isPlain, Bool.or_eq_true, decide_eq_true_eq] at h
  obtain (((alphanum | rfl) | rfl) | rfl) | rfl := h
  · exact isVisible_of_alphanum alphanum
  · decide
  · decide
  · decide
  · decide

theorem kept_of_visible {c : Char} (h : isVisible c = true) : Form.isPlain c = true →
    ∀ web, (keptInQuery c && !(web && c = '\'')) = true := by
  revert h
  revert c
  apply of_visible
  decide

theorem kept_separator {c : Char} (h : c = '+' ∨ c = '=' ∨ c = '&') :
    ∀ web, (keptInQuery c && !(web && c = '\'')) = true := by
  rcases h with rfl | rfl | rfl <;> decide

theorem keptInQueryOf_encode {scheme : String} {cs : List Char} :
    ∀ c ∈ Form.encode cs, keptInQueryOf scheme c = true := by
  intro c hc
  rcases Form.mem_encode hc with plain | rfl | rfl
  · exact kept_of_visible (isVisible_of_plain plain) plain (isWeb scheme)
  · exact kept_separator (.inl rfl) (isWeb scheme)
  · exact (lasting_query scheme).percent

theorem keptInQueryOf_append {scheme : String} {text : List Char} (pair : String × String)
    (h : ∀ c ∈ text, keptInQueryOf scheme c = true) :
    ∀ c ∈ Form.append text pair, keptInQueryOf scheme c = true := by
  have encoded : ∀ c ∈ Form.encodePair pair, keptInQueryOf scheme c = true :=
    List.forall_mem_append.2 ⟨keptInQueryOf_encode,
      List.forall_mem_cons.2 ⟨kept_separator (.inr (.inl rfl)) _, keptInQueryOf_encode⟩⟩
  unfold Form.append
  split_ifs
  · exact encoded
  · exact List.forall_mem_append.2 ⟨h,
      List.forall_mem_cons.2 ⟨kept_separator (.inr (.inr rfl)) _, encoded⟩⟩

theorem Settled.addPair {u : Url} (h : u.Settled) (pair : String × String) :
    (u.addPair pair).Settled := by
  refine ⟨h.scheme, h.place, ?_, h.fragment, nofun⟩
  rintro _ ⟨⟩
  rw [String.toList_ofList]
  apply keptInQueryOf_append
  cases hq : u.query with
  | none => exact nofun
  | some q => exact h.query q hq

theorem Settled.ensurePair {u : Url} (h : u.Settled) (pair : String × String) :
    (u.ensurePair pair).Settled := by
  rw [ensurePair_eq]
  split_ifs
  · exact h
  · exact h.addPair pair

end Url

/-! ## Sessions in addresses -/

namespace Target

end Target

end MarketFeed
