import MarketFeed.Proofs.Evaluation
import Mathlib.Logic.Relation

/-!
# Walks

A program walks if it gets from where it starts to where it ends by permitted steps only. What a
step keeps, a walk keeps, so a property of clients is proved once for each kind of step and never
again for each program.
-/

namespace MarketFeed.Client

variable {τ α β : Type}

/-- Started where `P` holds, `m` takes steps of `S` only, and `Q` holds of its answer and its end. -/
def Walks (S : Client τ → Client τ → Prop) (P : Client τ → Prop) (m : Op τ α)
    (Q : α → Client τ → Prop) : Prop :=
  ∀ c, P c → Relation.ReflTransGen S c (m c).2 ∧ Q (m c).1 (m c).2

theorem kept_along {S : Client τ → Client τ → Prop} {I : Client τ → Prop}
    (hI : ∀ c c', S c c' → I c → I c') {c c' : Client τ} (path : Relation.ReflTransGen S c c')
    (hi : I c) : I c' := by
  induction path with
  | refl => exact hi
  | tail _ s ih => exact hI _ _ s ih

namespace Walks

variable {S S' : Client τ → Client τ → Prop} {P P' : Client τ → Prop}

theorem pure {a : α} {Q : α → Client τ → Prop} (h : ∀ c, P c → Q a c) : Walks S P (pure a) Q :=
  fun c hc => ⟨.refl, h c hc⟩

theorem bind {m : Op τ α} {f : α → Op τ β} {R : α → Client τ → Prop} {Q : β → Client τ → Prop}
    (hm : Walks S P m R) (hf : ∀ a, Walks S (R a) (f a) Q) : Walks S P (m >>= f) Q := by
  intro c hc
  obtain ⟨first, hR⟩ := hm c hc
  obtain ⟨rest, hQ⟩ := hf _ _ hR
  exact ⟨first.trans rest, hQ⟩

theorem get {f : Client τ → Op τ β} {Q : β → Client τ → Prop}
    (hf : ∀ c, P c → Walks S (· = c) (f c) Q) : Walks S P (get >>= f) Q :=
  fun c hc => hf c hc c rfl

theorem step {m : Op τ α} {Q : α → Client τ → Prop} (hs : ∀ c, P c → S c (m c).2)
    (hQ : ∀ c, P c → Q (m c).1 (m c).2) : Walks S P m Q :=
  fun c hc => ⟨.single (hs c hc), hQ c hc⟩

theorem cond {p : Prop} [Decidable p] {m m' : Op τ α} {Q : α → Client τ → Prop}
    (ht : p → Walks S P m Q) (hf : ¬ p → Walks S P m' Q) : Walks S P (if p then m else m') Q := by
  by_cases h : p
  · rw [if_pos h]; exact ht h
  · rw [if_neg h]; exact hf h

theorem optional {p : Prop} [Decidable p] {m : Op τ Unit} {f : Unit → Op τ β}
    {R : Client τ → Prop} {Q : β → Client τ → Prop} (ht : p → Walks S P m fun _ => R)
    (hf : ¬ p → ∀ c, P c → R c) (hr : Walks S R (f ⟨⟩) Q) :
    Walks S P (if p then m >>= f else f ⟨⟩) Q := by
  refine .cond (fun h => .bind (ht h) fun _ => hr) fun h c hc => ?_
  exact hr c (hf h c hc)

theorem weaken {m : Op τ α} {Q Q' : α → Client τ → Prop} (h : Walks S P m Q)
    (hP : ∀ c, P' c → P c) (hQ : ∀ a c, Q a c → Q' a c) : Walks S P' m Q' := by
  intro c hc
  obtain ⟨path, hq⟩ := h c (hP c hc)
  exact ⟨path, hQ _ _ hq⟩

theorem mono {m : Op τ α} {Q : α → Client τ → Prop} (h : Walks S P m Q)
    (hS : ∀ c c', S c c' → S' c c') : Walks S' P m Q := by
  intro c hc
  obtain ⟨path, hq⟩ := h c hc
  exact ⟨Relation.ReflTransGen.mono hS _ _ path, hq⟩

theorem keeps {m : Op τ α} {Q : α → Client τ → Prop} {I : Client τ → Prop} (h : Walks S P m Q)
    (hI : ∀ c c', S c c' → I c → I c') :
    Walks S (fun c => P c ∧ I c) m (fun a c => Q a c ∧ I c) := by
  rintro c ⟨hc, hi⟩
  obtain ⟨path, hq⟩ := h c hc
  exact ⟨path, hq, kept_along hI path hi⟩

end Walks

end MarketFeed.Client
