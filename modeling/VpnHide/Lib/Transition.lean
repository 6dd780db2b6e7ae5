import Mathlib.Init

/-!
# Transition systems

Labelled steps on a state. A property that holds initially and is kept by every step holds in every
reachable state; `restrict` keeps the runs whose steps all meet a condition.
-/

namespace VpnHide

/-- Initial states and labelled steps. -/
structure System (σ ι : Type) where
  init : σ → Prop
  step : σ → ι → σ → Prop

namespace System
variable {σ ι : Type} {M : System σ ι} {s : σ}

/-- The states of the runs. -/
inductive Reachable (M : System σ ι) : σ → Prop
  | init {s : σ} (h : M.init s) : Reachable M s
  | step {s s' : σ} {a : ι} (hs : Reachable M s) (h : M.step s a s') : Reachable M s'

theorem Reachable.invariant {P : σ → Prop} (hinit : ∀ s, M.init s → P s)
    (hstep : ∀ s a s', P s → M.step s a s' → P s') (h : M.Reachable s) : P s := by
  induction h with
  | init h => exact hinit _ h
  | step _ h ih => exact hstep _ _ _ ih h

theorem Reachable.foldl {f : σ → ι → σ} (hstep : ∀ s a, M.step s a (f s a)) (as : List ι) (h : M.Reachable s) :
    M.Reachable (as.foldl f s) := by
  induction as generalizing s with
  | nil => exact h
  | cons a as ih => exact ih (.step h (hstep s a))

/-- There is a run from one state to another. -/
inductive Leads (M : System σ ι) (s : σ) : σ → Prop
  | refl : Leads M s s
  | step {s₁ s₂ : σ} {a : ι} (hs : Leads M s s₁) (h : M.step s₁ a s₂) : Leads M s s₂

theorem Leads.reachable {s' : σ} (h : M.Leads s s') (hs : M.Reachable s) : M.Reachable s' := by
  induction h with
  | refl => exact hs
  | step _ h ih => exact .step ih h

/-- The same system with only the steps that meet a condition on the state before and the label. -/
def restrict (M : System σ ι) (G : σ → ι → Prop) : System σ ι where
  init := M.init
  step s a s' := G s a ∧ M.step s a s'

theorem Reachable.restrict_step {G : σ → ι → Prop} {s' : σ} {a : ι} (hs : (M.restrict G).Reachable s)
    (h : M.step s a s') (hg : G s a) : (M.restrict G).Reachable s' := .step hs ⟨hg, h⟩

theorem Leads.restrict_step {G : σ → ι → Prop} {s₁ s₂ : σ} {a : ι} (hs : (M.restrict G).Leads s s₁)
    (h : M.step s₁ a s₂) (hg : G s₁ a) : (M.restrict G).Leads s s₂ := .step hs ⟨hg, h⟩

theorem Reachable.of_restrict {G : σ → ι → Prop} (h : (M.restrict G).Reachable s) : M.Reachable s := by
  induction h with
  | init h => exact .init h
  | step _ h ih => exact .step ih h.2

end System

end VpnHide
