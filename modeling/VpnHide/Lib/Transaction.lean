import Mathlib.Init

/-!
# Transactions over a mutable state

`TxnM ε σ` is imperative code that changes a state of type `σ` and may return early with an error; a
change made before an error stays made. `Atomic m` says that `m` never fails after a change. The rule
`Atomic.readOnly_bind` is the usual discipline: all checks first, then changes that cannot fail.
-/

namespace VpnHide

/-- Code that changes a state and may return an error. -/
abbrev TxnM (ε σ : Type) := ExceptT ε (StateM σ)

namespace TxnM
variable {ε σ α β : Type}

/-- Run from a state: the outcome and the state left behind. -/
def exec (m : TxnM ε σ α) (s : σ) : Except ε α × σ := m.run.run s

/-- A step that does not touch the state. -/
def attempt (x : Except ε α) : TxnM ε σ α := ExceptT.mk (pure x)

/-- A step that always succeeds. -/
def update (f : σ → σ) : TxnM ε σ Unit := modify f

@[simp] theorem exec_attempt (x : Except ε α) (s : σ) : exec (attempt x) s = (x, s) := rfl

theorem exec_bind (m : TxnM ε σ α) (f : α → TxnM ε σ β) (s : σ) :
    exec (m >>= f) s = match exec m s with
      | (.ok a, s') => exec (f a) s'
      | (.error e, s') => (.error e, s') := by
  simp only [exec, ExceptT.run_bind, StateT.run_bind]
  rcases m.run.run s with ⟨_ | _, _⟩ <;> rfl

theorem exec_bind_ok {m : TxnM ε σ α} {f : α → TxnM ε σ β} {s s' : σ} {a : α} (h : exec m s = (.ok a, s')) :
    exec (m >>= f) s = exec (f a) s' := by
  rw [exec_bind, h]

@[simp] theorem exec_get_bind (f : σ → TxnM ε σ β) (s : σ) : exec (get >>= f) s = exec (f s) s := rfl

theorem exec_attempt_bind_eq_ok {x : Except ε α} {f : α → TxnM ε σ β} {s s' : σ} {b : β} :
    exec (attempt x >>= f) s = (.ok b, s') ↔ ∃ a, x = .ok a ∧ exec (f a) s = (.ok b, s') := by
  rw [exec_bind, exec_attempt]
  cases x <;> simp

theorem ok_of_toBool (r : Except ε Unit × σ) (h : r.1.toBool = true) : ∃ s, r = (.ok (), s) := by
  rcases r with ⟨_ | _, s⟩
  · cases h
  · exact ⟨s, rfl⟩

/-! ### Atomicity -/

/-- A failure leaves the state as it was. -/
def Atomic (m : TxnM ε σ α) : Prop := ∀ s e, (exec m s).1 = .error e → (exec m s).2 = s

/-- The state is never changed. -/
def ReadOnly (m : TxnM ε σ α) : Prop := ∀ s, (exec m s).2 = s

/-- The computation never fails. -/
def Total (m : TxnM ε σ α) : Prop := ∀ s, ∃ a, (exec m s).1 = .ok a

theorem readOnly_attempt (x : Except ε α) : ReadOnly (attempt x : TxnM ε σ α) := fun _ => rfl

theorem readOnly_get : ReadOnly (get : TxnM ε σ σ) := fun _ => rfl

theorem total_update (f : σ → σ) : Total (update f : TxnM ε σ Unit) := fun _ => ⟨(), rfl⟩

theorem Total.bind {m : TxnM ε σ α} {f : α → TxnM ε σ β} (hm : Total m) (hf : ∀ a, Total (f a)) :
    Total (m >>= f) := by
  intro s
  obtain ⟨a, ha⟩ := hm s
  have hexec : exec m s = (.ok a, (exec m s).2) := Prod.ext ha rfl
  rw [exec_bind_ok hexec]
  exact hf a _

theorem Total.atomic {m : TxnM ε σ α} (h : Total m) : Atomic m := by
  intro s e he
  obtain ⟨a, ha⟩ := h s
  rw [ha] at he
  cases he

/-- Checks in front of an atomic computation keep it atomic. -/
theorem Atomic.readOnly_bind {m : TxnM ε σ α} {f : α → TxnM ε σ β} (hm : ReadOnly m)
    (hf : ∀ a, Atomic (f a)) : Atomic (m >>= f) := by
  intro s e he
  have hs := hm s
  rw [exec_bind] at he ⊢
  rcases hr : exec m s with ⟨e' | a, s'⟩
  · rw [hr] at hs
    exact hs
  · rw [hr] at hs he
    obtain rfl : s' = s := hs
    exact hf a s' e he

end TxnM

end VpnHide
