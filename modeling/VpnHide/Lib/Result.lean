import Mathlib.Init

/-!
# Early returns

C functions that return an error code on the first failed check, as computations in `Except ε`.
-/

namespace VpnHide

variable {ε α β : Type}

/-- `if (p) return e;`. -/
def rejectIf (p : Prop) [Decidable p] (e : ε) : Except ε Unit := if p then .error e else .ok ()

@[simp] theorem rejectIf_eq_ok {p : Prop} [Decidable p] {e : ε} {u : Unit} :
    rejectIf p e = .ok u ↔ ¬ p := by
  unfold rejectIf; split <;> simp_all

theorem rejectIf_true {p : Prop} [Decidable p] (e : ε) (h : p) : rejectIf p e = .error e := if_pos h

theorem rejectIf_false {p : Prop} [Decidable p] (e : ε) (h : ¬ p) : rejectIf p e = .ok () := if_neg h

theorem rejectIf_eq_error {p : Prop} [Decidable p] {e e' : ε} : rejectIf p e = .error e' ↔ p ∧ e = e' := by
  unfold rejectIf; split <;> simp_all

@[simp] theorem bind_eq_ok {x : Except ε α} {f : α → Except ε β} {b : β} :
    (x >>= f) = .ok b ↔ ∃ a, x = .ok a ∧ f a = .ok b := by
  cases x <;> simp [bind, Except.bind]

theorem bind_eq_error {x : Except ε α} {f : α → Except ε β} {e : ε} :
    (x >>= f) = .error e ↔ x = .error e ∨ ∃ a, x = .ok a ∧ f a = .error e := by
  cases x <;> simp [bind, Except.bind]

theorem bind_congr_ok {x : Except ε α} {f g : α → Except ε β} (h : ∀ a, x = .ok a → f a = g a) :
    x >>= f = x >>= g := by
  cases x with
  | error e => rfl
  | ok a => exact h a rfl

theorem rejectIf_congr {p q : Prop} [Decidable p] [Decidable q] (e : ε) (h : p ↔ q) :
    rejectIf p e = rejectIf q e := by
  by_cases hp : p
  · rw [rejectIf_true e hp, rejectIf_true e (h.1 hp)]
  · rw [rejectIf_false e hp, rejectIf_false e (mt h.2 hp)]

@[simp] theorem mapError_eq_ok {ε' : Type} {x : Except ε α} {f : ε → ε'} {a : α} :
    x.mapError f = .ok a ↔ x = .ok a := by
  cases x with
  | error e => constructor <;> intro h <;> cases h
  | ok b => constructor <;> intro h <;> cases h <;> rfl

/-- An invariant of a loop with early returns. It speaks about the elements already passed. -/
theorem foldlM_invariant {σ : Type} {f : σ → α → Except ε σ} {P : List α → σ → Prop} {xs : List α}
    (hstep : ∀ done x s s', x ∈ xs → P done s → f s x = .ok s' → P (done ++ [x]) s') {s s' : σ}
    (hstart : P [] s) (h : xs.foldlM f s = .ok s') : P xs s' := by
  suffices hrest : ∀ (done rest : List α) (s : σ), (∀ x ∈ rest, x ∈ xs) → P done s →
      rest.foldlM f s = .ok s' → P (done ++ rest) s' from hrest [] xs s (fun _ hx => hx) hstart h
  intro done rest
  induction rest generalizing done with
  | nil =>
    intro s _ hs heq
    obtain rfl := Except.ok.inj heq
    rwa [List.append_nil]
  | cons x rest ih =>
    intro s hsub hs heq
    obtain ⟨hx, hsub⟩ := List.forall_mem_cons.1 hsub
    rw [List.foldlM_cons, bind_eq_ok] at heq
    obtain ⟨t, ht, heq⟩ := heq
    have hnext := ih (done ++ [x]) t hsub (hstep done x s t hx hs ht) heq
    rwa [List.append_assoc, List.singleton_append] at hnext

theorem foldlM_progress {σ : Type} {f : σ → α → Except ε σ} {P : List α → σ → Prop} {xs : List α}
    (hstep : ∀ done x rest s, xs = done ++ x :: rest → P done s → ∃ s', f s x = .ok s' ∧ P (done ++ [x]) s')
    {s : σ} (hstart : P [] s) : ∃ s', xs.foldlM f s = .ok s' := by
  suffices hrest : ∀ (rest done : List α) (s : σ), xs = done ++ rest → P done s →
      ∃ s', rest.foldlM f s = .ok s' from hrest xs [] s rfl hstart
  intro rest
  induction rest with
  | nil => exact fun _ s _ _ => ⟨s, rfl⟩
  | cons x rest ih =>
    intro done s hxs hs
    obtain ⟨t, ht, hnext⟩ := hstep done x rest s hxs hs
    obtain ⟨s', hs'⟩ := ih (done ++ [x]) t (by rw [hxs, List.append_assoc, List.singleton_append]) hnext
    exact ⟨s', by rw [List.foldlM_cons, bind_eq_ok]; exact ⟨t, ht, hs'⟩⟩

theorem foldlM_ok_mono {σ : Type} {f g : σ → α → Except ε σ}
    (hfg : ∀ s x s', f s x = .ok s' → g s x = .ok s') {xs : List α} {s s' : σ} (h : xs.foldlM f s = .ok s') :
    xs.foldlM g s = .ok s' := by
  induction xs generalizing s with
  | nil => exact h
  | cons x rest ih =>
    rw [List.foldlM_cons, bind_eq_ok] at h ⊢
    obtain ⟨t, ht, h⟩ := h
    exact ⟨t, hfg s x t ht, ih h⟩

end VpnHide
