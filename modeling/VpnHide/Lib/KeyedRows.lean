import Mathlib.Algebra.BigOperators.Group.List.Basic
import Mathlib.Algebra.Group.Basic
import VpnHide.Lib.Counters

/-!
# Tables of rows with a key and an amount

Amounts are added in any commutative monoid. If the keys are distinct, looking up distinct keys one after the other adds
up the rows with these keys (`sum_rowAt`), and moving the rows of some keys onto another row keeps the total
(`sum_moved`).
-/

namespace VpnHide

variable {κ β : Type} [DecidableEq κ]

/-- The amount of the row with key `k`. -/
def rowAt (rows : List (κ × β)) (k : κ) : Option β := (rows.find? fun r => r.1 = k).map Prod.snd

section Total
variable [AddCommMonoid β] {rows : List (κ × β)} {k : κ}

/-- The amounts of the rows whose key satisfies `p`. -/
def rowTotal (p : κ → Bool) (rows : List (κ × β)) : β := ((rows.filter fun r => p r.1).map Prod.snd).sum

omit [DecidableEq κ] in
theorem rowTotal_cons (p : κ → Bool) (r : κ × β) (rows : List (κ × β)) :
    rowTotal p (r :: rows) = (if p r.1 then r.2 else 0) + rowTotal p rows := by
  unfold rowTotal
  by_cases hp : p r.1
  · rw [List.filter_cons_of_pos (by exact hp), if_pos hp, List.map_cons, List.sum_cons]
  · rw [List.filter_cons_of_neg (by exact hp), if_neg hp, zero_add]

omit [DecidableEq κ] in
theorem rowTotal_or {p q : κ → Bool} (hpq : ∀ k, p k → ¬ q k) (rows : List (κ × β)) :
    rowTotal (fun k => p k || q k) rows = rowTotal p rows + rowTotal q rows := by
  induction rows with
  | nil => exact (zero_add 0).symm
  | cons r rows ih =>
    rw [rowTotal_cons, rowTotal_cons, rowTotal_cons, ih, add_add_add_comm]
    congr 1
    by_cases hp : p r.1
    · simp [hp, hpq _ hp]
    · simp [hp]

omit [DecidableEq κ] in
theorem rowTotal_congr {p q : κ → Bool} (h : ∀ r ∈ rows, p r.1 = q r.1) : rowTotal p rows = rowTotal q rows := by
  rw [rowTotal, rowTotal, List.filter_congr h]

theorem rowTotal_key (hn : (rows.map Prod.fst).Nodup) (k : κ) :
    rowTotal (fun k' => k' = k) rows = (rowAt rows k).getD 0 := by
  rw [rowTotal, rowAt, filter_key hn]
  cases rows.find? fun r => r.1 = k <;> simp

theorem sum_rowAt (hn : (rows.map Prod.fst).Nodup) {ks : List κ} (hks : ks.Nodup) :
    (ks.map fun k => (rowAt rows k).getD 0).sum = rowTotal (fun k => k ∈ ks) rows := by
  induction ks with
  | nil => simp [rowTotal]
  | cons k ks ih =>
    obtain ⟨hk, hks⟩ := List.nodup_cons.1 hks
    have hdisjoint : ∀ k', decide (k' = k) → ¬ decide (k' ∈ ks) := by
      intro k' heq
      rw [of_decide_eq_true heq, decide_eq_true_iff]
      exact hk
    rw [List.map_cons, List.sum_cons, ih hks, ← rowTotal_key hn, ← rowTotal_or hdisjoint]
    exact rowTotal_congr fun r _ => by simp

omit [DecidableEq κ] in
theorem sum_hidden (p : κ → Bool) (rows : List (κ × β)) :
    (rows.map fun r => if p r.1 then 0 else r.2).sum + rowTotal p rows = (rows.map Prod.snd).sum := by
  induction rows with
  | nil => exact add_zero 0
  | cons r rows ih =>
    rw [List.map_cons, List.map_cons, List.sum_cons, List.sum_cons, rowTotal_cons, add_add_add_comm, ih]
    by_cases hp : p r.1 <;> simp [hp]

theorem sum_at_key (hn : (rows.map Prod.fst).Nodup) (hmem : k ∈ rows.map Prod.fst) (t : β) :
    (rows.map fun r => if r.1 = k then t else 0).sum = t := by
  induction rows with
  | nil => cases hmem
  | cons r rows ih =>
    obtain ⟨hr, hn⟩ := List.nodup_cons.1 (List.map_cons ▸ hn)
    rw [List.map_cons, List.sum_cons]
    by_cases hrk : r.1 = k
    · have hrest : ∀ x ∈ rows.map fun r => if r.1 = k then t else 0, x = 0 := by
        intro x hx
        obtain ⟨r', hr', rfl⟩ := List.mem_map.1 hx
        have hne : r'.1 ≠ k := fun heq => hr (hrk.trans heq.symm ▸ List.mem_map_of_mem hr')
        exact if_neg hne
      rw [if_pos hrk, List.sum_eq_zero hrest, add_zero]
    · rw [if_neg hrk, zero_add]
      exact ih hn ((List.mem_cons.1 hmem).resolve_left (Ne.symm hrk))

theorem sum_moved (hn : (rows.map Prod.fst).Nodup) {p : κ → Bool} (hk : ¬ p k) (hmem : k ∈ rows.map Prod.fst) :
    (rows.map fun r => if p r.1 then 0 else if r.1 = k then r.2 + rowTotal p rows else r.2).sum =
      (rows.map Prod.snd).sum := by
  have hrow : ∀ r : κ × β, (if p r.1 then 0 else if r.1 = k then r.2 + rowTotal p rows else r.2) =
      (if p r.1 then 0 else r.2) + if r.1 = k then rowTotal p rows else 0 := by
    intro r
    by_cases hrk : r.1 = k
    · simp [hrk, hk]
    · simp [hrk]
  rw [List.map_congr_left fun r _ => hrow r, List.sum_map_add, sum_at_key hn hmem, sum_hidden]

omit [DecidableEq κ] in
theorem map_rowTotal {γ : Type} [AddCommMonoid γ] (f : β →+ γ) (p : κ → Bool) (rows : List (κ × β)) :
    f (rowTotal p rows) = rowTotal p (rows.map fun r => (r.1, f r.2)) := by
  induction rows with
  | nil => exact f.map_zero
  | cons r rows ih =>
    rw [List.map_cons, rowTotal_cons, rowTotal_cons, f.map_add, ih]
    by_cases hp : p r.1 <;> simp [hp]

end Total

/-! ### One place in a list -/

/-- The element that satisfies `p`, if there is at most one, is changed in its place. -/
theorem modify_findIdx? {α γ : Type} {p : α → Bool} {xs : List α} (h : xs.Pairwise fun a b => ¬ (p a ∧ p b)) (f : α → γ)
    (u : γ → γ) :
    (xs.findIdx? p).elim (xs.map f) (fun i => (xs.map f).modify i u) =
      xs.map fun x => if p x then u (f x) else f x := by
  induction xs with
  | nil => rfl
  | cons x xs ih =>
    obtain ⟨hx, hxs⟩ := List.pairwise_cons.1 h
    rw [List.findIdx?_cons, List.map_cons, List.map_cons]
    by_cases hp : p x
    · rw [if_pos hp, if_pos hp, Option.elim_some, List.modify_zero_cons]
      refine congrArg (u (f x) :: ·) (List.map_congr_left fun y hy => ?_)
      rw [if_neg fun hpy => hx y hy ⟨hp, hpy⟩]
    · rw [if_neg hp, if_neg hp, ← ih hxs]
      cases xs.findIdx? p <;> rfl

end VpnHide
