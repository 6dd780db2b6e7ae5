import Mathlib.Data.List.Nodup
import Mathlib.Data.List.Perm.Basic
import Mathlib.Algebra.BigOperators.Group.Finset.Piecewise
import Mathlib.Algebra.GroupWithZero.Nat

/-!
# Lists of keyed counters

A list whose elements have distinct keys is read at a key with `valueAt`; a list of increments, which may mention a
key several times or never, is added up at a key with `totalAt`.
-/

namespace VpnHide

variable {α κ : Type} [DecidableEq κ] {key : α → κ} {val : α → ℕ} {xs ys : List α} {k : κ}

/-- The value of the element with key `k`, 0 if there is none. -/
def valueAt (key : α → κ) (val : α → ℕ) (xs : List α) (k : κ) : ℕ := (xs.find? fun x => key x = k).elim 0 val

def totalAt (key : α → κ) (val : α → ℕ) (xs : List α) (k : κ) : ℕ := ((xs.filter fun x => key x = k).map val).sum

theorem find?_key (hn : (xs.map key).Nodup) {x : α} (hx : x ∈ xs) (hk : key x = k) :
    xs.find? (fun x => key x = k) = some x := by
  induction xs with
  | nil => cases hx
  | cons y ys ih =>
    obtain ⟨hy, hn⟩ := List.nodup_cons.1 (List.map_cons ▸ hn)
    rcases List.mem_cons.1 hx with rfl | hx
    · exact List.find?_cons_of_pos (by simpa using hk)
    · have hne : key y ≠ k := fun h => hy (h.trans hk.symm ▸ List.mem_map_of_mem hx)
      rw [List.find?_cons_of_neg (by simpa using hne)]
      exact ih hn hx

theorem valueAt_of_mem (hn : (xs.map key).Nodup) {x : α} (hx : x ∈ xs) (hk : key x = k) :
    valueAt key val xs k = val x := by
  rw [valueAt, find?_key hn hx hk]
  rfl

theorem valueAt_of_not_mem (h : ∀ x ∈ xs, key x ≠ k) : valueAt key val xs k = 0 := by
  rw [valueAt, List.find?_eq_none.2 fun x hx => by simpa using h x hx]
  rfl

theorem valueAt_perm (hn : (xs.map key).Nodup) (hp : xs.Perm ys) (k : κ) :
    valueAt key val xs k = valueAt key val ys k := by
  by_cases h : ∃ x ∈ xs, key x = k
  · obtain ⟨x, hx, hk⟩ := h
    rw [valueAt_of_mem hn hx hk, valueAt_of_mem ((hp.map key).nodup_iff.1 hn) (hp.mem_iff.1 hx) hk]
  · have hnone : ∀ x ∈ xs, key x ≠ k := fun x hx hk => h ⟨x, hx, hk⟩
    rw [valueAt_of_not_mem hnone, valueAt_of_not_mem fun x hx => hnone x (hp.mem_iff.2 hx)]

theorem filter_key (hn : (xs.map key).Nodup) (k : κ) :
    xs.filter (fun x => key x = k) = (xs.find? fun x => key x = k).toList := by
  induction xs with
  | nil => rfl
  | cons y ys ih =>
    obtain ⟨hy, hn⟩ := List.nodup_cons.1 (List.map_cons ▸ hn)
    by_cases hk : key y = k
    · have hnone : ys.find? (fun x => key x = k) = none := List.find?_eq_none.2 fun x hx hxk =>
        hy (hk.trans (of_decide_eq_true hxk).symm ▸ List.mem_map_of_mem hx)
      rw [List.filter_cons_of_pos (by simpa using hk), ih hn, hnone, List.find?_cons_of_pos (by simpa using hk)]
      rfl
    · rw [List.filter_cons_of_neg (by simpa using hk), ih hn, List.find?_cons_of_neg (by simpa using hk)]

/-- The increments that `d` makes of the elements of a snapshot, each under its own key. -/
theorem totalAt_filterMap (hn : (xs.map key).Nodup) {d : α → Option α} (hkey : ∀ x y, d x = some y → key y = key x)
    (k : κ) : totalAt key val (xs.filterMap d) k = valueAt key (fun x => (d x).elim 0 val) xs k := by
  have hswap : (xs.filterMap d).filter (fun y => key y = k) = (xs.filter fun x => key x = k).filterMap d := by
    rw [List.filter_filterMap, List.filterMap_filter]
    refine List.filterMap_congr fun x _ => ?_
    cases hd : d x with
    | none => simp
    | some y => simp [hkey x y hd, Option.filter]
  rw [totalAt, hswap, filter_key hn, valueAt]
  cases xs.find? fun x => key x = k with
  | none => rfl
  | some x =>
    show (([x].filterMap d).map val).sum = (d x).elim 0 val
    cases hd : d x with
    | none => simp [hd]
    | some y => simp [hd]

theorem valueAt_le_valueAt (hn : (ys.map key).Nodup) (h : ∀ x ∈ xs, ∃ y ∈ ys, key y = key x ∧ val x ≤ val y) (k : κ) :
    valueAt key val xs k ≤ valueAt key val ys k := by
  cases hfind : xs.find? fun x => key x = k with
  | none =>
    rw [valueAt, hfind]
    exact Nat.zero_le _
  | some x =>
    obtain ⟨y, hy, hyx, hle⟩ := h x (List.mem_of_find?_eq_some hfind)
    have hxk : key x = k := by simpa using List.find?_some hfind
    rw [valueAt_of_mem hn hy (hyx.trans hxk), valueAt, hfind]
    exact hle

/-- Increments `d` that are right for each element that has not decreased are right for a snapshot that has grown. -/
theorem totalAt_growth (hn : (ys.map key).Nodup) {d : α → Option α} (hkey : ∀ y z, d y = some z → key z = key y)
    (hgrow : ∀ k, valueAt key val xs k ≤ valueAt key val ys k)
    (hd : ∀ y ∈ ys, valueAt key val xs (key y) ≤ val y → valueAt key val xs (key y) + (d y).elim 0 val = val y)
    (k : κ) :
    valueAt key val xs k + totalAt key val (ys.filterMap d) k = valueAt key val ys k := by
  rw [totalAt_filterMap hn hkey]
  have hk := hgrow k
  by_cases h : ∃ y ∈ ys, key y = k
  · obtain ⟨y, hy, rfl⟩ := h
    rw [valueAt_of_mem hn hy rfl] at hk ⊢
    rw [valueAt_of_mem hn hy rfl]
    exact hd y hy hk
  · have hys : ∀ y ∈ ys, key y ≠ k := fun y hy hk => h ⟨y, hy, hk⟩
    rw [valueAt_of_not_mem hys] at hk ⊢
    rw [valueAt_of_not_mem hys]
    omega

/-! ### Totals of groups of keys -/

theorem totalAt_cons (x : α) (xs : List α) (k : κ) :
    totalAt key val (x :: xs) k = (if key x = k then val x else 0) + totalAt key val xs k := by
  unfold totalAt
  by_cases hk : key x = k
  · rw [List.filter_cons_of_pos (by simpa using hk), if_pos hk, List.map_cons, List.sum_cons]
  · rw [List.filter_cons_of_neg (by simpa using hk), if_neg hk, Nat.zero_add]

theorem totalAt_perm (hp : xs.Perm ys) (k : κ) : totalAt key val xs k = totalAt key val ys k :=
  ((hp.filter _).map val).sum_eq

theorem totalAt_of_nodup (hn : (xs.map key).Nodup) (k : κ) : totalAt key val xs k = valueAt key val xs k := by
  rw [totalAt, filter_key hn, valueAt]
  cases xs.find? fun x => key x = k <;> simp

variable {γ : Type} [DecidableEq γ]

/-- A group's total is the sum over its keys, of which `K` holds at least those that occur. -/
theorem totalAt_group_eq_sum (g : κ → γ) {K : Finset κ} (hK : ∀ x ∈ xs, key x ∈ K) (u : γ) :
    totalAt (fun x => g (key x)) val xs u = ∑ k ∈ K with g k = u, totalAt key val xs k := by
  induction xs with
  | nil => simp [totalAt]
  | cons x xs ih =>
    obtain ⟨hx, hK⟩ := List.forall_mem_cons.1 hK
    simp only [totalAt_cons, Finset.sum_add_distrib, ih hK, Finset.sum_ite_eq, Finset.mem_filter, hx, true_and]

theorem totalAt_group {zs : List α} (h : ∀ k, totalAt key val xs k + totalAt key val zs k = totalAt key val ys k)
    (g : κ → γ) (u : γ) :
    totalAt (fun x => g (key x)) val xs u + totalAt (fun x => g (key x)) val zs u =
      totalAt (fun x => g (key x)) val ys u := by
  let K := ((xs ++ zs ++ ys).map key).toFinset
  have hK {l : List α} (hl : l ⊆ xs ++ zs ++ ys) : ∀ x ∈ l, key x ∈ K := fun x hx =>
    List.mem_toFinset.2 (List.mem_map_of_mem (hl hx))
  rw [totalAt_group_eq_sum g (hK fun x hx => List.mem_append_left _ (List.mem_append_left _ hx)),
    totalAt_group_eq_sum g (hK fun x hx => List.mem_append_left _ (List.mem_append_right _ hx)),
    totalAt_group_eq_sum g (hK fun x hx => List.mem_append_right _ hx), ← Finset.sum_add_distrib]
  exact Finset.sum_congr rfl fun k _ => h k

end VpnHide
