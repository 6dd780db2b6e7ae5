import Mathlib.Algebra.Order.Group.Unbundled.Int
import Mathlib.Data.List.Basic

/-!
# Token buckets

A bucket gains one token for every full period since the instant up to which it is accounted for. One that has been idle
for as long as it takes to fill up can be taken from (`take_of_idle`). Periods are counted from some base, and a span of
time has as many as fit into it, or one more (`ticks_sub_le`). Buckets are kept in a table, one for each owner.
-/

namespace VpnHide

structure Bucket where
  level : ℕ
  /-- the instant up to which tokens were gained -/
  last : ℕ
  deriving DecidableEq, Repr

namespace Bucket

/-- A full bucket keeps no part of a period. -/
def refill (cap period : ℕ) (b : Bucket) (now : ℕ) : Bucket :=
  let level := b.level + (now - b.last) / period
  if cap ≤ level then ⟨cap, now⟩ else ⟨level, b.last + (now - b.last) / period * period⟩

def take (cost : ℕ) (b : Bucket) : Bucket × Bool :=
  if cost ≤ b.level then (⟨b.level - cost, b.last⟩, true) else (b, false)

variable {cap period cost now : ℕ} {b : Bucket}

theorem refill_of_full (h : cap ≤ b.level + (now - b.last) / period) : refill cap period b now = ⟨cap, now⟩ := if_pos h

theorem level_refill_le : (refill cap period b now).level ≤ cap := by
  unfold refill
  dsimp only
  split_ifs with h
  · exact le_rfl
  · exact (not_le.1 h).le

theorem last_refill_le (h : b.last ≤ now) : (refill cap period b now).last ≤ now := by
  unfold refill
  dsimp only
  split_ifs
  · exact le_rfl
  · have hle := Nat.div_mul_le_self (now - b.last) period
    dsimp only
    omega

theorem last_take : (take cost b).1.last = b.last := by
  unfold take
  split_ifs <;> rfl

theorem level_take_lt (hcost : 0 < cost) (hcap : cost ≤ cap) (h : b.level ≤ cap) : (take cost b).1.level < cap := by
  unfold take
  split_ifs with hb
  · dsimp only
    omega
  · dsimp only
    omega

theorem take_of_idle (hperiod : 0 < period) (hcost : cost ≤ cap) (h : b.last + cap * period ≤ now) :
    (take cost (refill cap period b now)).2 = true := by
  have hfull : cap ≤ (now - b.last) / period := (Nat.le_div_iff_mul_le hperiod).2 (by omega)
  rw [refill_of_full (hfull.trans (Nat.le_add_left ..)), take, if_pos hcost]

end Bucket

/-! ### Counting periods -/

/-- The periods between the base and the instant. -/
def ticks (period base t : ℤ) : ℤ := (t - base) / period

theorem ticks_mono {period : ℤ} (hperiod : 0 < period) (base : ℤ) {s t : ℤ} (h : s ≤ t) :
    ticks period base s ≤ ticks period base t := Int.ediv_le_ediv hperiod (by omega)

theorem ticks_sub_le {period : ℤ} (hperiod : 0 < period) (base s t : ℤ) :
    ticks period base t - ticks period base s ≤ (t - s) / period + 1 := by
  have hs := Int.ediv_mul_add_emod (s - base) period
  have ht := Int.ediv_mul_add_emod (t - s) period
  have hs' := Int.emod_lt_of_pos (s - base) hperiod
  have ht' := Int.emod_lt_of_pos (t - s) hperiod
  have hlt : ticks period base t < ticks period base s + (t - s) / period + 2 := by
    refine Int.ediv_lt_of_lt_mul hperiod ?_
    rw [Int.add_mul, Int.add_mul, ticks]
    omega
  omega

theorem ticks_of_aligned {period base last t : ℤ} (h : period ∣ last - base) :
    ticks period base t = (last - base) / period + (t - last) / period := by
  have heq : t - base = (last - base) + (t - last) := by omega
  rw [ticks, heq, Int.add_ediv_of_dvd_left h]

/-! ### Tables -/

section Tables
variable {α : Type}

/-- The first entry that satisfies `p` is changed. -/
def updateFirst (p : α → Bool) (f : α → α) : List α → List α
  | [] => []
  | x :: xs => if p x then f x :: xs else x :: updateFirst p f xs

variable {p q : α → Bool} {f : α → α}

theorem find?_updateFirst (hf : ∀ x, p x → p (f x)) (xs : List α) :
    (updateFirst p f xs).find? p = (xs.find? p).map f := by
  induction xs with
  | nil => rfl
  | cons x xs ih =>
    rw [updateFirst]
    by_cases hx : p x
    · rw [if_pos hx, List.find?_cons_of_pos (hf x hx), List.find?_cons_of_pos hx, Option.map_some]
    · rw [if_neg hx, List.find?_cons_of_neg hx, List.find?_cons_of_neg hx, ih]

theorem find?_updateFirst_of_disjoint (hf : ∀ x, p x → p (f x)) (hpq : ∀ x, p x → ¬ q x) (xs : List α) :
    (updateFirst p f xs).find? q = xs.find? q := by
  induction xs with
  | nil => rfl
  | cons x xs ih =>
    rw [updateFirst]
    by_cases hx : p x
    · rw [if_pos hx, List.find?_cons_of_neg (hpq _ (hf x hx)), List.find?_cons_of_neg (hpq x hx)]
    · rw [if_neg hx, List.find?_cons, List.find?_cons, ih]

end Tables

end VpnHide
