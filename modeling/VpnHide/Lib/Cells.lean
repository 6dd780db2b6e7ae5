import Mathlib.Data.List.Range

/-!
# Arrays that are written cell by cell

The memory of an array knows which places were written, also those it does not have. A loop that writes what a function
makes of a list, one after the other from the front, writes the places in front of its count (`mem_written_fill`), and
what is read back from them is what was written (`read_fill`).
-/

namespace VpnHide

variable {α β : Type}

/-- The cells of an array, `none` as long as nothing was written, and the places that were written. -/
structure Cells (β : Type) where
  cells : List (Option β)
  written : List ℕ

namespace Cells

def alloc (n : ℕ) : Cells β := ⟨List.replicate n none, []⟩

def write (m : Cells β) (i : ℕ) (y : β) : Cells β := ⟨m.cells.set i (some y), i :: m.written⟩

/-- The loop that writes `f x`, where there is one, to the next place. -/
def fill (f : α → Option β) : List α → ℕ → Cells β → Cells β
  | [], _, m => m
  | x :: xs, out, m => match f x with
    | none => fill f xs out m
    | some y => fill f xs (out + 1) (m.write out y)

/-- The first `n` cells; behind the end there is nothing that was written. -/
def read (m : Cells β) (n : ℕ) : List (Option β) := (List.range n).map fun i => m.cells[i]?.join

/-- Nothing was written outside. -/
def InBounds (m : Cells β) : Prop := ∀ i ∈ m.written, i < m.cells.length

theorem inBounds_alloc (n : ℕ) : (alloc n : Cells β).InBounds := by
  intro i hi
  cases hi

theorem length_alloc (n : ℕ) : (alloc n : Cells β).cells.length = n := List.length_replicate

variable {f : α → Option β} {xs : List α} {out : ℕ} {m : Cells β}

theorem length_fill : (fill f xs out m).cells.length = m.cells.length := by
  induction xs generalizing out m with
  | nil => rfl
  | cons x xs ih =>
    cases hx : f x with
    | none =>
      rw [fill, hx]
      exact ih
    | some y =>
      rw [fill, hx]
      exact ih.trans (List.length_set ..)

/-- The loop writes as many places as it has something to write, from `out` on. -/
theorem mem_written_fill {i : ℕ} (h : i ∈ (fill f xs out m).written) :
    i ∈ m.written ∨ out ≤ i ∧ i < out + (xs.filterMap f).length := by
  induction xs generalizing out m with
  | nil => exact .inl h
  | cons x xs ih =>
    cases hx : f x with
    | none =>
      rw [fill, hx] at h
      rw [List.filterMap_cons_none hx]
      exact ih h
    | some y =>
      rw [fill, hx] at h
      rw [List.filterMap_cons_some hx, List.length_cons]
      rcases ih h with hi | hi
      · rcases List.mem_cons.1 hi with rfl | hi
        · exact .inr (by omega)
        · exact .inl hi
      · exact .inr (by omega)

theorem InBounds.fill (h : m.InBounds) (hroom : out + (xs.filterMap f).length ≤ m.cells.length) :
    (fill f xs out m).InBounds := by
  intro i hi
  rw [length_fill]
  rcases mem_written_fill hi with hi | ⟨-, hi⟩
  · exact h i hi
  · omega

theorem getElem?_fill (hroom : out + (xs.filterMap f).length ≤ m.cells.length) (i : ℕ) :
    (fill f xs out m).cells[i]? =
      if out ≤ i ∧ i < out + (xs.filterMap f).length then (xs.filterMap f)[i - out]?.map some else m.cells[i]? := by
  induction xs generalizing out m with
  | nil =>
    rw [if_neg (by simp)]
    rfl
  | cons x xs ih =>
    cases hx : f x with
    | none =>
      rw [List.filterMap_cons_none hx] at hroom ⊢
      rw [fill, hx]
      exact ih hroom
    | some y =>
      rw [List.filterMap_cons_some hx, List.length_cons] at hroom
      rw [fill, hx, List.filterMap_cons_some hx, List.length_cons]
      have hlen : (m.write out y).cells.length = m.cells.length := List.length_set ..
      dsimp only
      rw [ih (by rw [hlen]; omega)]
      rcases lt_trichotomy i out with hlt | rfl | hgt
      · rw [if_neg (by omega), if_neg (by omega)]
        exact List.getElem?_set_ne (by omega)
      · rw [if_neg (by omega), if_pos (by omega), Nat.sub_self, List.getElem?_cons_zero]
        exact List.getElem?_set_self (by omega)
      · by_cases hin : i < out + 1 + (xs.filterMap f).length
        · rw [if_pos (by omega), if_pos (by omega), show i - out = i - (out + 1) + 1 by omega, List.getElem?_cons_succ]
        · rw [if_neg (by omega), if_neg (by omega)]
          exact List.getElem?_set_ne (by omega)

theorem read_fill (hroom : (xs.filterMap f).length ≤ m.cells.length) :
    (fill f xs 0 m).read (xs.filterMap f).length = (xs.filterMap f).map some := by
  refine List.ext_getElem (by simp [read]) fun i hi hi' => ?_
  have hlt : i < (xs.filterMap f).length := by simpa using hi'
  simp only [read, List.getElem_map, List.getElem_range]
  rw [getElem?_fill (by omega), if_pos (by omega), Nat.sub_zero, List.getElem?_eq_getElem hlt]
  rfl

end Cells

end VpnHide
