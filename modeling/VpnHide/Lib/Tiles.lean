import Mathlib.Data.List.Basic
import Mathlib.Data.List.Perm.Basic

/-!
# Consecutive slices of an array

`Tiles spans a b`: the spans `(offset, length)` follow one another without gap or overlap from `a`
to `b`. `mapTiles` rewrites an array slice by slice, as a loop does that sorts sub-ranges in place.
-/

namespace VpnHide

variable {α : Type}

/-- The spans cover `[a, b)` in order. -/
def Tiles : List (Nat × Nat) → Nat → Nat → Prop
  | [], a, b => a = b
  | (off, len) :: rest, a, b => off = a ∧ Tiles rest (a + len) b

/-- The elements `xs[off], …, xs[off + len - 1]`. -/
def slice (xs : List α) (off len : Nat) : List α := (xs.drop off).take len

/-- `f` applied to consecutive slices of the given lengths. -/
def mapTiles (f : List α → List α) : List Nat → List α → List α
  | [], xs => xs
  | n :: ns, xs => f (xs.take n) ++ mapTiles f ns (xs.drop n)

namespace Tiles
variable {spans : List (Nat × Nat)} {a b : Nat}

@[simp] theorem nil_iff : Tiles [] a b ↔ a = b := Iff.rfl

@[simp] theorem cons_iff {off len : Nat} :
    Tiles ((off, len) :: spans) a b ↔ off = a ∧ Tiles spans (a + len) b := Iff.rfl

theorem le (h : Tiles spans a b) : a ≤ b := by
  induction spans generalizing a with
  | nil => exact Nat.le_of_eq h
  | cons s rest ih => exact Nat.le_trans (Nat.le_add_right a s.2) (ih h.2)

theorem mem_bounds (h : Tiles spans a b) {s : Nat × Nat} (hs : s ∈ spans) :
    a ≤ s.1 ∧ s.1 + s.2 ≤ b := by
  induction spans generalizing a with
  | nil => simp at hs
  | cons t rest ih =>
    obtain ⟨ht, hrest⟩ := h
    rcases List.mem_cons.1 hs with rfl | hs
    · exact ⟨Nat.le_of_eq ht.symm, ht ▸ hrest.le⟩
    · obtain ⟨hlo, hhi⟩ := ih hrest hs
      exact ⟨Nat.le_trans (Nat.le_add_right a t.2) hlo, hhi⟩

end Tiles

theorem mem_of_mem_slice {xs : List α} {off len : Nat} {x : α} (h : x ∈ slice xs off len) : x ∈ xs :=
  List.mem_of_mem_drop (List.mem_of_mem_take h)

section MapTiles
variable {f : List α → List α}

theorem mapTiles_perm (hf : ∀ l, (f l).Perm l) (ns : List Nat) (xs : List α) :
    (mapTiles f ns xs).Perm xs := by
  induction ns generalizing xs with
  | nil => exact .refl xs
  | cons n ns ih =>
    have h := (hf (xs.take n)).append (ih (xs.drop n))
    rwa [List.take_append_drop] at h

theorem slice_mapTiles (hf : ∀ l, (f l).length = l.length) {spans : List (Nat × Nat)} {a b : Nat}
    (h : Tiles spans a b) {xs : List α} (hlen : a + xs.length = b) {s : Nat × Nat} (hs : s ∈ spans) :
    slice (mapTiles f (spans.map Prod.snd) xs) (s.1 - a) s.2 = f (slice xs (s.1 - a) s.2) := by
  induction spans generalizing a xs with
  | nil => simp at hs
  | cons t rest ih =>
    obtain ⟨ht, hrest⟩ := h
    have hle := hrest.le
    have hfl : (f (xs.take t.2)).length = t.2 := by
      rw [hf, List.length_take]; omega
    rcases List.mem_cons.1 hs with rfl | hs
    · simp only [List.map_cons, mapTiles, slice, ht, Nat.sub_self, List.drop_zero]
      exact List.take_left' hfl
    · have hlo := (hrest.mem_bounds hs).1
      have hoff : s.1 - a = t.2 + (s.1 - (a + t.2)) := by omega
      have hlen' : a + t.2 + (xs.drop t.2).length = b := by rw [List.length_drop]; omega
      have htail := ih hrest hlen' hs
      -- both sides skip the first tile
      have hskip : slice (mapTiles f ((t :: rest).map Prod.snd) xs) (s.1 - a) s.2 =
          slice (mapTiles f (rest.map Prod.snd) (xs.drop t.2)) (s.1 - (a + t.2)) s.2 := by
        rw [List.map_cons, mapTiles, slice, hoff, ← List.drop_drop, List.drop_left' hfl, slice]
      rw [hskip, htail, slice, slice, List.drop_drop, hoff]

end MapTiles

end VpnHide
