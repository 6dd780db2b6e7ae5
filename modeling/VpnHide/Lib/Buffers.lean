import Mathlib.Data.List.DropRight
import Mathlib.Data.List.Range
import Mathlib.Data.Nat.ModEq

/-!
# Buffers of fixed size

`fill` writes what a function makes of an array's elements into a buffer, from the front: the second pass of code
that first counts. `RingBuffer` is a queue in a circular array that forgets its oldest elements. A queue that drops
what has expired from its front, and then what exceeds its size, is a window on all that was ever put into it
(`rtake_filter_push`).
-/

namespace VpnHide

variable {α β : Type} {n : ℕ}

/-- The loop that writes `f x`, where there is one, to the next place of `buffer`. -/
def fill (f : α → Option β) : List α → ℕ → List β → List β
  | [], _, buffer => buffer
  | x :: xs, out, buffer => match f x with
    | none => fill f xs out buffer
    | some y => fill f xs (out + 1) (buffer.set out y)

/-- A buffer of the size that the first pass counted ends up full, and nothing is written outside. -/
theorem fill_eq (f : α → Option β) (xs : List α) (front rest : List β)
    (h : rest.length = (xs.filterMap f).length) :
    fill f xs front.length (front ++ rest) = front ++ xs.filterMap f := by
  induction xs generalizing front rest with
  | nil =>
    obtain rfl : rest = [] := List.length_eq_zero_iff.1 h
    rfl
  | cons x xs ih =>
    cases hx : f x with
    | none =>
      rw [List.filterMap_cons_none hx] at h ⊢
      rw [fill, hx]
      exact ih front rest h
    | some y =>
      rw [List.filterMap_cons_some hx] at h ⊢
      obtain ⟨z, rest, rfl⟩ := List.exists_cons_of_length_eq_add_one h
      have hnext := ih (front ++ [y]) rest (Nat.succ.inj h)
      rw [List.length_append, List.length_singleton, List.append_assoc, List.append_assoc] at hnext
      have hset : (front ++ z :: rest).set front.length y = front ++ ([y] ++ rest) := by
        rw [List.set_append_right _ _ (Nat.le_refl _), Nat.sub_self]
        rfl
      rw [fill, hx]
      dsimp only
      rw [hset, hnext]
      rfl

section Window
variable {p q : α → Bool} {xs : List α}

/-- What has expired is in front, so dropping it from the front drops all of it. -/
theorem dropWhile_eq_filter (h : xs.Pairwise fun a b => p b → p a) : xs.dropWhile p = xs.filter fun x => !p x := by
  induction xs with
  | nil => rfl
  | cons x xs ih =>
    obtain ⟨hx, hxs⟩ := List.pairwise_cons.1 h
    by_cases hp : p x = true
    · rw [List.dropWhile_cons_of_pos hp, List.filter_cons_of_neg (by simp [hp]), ih hxs]
    · have hall : ∀ y ∈ x :: xs, (!p y) = true := by
        intro y hy
        rcases List.mem_cons.1 hy with rfl | hy
        · simpa using hp
        · simpa using mt (hx y hy) hp
      rw [List.dropWhile_cons_of_neg hp, List.filter_eq_self.2 hall]

theorem filter_rtake (h : xs.Pairwise fun a b => p b → p a) (k : ℕ) :
    (xs.rtake k).filter (fun x => !p x) = (xs.filter fun x => !p x).rtake k := by
  induction xs using List.reverseRecOn generalizing k with
  | nil => simp
  | append_singleton xs x ih =>
    obtain ⟨hxs, -, hx⟩ := List.pairwise_append.1 h
    cases k with
    | zero => simp
    | succ k =>
      rw [List.rtake_concat_succ, List.filter_append, List.filter_append, ih hxs]
      by_cases hp : p x = true
      · -- then all of `xs` has expired as well
        have hnone : (xs.filter fun x => !p x) = [] := by
          rw [List.filter_eq_nil_iff]
          intro y hy
          simp [hx y hy x (List.mem_singleton_self x) hp]
        simp [hnone, hp]
      · rw [List.filter_cons_of_pos (by simpa using hp), List.filter_nil, List.rtake_concat_succ]

theorem rtake_rtake_concat (xs : List α) (x : α) (k : ℕ) : (xs.rtake k ++ [x]).rtake k = (xs ++ [x]).rtake k := by
  cases k with
  | zero => simp
  | succ k =>
    rw [List.rtake_concat_succ, List.rtake_concat_succ, List.rtake, List.rtake, List.rtake, List.length_drop,
      List.drop_drop]
    congr 2
    omega

/-- One more step of a window: more has expired (`q`), and there is a newest element. -/
theorem rtake_filter_push (hpq : ∀ x ∈ xs, p x → q x) (hq : xs.Pairwise fun a b => q b → q a) {x : α}
    (hx : q x = false) (k : ℕ) :
    (((xs.filter fun x => !p x).rtake k).dropWhile q ++ [x]).rtake k = ((xs ++ [x]).filter fun x => !q x).rtake k := by
  have hfilter : ((xs.filter fun x => !p x).filter fun x => !q x) = xs.filter fun x => !q x := by
    rw [List.filter_filter]
    refine List.filter_congr fun y hy => ?_
    have := hpq y hy
    revert this
    cases p y <;> cases q y <;> simp
  have hsorted := hq.sublist (List.filter_sublist (p := fun x => !p x))
  have hlast : ((xs.filter fun x => !p x).rtake k).Pairwise fun a b => q b → q a :=
    hsorted.sublist (List.drop_sublist ..)
  rw [dropWhile_eq_filter hlast, filter_rtake hsorted, hfilter, rtake_rtake_concat,
    List.filter_append, List.filter_cons_of_pos (by simp [hx]), List.filter_nil]

end Window

/-- `count` of the `n` slots are in use, from `head` on and around the end. -/
structure RingBuffer (α : Type) (n : ℕ) where
  slots : Vector α n
  head : ℕ
  count : ℕ
  head_lt : head < n
  count_le : count ≤ n

namespace RingBuffer

def slot (r : RingBuffer α n) (i : ℕ) : Fin n := ⟨(r.head + i) % n, Nat.mod_lt _ (Nat.zero_lt_of_lt r.head_lt)⟩

def get (r : RingBuffer α n) (i : ℕ) : α := r.slots.get (r.slot i)

/-- The elements, oldest first. -/
def contents (r : RingBuffer α n) : List α := (List.range r.count).map r.get

/-- Clears the oldest slot, which so becomes the one behind the newest. -/
def advance (zero : α) (r : RingBuffer α n) : RingBuffer α n where
  slots := r.slots.set r.head zero r.head_lt
  head := (r.head + 1) % n
  count := r.count
  head_lt := Nat.mod_lt _ (Nat.zero_lt_of_lt r.head_lt)
  count_le := r.count_le

def dropOldest (zero : α) (r : RingBuffer α n) : RingBuffer α n :=
  { r.advance zero with count := r.count - 1, count_le := Nat.le_trans (Nat.sub_le ..) r.count_le }

/-- Makes room for one more, at the cost of the oldest element if all slots are in use. -/
def makeRoom (zero : α) (r : RingBuffer α n) : RingBuffer α n :=
  if h : r.count = n then r.advance zero
  else { r with count := r.count + 1, count_le := Nat.lt_of_le_of_ne r.count_le h }

def setNewest (x : α) (r : RingBuffer α n) : RingBuffer α n :=
  { r with slots := r.slots.set (r.slot (r.count - 1)) x (r.slot (r.count - 1)).isLt }

def push (zero x : α) (r : RingBuffer α n) : RingBuffer α n := (r.makeRoom zero).setNewest x

section Lemmas
variable {r : RingBuffer α n} {zero x : α} {i j : ℕ}

theorem slot_inj (hi : i < n) (hj : j < n) : r.slot i = r.slot j ↔ i = j := by
  refine ⟨fun h => ?_, fun h => h ▸ rfl⟩
  have hmod : r.head + i ≡ r.head + j [MOD n] := congrArg Fin.val h
  exact Nat.ModEq.eq_of_lt_of_lt hmod.add_left_cancel' hi hj

theorem slot_zero : (r.slot 0).val = r.head := Nat.mod_eq_of_lt r.head_lt

theorem get_advance (h : i + 1 < n) : (r.advance zero).get i = r.get (i + 1) := by
  have hslot : (r.advance zero).slot i = r.slot (i + 1) := by
    refine Fin.ext ?_
    show ((r.head + 1) % n + i) % n = (r.head + (i + 1)) % n
    rw [Nat.mod_add_mod, Nat.add_right_comm, Nat.add_assoc]
  have hne : r.head ≠ (r.slot (i + 1)).val := by
    intro heq
    have hzero : r.slot 0 = r.slot (i + 1) := Fin.ext (slot_zero.trans heq)
    exact absurd ((slot_inj (by omega) h).1 hzero) (by omega)
  rw [get, hslot]
  exact Vector.getElem_set_ne r.head_lt (r.slot (i + 1)).isLt hne

theorem contents_succ {c : ℕ} (h : r.count = c + 1) :
    r.contents = r.get 0 :: (List.range c).map fun i => r.get (i + 1) := by
  rw [contents, h, List.range_succ_eq_map, List.map_cons, List.map_map]
  rfl

theorem tail_contents : r.contents.tail = (List.range (r.count - 1)).map fun i => r.get (i + 1) := by
  cases hcount : r.count with
  | zero =>
    rw [contents, hcount]
    rfl
  | succ c =>
    rw [contents_succ hcount]
    rfl

@[simp] theorem contents_dropOldest : (r.dropOldest zero).contents = r.contents.tail := by
  rw [tail_contents]
  refine List.map_congr_left fun i hi => ?_
  have hi : i < r.count - 1 := List.mem_range.1 hi
  have hle := r.count_le
  exact get_advance (by omega)

theorem contents_setNewest {c : ℕ} (h : r.count = c + 1) :
    (r.setNewest x).contents = (List.range c).map r.get ++ [x] := by
  have hle := r.count_le
  have hother : ∀ i < c, (r.setNewest x).get i = r.get i := by
    intro i hi
    have hne : (r.slot (r.count - 1)).val ≠ (r.slot i).val := fun heq =>
      absurd ((slot_inj (by omega) (by omega)).1 (Fin.ext heq)) (by omega)
    exact Vector.getElem_set_ne (r.slot (r.count - 1)).isLt (r.slot i).isLt hne
  have hnew : (r.setNewest x).get c = x := by
    obtain rfl : c = r.count - 1 := by omega
    exact Vector.getElem_set_self (r.slot (r.count - 1)).isLt
  have hcount : (r.setNewest x).count = c + 1 := h
  rw [contents, hcount, List.range_succ, List.map_append, List.map_singleton, hnew]
  congr 1
  exact List.map_congr_left fun i hi => hother i (List.mem_range.1 hi)

theorem contents_push : (r.push zero x).contents = (if r.count = n then r.contents.tail else r.contents) ++ [x] := by
  have hhead := r.head_lt
  unfold push makeRoom
  by_cases hfull : r.count = n
  · obtain ⟨c, hc⟩ : ∃ c, r.count = c + 1 := ⟨r.count - 1, by omega⟩
    have hcount : (r.advance zero).count = c + 1 := hc
    rw [dif_pos hfull, if_pos hfull, contents_setNewest hcount, tail_contents, hc, Nat.add_sub_cancel]
    congr 1
    refine List.map_congr_left fun i hi => get_advance ?_
    have := List.mem_range.1 hi
    omega
  · rw [dif_neg hfull, if_neg hfull, contents_setNewest rfl]
    rfl

theorem length_contents : r.contents.length = r.count := by rw [contents, List.length_map, List.length_range]

theorem count_push : (r.push zero x).count = if r.count = n then r.count else r.count + 1 := by
  unfold push makeRoom
  split_ifs <;> rfl

theorem contents_push_eq_rtake : (r.push zero x).contents = (r.contents ++ [x]).rtake n := by
  have hhead := r.head_lt
  have hle := r.count_le
  obtain ⟨n, rfl⟩ : ∃ m, n = m + 1 := ⟨n - 1, by omega⟩
  rw [contents_push, List.rtake_concat_succ, List.rtake, length_contents]
  by_cases hfull : r.count = n + 1
  · rw [if_pos hfull, hfull, Nat.add_sub_cancel_left, List.drop_one]
  · rw [if_neg hfull, Nat.sub_eq_zero_of_le (by omega), List.drop_zero]

end Lemmas

end RingBuffer

end VpnHide
