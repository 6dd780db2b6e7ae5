import Mathlib.Data.Nat.Bitwise
import Mathlib.Tactic.Common

/-!
# Sequence locks

A value of several words is stored under a sequence number that is odd while its words change. A reader notes an even
number, loads the words one at a time and in any order, and looks at the number again. If it is still the same, and has
not gone once around, the reader holds the value that was stored when it noted the number.
-/

namespace VpnHide

/-- A value that is stored and loaded one word at a time. -/
structure Words (δ ι V : Type) [DecidableEq ι] where
  get : δ → ι → V
  /-- `dst` with one word of `src`. -/
  copy : ι → δ → δ → δ
  get_copy : ∀ i src dst j, get (copy i src dst) j = if j = i then get src j else get dst j
  ext : ∀ {d d'}, (∀ i, get d i = get d' i) → d = d'

/-- The words that have been copied are those of `src`, in whatever order, and the others are as before. -/
theorem Words.get_foldr_copy {δ ι V : Type} [DecidableEq ι] (W : Words δ ι V) (src dst : δ) (copied : List ι) (j : ι) :
    W.get (copied.foldr (fun i d => W.copy i src d) dst) j = if j ∈ copied then W.get src j else W.get dst j := by
  induction copied with
  | nil => rfl
  | cons i copied ih =>
    rw [List.foldr_cons, W.get_copy, ih]
    by_cases hji : j = i <;> simp [hji]

theorem Words.foldr_copy_all {δ ι V : Type} [DecidableEq ι] (W : Words δ ι V) (src dst : δ) {copied : List ι}
    (hall : ∀ i, i ∈ copied) : copied.foldr (fun i d => W.copy i src d) dst = src :=
  W.ext fun i => by rw [W.get_foldr_copy, if_pos (hall i)]

/-- A value under its sequence number. -/
structure Guarded (δ : Type) where
  seq : UInt32
  data : δ

namespace Guarded
variable {δ : Type} {c c' c'' : Guarded δ} {m n : ℕ}

/-- No writer is between its two increments. -/
def Settled (c : Guarded δ) : Prop := c.seq &&& 1 = 0

/-- From the first state to the second the number has been incremented `n` times; if it has not been incremented at all
and was even, the value is the same. -/
def Moves (c c' : Guarded δ) (n : ℕ) : Prop := c'.seq = c.seq + .ofNat n ∧ (n = 0 → c.Settled → c'.data = c.data)

theorem Moves.refl (c : Guarded δ) : c.Moves c 0 := ⟨(UInt32.add_zero c.seq).symm, fun _ _ => rfl⟩

theorem Moves.increment (hseq : c'.seq = c.seq + 1) : c.Moves c' 1 :=
  ⟨hseq, fun h => absurd h Nat.one_ne_zero⟩

theorem Moves.store (hseq : c'.seq = c.seq) (hodd : ¬ c.Settled) : c.Moves c' 0 :=
  ⟨by rw [hseq]; exact (UInt32.add_zero c.seq).symm, fun _ hs => absurd hs hodd⟩

theorem Moves.trans (h : c.Moves c' m) (h' : c'.Moves c'' n) : c.Moves c'' (m + n) := by
  refine ⟨?_, fun hz hs => ?_⟩
  · rw [h'.1, h.1, UInt32.add_assoc, UInt32.ofNat_add]
  · obtain ⟨rfl, rfl⟩ := Nat.add_eq_zero_iff.1 hz
    have hseq : c'.seq = c.seq := h.1.trans (UInt32.add_zero c.seq)
    have hs' : c'.Settled := by rwa [Settled, hseq]
    rw [h'.2 rfl hs', h.2 rfl hs]

end Guarded

/-- A number that has been incremented fewer than `2 ^ 32` times and is the same has not been incremented. -/
theorem eq_zero_of_add_ofNat {s : UInt32} {n : ℕ} (hn : n < 2 ^ 32) (h : s + .ofNat n = s) : n = 0 := by
  have hs := s.toNat_lt
  have htoNat := congrArg UInt32.toNat h
  rw [UInt32.toNat_add, UInt32.toNat_ofNat', Nat.mod_eq_of_lt hn] at htoNat
  omega

section Reading
variable {δ ι V : Type} [DecidableEq ι] {W : Words δ ι V} {c₀ c c' : Guarded δ} {loaded : List ι} {mine : δ} {n k : ℕ}

/-- A reader that noted the number in state `c₀` and has loaded some words into `mine`; now the state is `c`, `n`
increments later. -/
structure Reading (W : Words δ ι V) (c₀ c : Guarded δ) (loaded : List ι) (mine : δ) (n : ℕ) : Prop where
  settled : c₀.Settled
  moves : c₀.Moves c n
  words : n = 0 → ∀ i ∈ loaded, W.get mine i = W.get c₀.data i

namespace Reading

theorem start (W : Words δ ι V) (h : c₀.Settled) (mine : δ) : Reading W c₀ c₀ [] mine 0 :=
  ⟨h, .refl c₀, fun _ i hi => by cases hi⟩

theorem move (h : Reading W c₀ c loaded mine n) (hmove : c.Moves c' k) : Reading W c₀ c' loaded mine (n + k) :=
  ⟨h.settled, h.moves.trans hmove, fun hz => h.words (Nat.add_eq_zero_iff.1 hz).1⟩

theorem load (h : Reading W c₀ c loaded mine n) (i : ι) : Reading W c₀ c (i :: loaded) (W.copy i c.data mine) n := by
  refine ⟨h.settled, h.moves, fun hz j hj => ?_⟩
  have hdata : c.data = c₀.data := h.moves.2 hz h.settled
  rw [W.get_copy, hdata]
  split_ifs with hji
  · rfl
  · rcases List.mem_cons.1 hj with rfl | hj
    · exact absurd rfl hji
    · exact h.words hz j hj

/-- The check at the end: the number is the same, so the value is the one that was there when it was noted, and it is
there still. -/
theorem whole (h : Reading W c₀ c loaded mine n) (hall : ∀ i, i ∈ loaded) (hn : n < 2 ^ 32) (hseq : c.seq = c₀.seq) :
    mine = c₀.data ∧ c.data = c₀.data := by
  have hz : n = 0 := eq_zero_of_add_ofNat hn (h.moves.1.symm.trans hseq)
  exact ⟨W.ext fun i => h.words hz i (hall i), h.moves.2 hz h.settled⟩

end Reading

end Reading

end VpnHide
