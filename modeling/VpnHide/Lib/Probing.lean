import Mathlib.Data.Nat.Basic
import Mathlib.Logic.Function.Basic

/-!
# Open addressing with linear probing

A hash table of `n` slots. The slots of a key are visited from its home position on, round the end of the
array. `Probed` is the invariant that makes a scan trustworthy: a key sits in one slot, and no slot in front of
it in its own visiting order has always been empty. Entries may be buried but a used slot never becomes
empty again, so a scan that meets an empty slot, or all slots, has seen the key if it is there.
-/

namespace VpnHide

/-- What a slot holds: nothing so far, an entry since removed, or the entry of a key. -/
inductive SlotKind (κ : Type)
  | empty
  | dead
  | used (k : κ)

variable {κ : Type} {n : ℕ}

/-- The slot visited `d` steps after position `h`. -/
def slotAt (n h d : ℕ) : ℕ := (h + d) % n

theorem slotAt_lt (hn : 0 < n) (h d : ℕ) : slotAt n h d < n := Nat.mod_lt _ hn

theorem exists_slotAt {i : ℕ} (hi : i < n) (h : ℕ) : ∃ d < n, slotAt n h d = i := by
  have hn : 0 < n := Nat.zero_lt_of_lt hi
  have hle : h % n ≤ n := Nat.le_of_lt (Nat.mod_lt h hn)
  refine ⟨(i + (n - h % n)) % n, Nat.mod_lt _ hn, ?_⟩
  calc slotAt n h ((i + (n - h % n)) % n)
      = (h % n + (i + (n - h % n))) % n := by rw [slotAt, Nat.add_mod_mod, Nat.mod_add_mod]
    _ = (i + n) % n := by congr 1; omega
    _ = i := by rw [Nat.add_mod_right, Nat.mod_eq_of_lt hi]

/-- One slot for each key, reached from its home position without meeting an empty slot. -/
structure Probed (n : ℕ) (home : κ → ℕ) (kind : ℕ → SlotKind κ) : Prop where
  unique : ∀ i j k, i < n → j < n → kind i = .used k → kind j = .used k → i = j
  reach : ∀ i k, i < n → kind i = .used k →
    ∃ d < n, slotAt n (home k) d = i ∧ ∀ d' < d, kind (slotAt n (home k) d') ≠ .empty

/-- The first `d` slots of `k` are neither empty nor its own. -/
def Passed (n : ℕ) (home : κ → ℕ) (kind : ℕ → SlotKind κ) (k : κ) (d : ℕ) : Prop :=
  ∀ d' < d, kind (slotAt n (home k) d') ≠ .empty ∧ kind (slotAt n (home k) d') ≠ .used k

theorem Passed.succ {home : κ → ℕ} {kind : ℕ → SlotKind κ} {k : κ} {d : ℕ} (h : Passed n home kind k d)
    (hempty : kind (slotAt n (home k) d) ≠ .empty) (hkey : kind (slotAt n (home k) d) ≠ .used k) :
    Passed n home kind k (d + 1) := by
  intro d' hd'
  rcases Nat.lt_succ_iff_lt_or_eq.1 hd' with hlt | rfl
  · exact h d' hlt
  · exact ⟨hempty, hkey⟩

namespace Probed
variable {home : κ → ℕ} {kind kind' : ℕ → SlotKind κ} {k : κ} {d : ℕ}

theorem of_empty (h : ∀ i < n, kind i = .empty) : Probed n home kind where
  unique i j k hi _ hused _ := by rw [h i hi] at hused; cases hused
  reach i k hi hused := by rw [h i hi] at hused; cases hused

theorem absent_of_empty (h : Probed n home kind) (hpassed : Passed n home kind k d)
    (hempty : kind (slotAt n (home k) d) = .empty) {i : ℕ} (hi : i < n) : kind i ≠ .used k := by
  intro hused
  obtain ⟨d₀, -, rfl, hbefore⟩ := h.reach i k hi hused
  rcases Nat.lt_trichotomy d₀ d with hlt | rfl | hgt
  · exact (hpassed d₀ hlt).2 hused
  · rw [hempty] at hused
    cases hused
  · exact hbefore d hgt hempty

theorem absent_of_full (hpassed : Passed n home kind k n) {i : ℕ} (hi : i < n) : kind i ≠ .used k := by
  obtain ⟨d, hd, rfl⟩ := exists_slotAt hi (home k)
  exact (hpassed d hd).2

/-- Burying entries, or changing what is stored with them, keeps the invariant. -/
theorem mono (h : Probed n home kind) (hused : ∀ i k, kind' i = .used k → kind i = .used k)
    (hempty : ∀ i, kind' i = .empty → kind i = .empty) : Probed n home kind' where
  unique i j k hi hj hki hkj := h.unique i j k hi hj (hused i k hki) (hused j k hkj)
  reach i k hi hki := by
    obtain ⟨d, hd, hslot, hbefore⟩ := h.reach i k hi (hused i k hki)
    exact ⟨d, hd, hslot, fun d' hd' he => hbefore d' hd' (hempty _ he)⟩

/-- A new key may take any slot in front of which its scan has met no empty one. -/
theorem insert (h : Probed n home kind) (habsent : ∀ i < n, kind i ≠ .used k) (hd : d < n)
    (hbefore : ∀ d' < d, kind (slotAt n (home k) d') ≠ .empty)
    (hfree : ∀ k', kind (slotAt n (home k) d) ≠ .used k') :
    Probed n home (Function.update kind (slotAt n (home k) d) (.used k)) := by
  have hsame {i : ℕ} {k' : κ} (hk : Function.update kind (slotAt n (home k) d) (.used k) i = .used k') :
      (i = slotAt n (home k) d ∧ k' = k) ∨ (i ≠ slotAt n (home k) d ∧ kind i = .used k') := by
    by_cases hi : i = slotAt n (home k) d
    · rw [hi, Function.update_self] at hk
      cases hk
      exact .inl ⟨hi, rfl⟩
    · rw [Function.update_of_ne hi] at hk
      exact .inr ⟨hi, hk⟩
  have hstill {i : ℕ} (hi : kind i ≠ .empty) :
      Function.update kind (slotAt n (home k) d) (.used k) i ≠ .empty := by
    by_cases hi' : i = slotAt n (home k) d
    · rw [hi', Function.update_self]
      nofun
    · rwa [Function.update_of_ne hi']
  constructor
  · intro i j k' hi hj hki hkj
    rcases hsame hki with ⟨rfl, rfl⟩ | ⟨-, hki⟩ <;> rcases hsame hkj with ⟨hj', hk⟩ | ⟨-, hkj⟩
    · exact hj'.symm
    · exact absurd hkj (habsent j hj)
    · exact absurd (hk ▸ hki) (habsent i hi)
    · exact h.unique i j k' hi hj hki hkj
  · intro i k' hi hki
    rcases hsame hki with ⟨rfl, rfl⟩ | ⟨-, hki⟩
    · exact ⟨d, hd, rfl, fun d' hd' => hstill (hbefore d' hd')⟩
    · obtain ⟨d₀, hd₀, hslot, hbefore₀⟩ := h.reach i k' hi hki
      exact ⟨d₀, hd₀, hslot, fun d' hd' => hstill (hbefore₀ d' hd')⟩

end Probed

theorem exists_used_update {kind : ℕ → SlotKind κ} {j : ℕ} {k x : κ} (hj : j < n) (hfree : ∀ k', kind j ≠ .used k') :
    (∃ i < n, Function.update kind j (.used k) i = .used x) ↔ (∃ i < n, kind i = .used x) ∨ x = k := by
  constructor
  · rintro ⟨i, hi, hused⟩
    by_cases hij : i = j
    · rw [hij, Function.update_self] at hused
      exact .inr (SlotKind.used.inj hused).symm
    · rw [Function.update_of_ne hij] at hused
      exact .inl ⟨i, hi, hused⟩
  · rintro (⟨i, hi, hused⟩ | rfl)
    · have hij : i ≠ j := fun h => hfree x (h ▸ hused)
      exact ⟨i, hi, by rw [Function.update_of_ne hij, hused]⟩
    · exact ⟨j, hj, Function.update_self ..⟩

end VpnHide
