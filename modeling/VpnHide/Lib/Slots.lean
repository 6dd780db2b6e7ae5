import Mathlib.Data.List.Perm.Subperm

/-!
# Slots that are used or free

A new item is put in the first free slot. As long as the items have distinct keys out of fewer keys than there are
slots, there is one (`exists_free_of_keys`), and the used slots then hold the new item and those they held before
(`filter_storeFree`).
-/

namespace VpnHide

variable {α κ : Type} {used : α → Bool} {new : α} {slots : List α}

/-- Puts an item in the first slot that is not used; if all are used, it is dropped. -/
def storeFree (used : α → Bool) (new : α) : List α → List α
  | [] => []
  | a :: slots => if used a then a :: storeFree used new slots else new :: slots

theorem length_storeFree (used : α → Bool) (new : α) (slots : List α) :
    (storeFree used new slots).length = slots.length := by
  induction slots with
  | nil => rfl
  | cons a slots ih =>
    rw [storeFree]
    split_ifs
    · rw [List.length_cons, ih, List.length_cons]
    · rfl

theorem filter_storeFree (hnew : used new) (h : ∃ a ∈ slots, used a = false) :
    ((storeFree used new slots).filter used).Perm (new :: slots.filter used) := by
  induction slots with
  | nil =>
    obtain ⟨a, ha, -⟩ := h
    cases ha
  | cons a slots ih =>
    rw [storeFree]
    by_cases ha : used a
    · rw [if_pos ha, List.filter_cons_of_pos ha, List.filter_cons_of_pos ha]
      have hrest : ∃ b ∈ slots, used b = false := by
        obtain ⟨b, hb, hfree⟩ := h
        rcases List.mem_cons.1 hb with rfl | hb
        · rw [hfree] at ha
          cases ha
        · exact ⟨b, hb, hfree⟩
      exact ((ih hrest).cons a).trans (List.Perm.swap ..)
    · rw [if_neg ha, List.filter_cons_of_neg ha, List.filter_cons_of_pos hnew]

theorem filter_release {release : α → α} (hfree : ∀ a, used (release a) = false) (p : α → Bool) (slots : List α) :
    (slots.map fun a => if used a && p a then release a else a).filter used =
      (slots.filter used).filter fun a => !p a := by
  induction slots with
  | nil => rfl
  | cons a slots ih =>
    rw [List.map_cons]
    cases ha : used a with
    | false =>
      rw [Bool.false_and, if_neg Bool.false_ne_true, List.filter_cons_of_neg (by simp [ha]), ih,
        List.filter_cons_of_neg (by simp [ha])]
    | true =>
      rw [Bool.true_and, List.filter_cons_of_pos ha]
      cases hp : p a with
      | true => rw [if_pos rfl, List.filter_cons_of_neg (by simp [hfree]), ih, List.filter_cons_of_neg (by simp [hp])]
      | false =>
        rw [if_neg Bool.false_ne_true, List.filter_cons_of_pos ha, ih, List.filter_cons_of_pos (by simp [hp])]

theorem exists_free_of_keys {key : α → κ} {keys : List κ} (hn : ((slots.filter used).map key).Nodup)
    (hmem : ∀ a ∈ slots, used a → key a ∈ keys) (hlt : keys.length < slots.length) : ∃ a ∈ slots, used a = false := by
  by_contra hall
  have hfull : slots.filter used = slots := by
    refine List.filter_eq_self.2 fun a ha => ?_
    by_contra hfree
    exact hall ⟨a, ha, eq_false_of_ne_true hfree⟩
  have hsubset : slots.map key ⊆ keys := by
    intro k hk
    obtain ⟨a, ha, rfl⟩ := List.mem_map.1 hk
    exact hmem a ha (List.filter_eq_self.1 hfull a ha)
  rw [hfull] at hn
  have hle := (List.subperm_of_subset hn hsubset).length_le
  rw [List.length_map] at hle
  omega

end VpnHide
