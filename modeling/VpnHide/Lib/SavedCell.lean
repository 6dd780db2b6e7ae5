import Mathlib.Data.List.Perm.Basic
import Mathlib.Tactic.Common

/-!
# Values that are saved and put back

Users of a cell save what they find in it, may put a fixed value there later, and in the end put back what they have
saved. Saving and overwriting are two steps, so any number of users can save the same value, or the fixed value of
another user. The first value is there as long as the cell holds it or some user can put it back, and `Use.holds_iff`
says which step takes the last copy of it. Users that are nested in each other do not lose it.
-/

namespace VpnHide

/-- A cell, and what the users under way may put back. -/
structure SavedCell (V : Type) where
  cell : V
  saved : List V

namespace SavedCell
variable {V : Type} {s s' : SavedCell V} {first fixed v : V} {others : List V}

def save (s : SavedCell V) : SavedCell V := ⟨s.cell, s.cell :: s.saved⟩

/-- A step of a user, and on what condition it takes the last value that is not the fixed one. -/
inductive Use (fixed : V) (s : SavedCell V) : SavedCell V → Prop → Prop
  | keep {saved : List V} (h : s.saved.Perm saved) : Use fixed s ⟨s.cell, saved⟩ False
  | save : Use fixed s s.save False
  | overwrite {v : V} {others : List V} (h : s.saved.Perm (v :: others)) :
    Use fixed s ⟨fixed, v :: others⟩ (s.cell ≠ fixed ∧ v = fixed ∧ ∀ x ∈ others, x = fixed)
  | putBack {v : V} {others : List V} (h : s.saved.Perm (v :: others)) :
    Use fixed s ⟨v, others⟩ (s.cell ≠ fixed ∧ v = fixed ∧ ∀ x ∈ others, x = fixed)
  | forget {v : V} {others : List V} (h : s.saved.Perm (v :: others)) :
    Use fixed s ⟨s.cell, others⟩ (s.cell = fixed ∧ v ≠ fixed ∧ ∀ x ∈ others, x = fixed)

/-! ### The first value -/

def Holds (first : V) (s : SavedCell V) : Prop := first ∈ s.cell :: s.saved

/-- There is nothing but the first value and the fixed one. -/
def Within (first fixed : V) (s : SavedCell V) : Prop := ∀ v ∈ s.cell :: s.saved, v = first ∨ v = fixed

theorem Within.cell_eq (h : s.Within first fixed) : s.cell = first ∨ s.cell = fixed :=
  h s.cell (List.mem_cons_self ..)

theorem Within.cell_eq_fixed (h : s.Within first fixed) (hlost : ¬ s.Holds first) : s.cell = fixed :=
  h.cell_eq.resolve_left fun hcell => hlost (hcell ▸ List.mem_cons_self ..)

theorem Use.mem {lost : Prop} (h : Use fixed s s' lost) {x : V} (hx : x ∈ s'.cell :: s'.saved) :
    x = fixed ∨ x ∈ s.cell :: s.saved := by
  cases h with
  | keep h => exact .inr (by simpa [h.mem_iff] using hx)
  | save => exact .inr (by simpa [SavedCell.save] using hx)
  | overwrite h =>
    have := h.mem_iff (a := x)
    grind
  | putBack h =>
    have := h.mem_iff (a := x)
    grind
  | forget h =>
    have := h.mem_iff (a := x)
    grind

theorem Use.within {lost : Prop} (h : Use fixed s s' lost) (hs : s.Within first fixed) : s'.Within first fixed := by
  intro x hx
  rcases h.mem hx with rfl | hx
  · exact .inr rfl
  · exact hs x hx

theorem forall_eq_fixed_iff (hne : first ≠ fixed) (h : ∀ x ∈ others, x = first ∨ x = fixed) :
    (∀ x ∈ others, x = fixed) ↔ first ∉ others := by
  constructor
  · exact fun hall hmem => hne (hall first hmem)
  · exact fun hmem x hx => (h x hx).resolve_left fun hfirst => hmem (hfirst ▸ hx)

/-- A value that is gone does not come back, and it goes with exactly the steps that take the last copy. -/
theorem Use.holds_iff {lost : Prop} (hne : first ≠ fixed) (hs : s.Within first fixed) (h : Use fixed s s' lost) :
    s'.Holds first ↔ s.Holds first ∧ ¬ lost := by
  have hcell := hs.cell_eq
  have hvalues : ∀ {v : V} {others : List V}, s.saved.Perm (v :: others) →
      (v = first ∨ v = fixed) ∧ ((∀ x ∈ others, x = fixed) ↔ first ∉ others) ∧
        (s.Holds first ↔ first = s.cell ∨ first = v ∨ first ∈ others) := by
    intro v others hperm
    have hmem : ∀ x ∈ v :: others, x = first ∨ x = fixed :=
      fun x hx => hs x (List.mem_cons_of_mem _ (hperm.mem_iff.2 hx))
    refine ⟨hmem v (List.mem_cons_self ..), forall_eq_fixed_iff hne fun x hx => hmem x (List.mem_cons_of_mem _ hx), ?_⟩
    rw [Holds, List.mem_cons, hperm.mem_iff, List.mem_cons]
  cases h with
  | keep h => simp [Holds, h.mem_iff]
  | save => simp [Holds, SavedCell.save]
  | overwrite h | putBack h =>
    obtain ⟨hv, hothers, hholds⟩ := hvalues h
    rw [hholds, hothers, Holds]
    grind
  | forget h =>
    obtain ⟨hv, hothers, hholds⟩ := hvalues h
    rw [hholds, hothers, Holds]
    grind

/-! ### Users nested in each other -/

/-- Every user has put the fixed value there, and the first user has saved the first value. -/
def Nested (first fixed : V) (s : SavedCell V) : Prop := ∃ n, s.cell :: s.saved = List.replicate n fixed ++ [first]

/-- The same, with one more user that has saved what the cell still holds. -/
def Entered (first fixed : V) (s : SavedCell V) : Prop :=
  ∃ rest, s.saved = s.cell :: rest ∧ (⟨s.cell, rest⟩ : SavedCell V).Nested first fixed

theorem Nested.save (h : s.Nested first fixed) : s.save.Entered first fixed := ⟨s.saved, rfl, h⟩

theorem Entered.overwrite (h : s.Entered first fixed) : (⟨fixed, s.saved⟩ : SavedCell V).Nested first fixed := by
  obtain ⟨rest, hsaved, n, hn⟩ := h
  exact ⟨n + 1, by rw [hsaved, hn]; rfl⟩

theorem Entered.forget (h : s.Entered first fixed) (hs : s.saved = v :: others) :
    (⟨s.cell, others⟩ : SavedCell V).Nested first fixed := by
  obtain ⟨rest, hsaved, hrest⟩ := h
  rw [hs, List.cons.injEq] at hsaved
  rwa [hsaved.2]

theorem Nested.putBack (h : s.Nested first fixed) (hs : s.saved = v :: others) :
    (⟨v, others⟩ : SavedCell V).Nested first fixed := by
  obtain ⟨n, hn⟩ := h
  rw [hs] at hn
  cases n with
  | zero => simp at hn
  | succ n => exact ⟨n, (List.cons.inj hn).2⟩

theorem Nested.cell_eq (h : s.Nested first fixed) (hs : s.saved = []) : s.cell = first := by
  obtain ⟨n, hn⟩ := h
  rw [hs] at hn
  cases n with
  | zero => exact (List.cons.inj hn).1
  | succ n => simp [List.replicate_succ] at hn

end SavedCell

end VpnHide
