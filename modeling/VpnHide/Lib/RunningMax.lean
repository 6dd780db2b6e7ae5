import Mathlib.Order.Lattice
import Mathlib.Data.List.Induction

/-!
# Running maxima

A loop that keeps the best element so far changes its mind at the `records` of the list. The last record is the first
element with a maximal key (`getLast?_records`), and a loop that does nothing at the other elements is a fold over the
records (`foldl_eq_foldl_records`).
-/

namespace VpnHide

section Defs
variable {α β : Type} [LT β] [DecidableLT β] (f : α → β)

/-- The first element whose key is not below another one. -/
def firstMax (xs : List α) : Option α := (xs.filter fun x => xs.all fun y => ¬ f x < f y).head?

/-- The key of `x` is above that of the best element so far. -/
def Beats (best : Option α) (x : α) : Prop := ∀ c ∈ best, f c < f x

omit [DecidableLT β] in
theorem beats_some {c x : α} : Beats f (some c) x ↔ f c < f x :=
  ⟨fun h => h c rfl, fun h _ hc => Option.some.inj hc ▸ h⟩

instance (best : Option α) (x : α) : Decidable (Beats f best x) :=
  match best with
  | none => isTrue nofun
  | some _ => decidable_of_iff _ (beats_some f).symm

/-- The elements with a key above those of all elements in front. -/
def records : Option α → List α → List α
  | _, [] => []
  | best, x :: xs => if Beats f best x then x :: records (some x) xs else records best xs

end Defs

section LinearOrder
variable {α β : Type} [LinearOrder β] (f : α → β) {c x : α}

theorem firstMax_of_lt (h : f c < f x) (xs : List α) : firstMax f (c :: x :: xs) = firstMax f (x :: xs) := by
  have hc : ¬ ((c :: x :: xs).all fun y => ¬ f c < f y) := by
    intro hall
    have hx := List.all_eq_true.1 hall x (List.mem_cons_of_mem c List.mem_cons_self)
    exact of_decide_eq_true hx h
  rw [firstMax, List.filter_cons_of_neg (by exact hc), firstMax]
  refine congrArg List.head? (List.filter_congr fun z _ => ?_)
  rw [Bool.eq_iff_iff, List.all_cons, Bool.and_eq_true, and_iff_right_iff_imp]
  intro hall
  have hx : f x ≤ f z := by simpa using List.all_eq_true.1 hall x List.mem_cons_self
  simpa using (h.trans_le hx).le

omit [LinearOrder β] in
theorem head?_filter_skip (q : α → Bool) (h : q x → q c) (xs : List α) :
    ((c :: x :: xs).filter q).head? = ((c :: xs).filter q).head? := by
  by_cases hc : q c
  · simp [hc]
  · have hx : ¬ q x := fun hx => hc (h hx)
    simp [hc, hx]

theorem firstMax_of_not_lt (h : ¬ f c < f x) (xs : List α) : firstMax f (c :: x :: xs) = firstMax f (c :: xs) := by
  have hle : f x ≤ f c := not_lt.1 h
  have hsame : ∀ z, ((c :: x :: xs).all fun y => ¬ f z < f y) = (c :: xs).all fun y => ¬ f z < f y := by
    intro z
    rw [Bool.eq_iff_iff]
    simp only [List.all_cons, Bool.and_eq_true, decide_eq_true_eq, not_lt]
    exact ⟨fun hz => ⟨hz.1, hz.2.2⟩, fun hz => ⟨hz.1, hle.trans hz.1, hz.2⟩⟩
  have hskip : ((c :: xs).all fun y => ¬ f x < f y) → (c :: xs).all fun y => ¬ f c < f y := by
    intro hx
    refine List.all_eq_true.2 fun y hy => ?_
    have hxy : f y ≤ f x := by simpa using List.all_eq_true.1 hx y hy
    simpa using hxy.trans hle
  simp only [firstMax, hsame]
  exact head?_filter_skip (fun z => (c :: xs).all fun y => ¬ f z < f y) hskip xs

theorem getLast?_records_some (c : α) (xs : List α) :
    (records f (some c) xs).getLast?.or (some c) = firstMax f (c :: xs) := by
  induction xs generalizing c with
  | nil => simp [records, firstMax]
  | cons x xs ih =>
    rw [records]
    simp only [beats_some]
    split_ifs with hlt
    · rw [firstMax_of_lt f hlt, ← ih, List.getLast?_cons]
      cases (records f (some x) xs).getLast? <;> rfl
    · rw [firstMax_of_not_lt f hlt, ih]

/-- The last record is the first of the best elements. -/
theorem getLast?_records (xs : List α) : (records f none xs).getLast? = firstMax f xs := by
  cases xs with
  | nil => rfl
  | cons x xs =>
    rw [records, if_pos (by exact nofun), ← getLast?_records_some, List.getLast?_cons]
    cases (records f (some x) xs).getLast? <;> rfl

end LinearOrder

section Folds
variable {α β σ : Type}

/-- `Tracks s best`: the state `s` stands for a best element so far. -/
theorem foldl_eq_foldl_records [LT β] [DecidableLT β] (f : α → β) {step adopt : σ → α → σ}
    (Tracks : σ → Option α → Prop)
    (hrecord : ∀ s best x, Tracks s best → Beats f best x → step s x = adopt s x ∧ Tracks (adopt s x) (some x))
    (hother : ∀ s best x, Tracks s best → ¬ Beats f best x → step s x = s) {s : σ} {best : Option α} (h : Tracks s best)
    (xs : List α) : xs.foldl step s = (records f best xs).foldl adopt s := by
  induction xs generalizing s best with
  | nil => rfl
  | cons x xs ih =>
    rw [records, List.foldl_cons]
    split_ifs with hbeats
    · obtain ⟨hstep, hnext⟩ := hrecord s best x h hbeats
      rw [hstep, ih hnext, List.foldl_cons]
    · rw [hother s best x h hbeats, ih h]

/-- A variable that some elements set has the value of the last one that does. -/
theorem foldl_ite (p : α → Bool) (g : α → β) (b : β) (xs : List α) :
    xs.foldl (fun b x => if p x then g x else b) b = ((xs.filter p).getLast?.map g).getD b := by
  induction xs using List.reverseRecOn with
  | nil => rfl
  | append_singleton xs x ih =>
    rw [List.foldl_append, List.foldl_cons, List.foldl_nil, ih, List.filter_append]
    by_cases hx : p x <;> simp [hx]

end Folds

end VpnHide
