import Mathlib.Data.List.DropRight
import Mathlib.Data.List.Infix
import Mathlib.Order.Monotone.Basic

/-!
# Searching a text, and inserting into it

Places of a pattern in a text, the first one from an offset on, and those that a search finds one behind the other. When
a block is inserted and neither breaks nor makes an occurrence (`Spares`), the search finds the same places as before,
moved by the block where they are behind it (`findFrom_insertAt`, `occurrencesFrom_insertAt`).
-/

namespace VpnHide

variable {α : Type} {pattern text block : List α} {i j p offset offset' : ℕ}

/-- The pattern stands at place `i`. -/
def Occurs (pattern text : List α) (i : ℕ) : Prop := pattern <+: text.drop i

theorem occurs_iff_take : Occurs pattern text i ↔ pattern = (text.drop i).take pattern.length := List.prefix_iff_eq_take

theorem Occurs.add_length_le (h : Occurs pattern text i) (hpattern : pattern ≠ []) :
    i + pattern.length ≤ text.length := by
  have hle := h.length_le
  have hpos := List.length_pos_iff.2 hpattern
  rw [List.length_drop] at hle
  omega

/-! ### Insertion -/

/-- `text[:p] + block + text[p:]` -/
def insertAt (text : List α) (p : ℕ) (block : List α) : List α := text.take p ++ block ++ text.drop p

/-- Where place `i` is after `n` elements have been inserted at `p`. -/
def shift (p n i : ℕ) : ℕ := if i < p then i else i + n

theorem shift_of_lt {n : ℕ} (h : i < p) : shift p n i = i := if_pos h

theorem shift_of_le {n : ℕ} (h : p ≤ i) : shift p n i = i + n := if_neg (Nat.not_lt.2 h)

theorem shift_strictMono (p n : ℕ) : StrictMono (shift p n) := by
  intro i j hij
  unfold shift
  split_ifs <;> omega

theorem length_insertAt (text block : List α) (p : ℕ) :
    (insertAt text p block).length = text.length + block.length := by
  rw [insertAt, List.length_append, List.length_append, List.length_take, List.length_drop]
  omega

theorem take_insertAt (hp : p ≤ text.length) (hi : i ≤ p) : (insertAt text p block).take i = text.take i := by
  have hlen : i ≤ (text.take p).length := by
    rw [List.length_take]
    omega
  rw [insertAt, List.append_assoc, List.take_append_of_le_length hlen, List.take_take, Nat.min_eq_left hi]

theorem drop_insertAt (hp : p ≤ text.length) (hi : p ≤ i) :
    (insertAt text p block).drop (i + block.length) = text.drop i := by
  have hlen : (text.take p ++ block).length = p + block.length := by
    rw [List.length_append, List.length_take, Nat.min_eq_left hp]
  have hsum : i + block.length = (text.take p ++ block).length + (i - p) := by omega
  rw [insertAt, hsum, ← List.drop_drop, List.drop_left, List.drop_drop, Nat.add_sub_cancel' hi]

theorem occurs_insertAt_left (hp : p ≤ text.length) (h : i + pattern.length ≤ p) :
    Occurs pattern (insertAt text p block) i ↔ Occurs pattern text i := by
  rw [occurs_iff_take, occurs_iff_take, List.take_drop, List.take_drop, take_insertAt hp h]

theorem occurs_insertAt_right (hp : p ≤ text.length) (h : p ≤ i) :
    Occurs pattern (insertAt text p block) (i + block.length) ↔ Occurs pattern text i := by
  rw [Occurs, Occurs, drop_insertAt hp h]

/-- The block neither breaks an occurrence of the pattern nor makes one. -/
structure Spares (pattern text : List α) (p : ℕ) (block : List α) : Prop where
  unbroken : ∀ i, Occurs pattern text i → i + pattern.length ≤ p ∨ p ≤ i
  unmade : ∀ j, Occurs pattern (insertAt text p block) j → j + pattern.length ≤ p ∨ p + block.length ≤ j

theorem Spares.occurs_iff (h : Spares pattern text p block) (hpattern : pattern ≠ []) (hp : p ≤ text.length) :
    Occurs pattern (insertAt text p block) j ↔ ∃ i, Occurs pattern text i ∧ shift p block.length i = j := by
  have hpos := List.length_pos_iff.2 hpattern
  constructor
  · intro hj
    rcases h.unmade j hj with hle | hle
    · exact ⟨j, (occurs_insertAt_left hp hle).1 hj, shift_of_lt (by omega)⟩
    · obtain ⟨i, rfl⟩ : ∃ i, j = i + block.length := ⟨j - block.length, by omega⟩
      have hi : p ≤ i := by omega
      exact ⟨i, (occurs_insertAt_right hp hi).1 hj, shift_of_le hi⟩
  · rintro ⟨i, hi, rfl⟩
    rcases h.unbroken i hi with hle | hle
    · rw [shift_of_lt (by omega)]
      exact (occurs_insertAt_left hp hle).2 hi
    · rw [shift_of_le hle]
      exact (occurs_insertAt_right hp hle).2 hi

/-! ### Search -/

section Search
variable [DecidableEq α]

/-- `text.find(pattern, offset)` -/
def findFrom (pattern text : List α) (offset : ℕ) : Option ℕ :=
  (List.range' offset (text.length + 1 - offset)).find? fun i => pattern.isPrefixOf (text.drop i)

/-- A place that `findFrom` may find. -/
structure Hit (pattern text : List α) (offset i : ℕ) : Prop where
  offset_le : offset ≤ i
  le_length : i ≤ text.length
  occurs : Occurs pattern text i

theorem hit_iff : Hit pattern text offset i ↔
    i ∈ List.range' offset (text.length + 1 - offset) ∧ pattern.isPrefixOf (text.drop i) = true := by
  rw [List.isPrefixOf_iff_prefix, List.mem_range'_1]
  constructor
  · rintro ⟨hle, hlen, hoccurs⟩
    exact ⟨by omega, hoccurs⟩
  · rintro ⟨hrange, hoccurs⟩
    exact ⟨hrange.1, by omega, hoccurs⟩

theorem findFrom_eq_none : findFrom pattern text offset = none ↔ ∀ i, ¬ Hit pattern text offset i := by
  simp only [findFrom, List.find?_eq_none, hit_iff, not_and]

theorem findFrom_eq_some :
    findFrom pattern text offset = some i ↔ Hit pattern text offset i ∧ ∀ j < i, ¬ Hit pattern text offset j := by
  rw [findFrom, List.find?_range'_eq_some, hit_iff]
  constructor
  · rintro ⟨hstands, hmem, hfirst⟩
    refine ⟨⟨hmem, hstands⟩, fun j hj hhit => ?_⟩
    have := hfirst j hhit.offset_le hj
    rw [(hit_iff.1 hhit).2] at this
    cases this
  · rintro ⟨⟨hmem, hstands⟩, hfirst⟩
    refine ⟨hstands, hmem, fun j hle hj => ?_⟩
    have hrange := List.mem_range'_1.1 hmem
    by_contra hj'
    refine hfirst j hj ⟨hle, by omega, List.isPrefixOf_iff_prefix.1 ?_⟩
    simpa using hj'

theorem Hit.findFrom_le (h : Hit pattern text offset i) : ∃ k ≤ i, findFrom pattern text offset = some k := by
  cases hfind : findFrom pattern text offset with
  | none => exact absurd h (findFrom_eq_none.1 hfind i)
  | some k =>
    refine ⟨k, ?_, rfl⟩
    by_contra hlt
    exact (findFrom_eq_some.1 hfind).2 i (Nat.not_le.1 hlt) h

theorem findFrom_isSome_iff : (findFrom pattern text 0).isSome ↔ pattern <:+: text := by
  constructor
  · intro h
    obtain ⟨i, hi⟩ := Option.isSome_iff_exists.1 h
    exact (findFrom_eq_some.1 hi).1.occurs.isInfix.trans (List.drop_suffix i text).isInfix
  · rintro ⟨front, rest, rfl⟩
    have hhit : Hit pattern (front ++ pattern ++ rest) 0 front.length := by
      refine ⟨Nat.zero_le _, ?_, ?_⟩
      · rw [List.length_append, List.length_append]
        omega
      · rw [Occurs, List.append_assoc, List.drop_left]
        exact List.prefix_append ..
    obtain ⟨k, -, hk⟩ := hhit.findFrom_le
    rw [hk]
    rfl

theorem findFrom_map {text' : List α} {f : ℕ → ℕ} (hf : StrictMono f)
    (h : ∀ j, Hit pattern text' offset' j ↔ ∃ i, Hit pattern text offset i ∧ f i = j) :
    findFrom pattern text' offset' = (findFrom pattern text offset).map f := by
  cases hfind : findFrom pattern text offset with
  | none =>
    rw [Option.map_none, findFrom_eq_none]
    rintro j hj
    obtain ⟨i, hi, -⟩ := (h j).1 hj
    exact findFrom_eq_none.1 hfind i hi
  | some i =>
    obtain ⟨hi, hfirst⟩ := findFrom_eq_some.1 hfind
    rw [Option.map_some, findFrom_eq_some]
    refine ⟨(h _).2 ⟨i, hi, rfl⟩, ?_⟩
    rintro j hj hhit
    obtain ⟨i', hi', rfl⟩ := (h j).1 hhit
    exact hfirst i' (hf.lt_iff_lt.1 hj) hi'

theorem findFrom_insertAt_right (pattern block : List α) (hp : p ≤ text.length) (hoffset : p ≤ offset) :
    findFrom pattern (insertAt text p block) (offset + block.length) =
      (findFrom pattern text offset).map (· + block.length) := by
  refine findFrom_map (fun i j hij => Nat.add_lt_add_right hij _) fun j => ?_
  constructor
  · rintro ⟨hle, hlen, hoccurs⟩
    rw [length_insertAt] at hlen
    obtain ⟨i, rfl⟩ : ∃ i, j = i + block.length := ⟨j - block.length, by omega⟩
    exact ⟨i, ⟨by omega, by omega, (occurs_insertAt_right hp (by omega)).1 hoccurs⟩, rfl⟩
  · rintro ⟨i, ⟨hle, hlen, hoccurs⟩, rfl⟩
    refine ⟨by omega, ?_, (occurs_insertAt_right hp (by omega)).2 hoccurs⟩
    rw [length_insertAt]
    omega

theorem findFrom_insertAt_left (hp : p ≤ text.length) (hi : i + pattern.length ≤ p) :
    findFrom pattern (insertAt text p block) offset = some i ↔ findFrom pattern text offset = some i := by
  have hhit (j : ℕ) (hj : j ≤ i) : Hit pattern (insertAt text p block) offset j ↔ Hit pattern text offset j := by
    constructor
    · rintro ⟨hle, -, hoccurs⟩
      exact ⟨hle, by omega, (occurs_insertAt_left hp (by omega)).1 hoccurs⟩
    · rintro ⟨hle, hlen, hoccurs⟩
      refine ⟨hle, ?_, (occurs_insertAt_left hp (by omega)).2 hoccurs⟩
      rw [length_insertAt]
      omega
  rw [findFrom_eq_some, findFrom_eq_some, hhit i (Nat.le_refl i)]
  refine and_congr_right fun _ => forall_congr' fun j => forall_congr' fun hj => ?_
  rw [hhit j (Nat.le_of_lt hj)]

theorem findFrom_insertAt (h : Spares pattern text p block) (hpattern : pattern ≠ []) (hp : p ≤ text.length)
    (hoffset : ∀ i, Occurs pattern text i → (offset ≤ i ↔ offset' ≤ shift p block.length i)) :
    findFrom pattern (insertAt text p block) offset' = (findFrom pattern text offset).map (shift p block.length) := by
  refine findFrom_map (shift_strictMono ..) fun j => ?_
  constructor
  · rintro ⟨hle, -, hoccurs⟩
    obtain ⟨i, hi, rfl⟩ := (h.occurs_iff hpattern hp).1 hoccurs
    have hlen := hi.add_length_le hpattern
    exact ⟨i, ⟨(hoffset i hi).2 hle, by omega, hi⟩, rfl⟩
  · rintro ⟨i, ⟨hle, -, hoccurs⟩, rfl⟩
    have hj := (h.occurs_iff hpattern hp).2 ⟨i, hoccurs, rfl⟩
    have hlen := hj.add_length_le hpattern
    exact ⟨(hoffset i hoccurs).1 hle, by omega, hj⟩

/-- The places that are found one behind the other, without overlaps. -/
def occurrencesFrom (pattern : List α) (hpattern : pattern ≠ []) (text : List α) (offset : ℕ) : List ℕ :=
  match h : findFrom pattern text offset with
  | none => []
  | some i =>
    have : text.length + 1 - (i + pattern.length) < text.length + 1 - offset := by
      have hhit := (findFrom_eq_some.1 h).1
      have hle := hhit.offset_le
      have hlen := hhit.le_length
      have hpos := List.length_pos_iff.2 hpattern
      omega
    i :: occurrencesFrom pattern hpattern text (i + pattern.length)
termination_by text.length + 1 - offset

theorem occurrencesFrom_of_none (hpattern : pattern ≠ []) (h : findFrom pattern text offset = none) :
    occurrencesFrom pattern hpattern text offset = [] := by
  rw [occurrencesFrom]
  split
  · rfl
  · rename_i hsome
    rw [h] at hsome
    cases hsome

theorem occurrencesFrom_of_some (hpattern : pattern ≠ []) (h : findFrom pattern text offset = some i) :
    occurrencesFrom pattern hpattern text offset = i :: occurrencesFrom pattern hpattern text (i + pattern.length) := by
  rw [occurrencesFrom]
  split
  · rename_i hnone
    rw [h] at hnone
    cases hnone
  · rename_i j hsome
    obtain rfl : i = j := Option.some.inj (h.symm.trans hsome)
    rfl

theorem occurs_of_mem (hpattern : pattern ≠ []) (h : i ∈ occurrencesFrom pattern hpattern text offset) :
    Occurs pattern text i := by
  fun_induction occurrencesFrom pattern hpattern text offset with
  | case1 => cases h
  | case2 offset k hk _ ih =>
    rcases List.mem_cons.1 h with rfl | h
    · exact (findFrom_eq_some.1 hk).1.occurs
    · exact ih h

theorem occurrencesFrom_insertAt (h : Spares pattern text p block) (hpattern : pattern ≠ []) (hp : p ≤ text.length)
    (hoffset : ∀ i, Occurs pattern text i → (offset ≤ i ↔ offset' ≤ shift p block.length i)) :
    occurrencesFrom pattern hpattern (insertAt text p block) offset' =
      (occurrencesFrom pattern hpattern text offset).map (shift p block.length) := by
  have hpos := List.length_pos_iff.2 hpattern
  fun_induction occurrencesFrom pattern hpattern text offset generalizing offset' with
  | case1 offset hnone =>
    have hfind := findFrom_insertAt h hpattern hp hoffset
    rw [hnone] at hfind
    rw [occurrencesFrom_of_none hpattern hfind, List.map_nil]
  | case2 offset i hsome _ ih =>
    have hfind := findFrom_insertAt h hpattern hp hoffset
    rw [hsome] at hfind
    rw [occurrencesFrom_of_some hpattern hfind, List.map_cons, ih]
    intro k hk
    rcases h.unbroken i (findFrom_eq_some.1 hsome).1.occurs with hi | hi
    · unfold shift
      split_ifs <;> omega
    · unfold shift
      split_ifs <;> omega

/-- `text.count(pattern)` -/
def countIn (pattern text : List α) : ℕ :=
  if h : pattern = [] then text.length + 1 else (occurrencesFrom pattern h text 0).length

theorem findFrom_of_countIn (h : countIn pattern text = 1) : ∃ i, findFrom pattern text 0 = some i := by
  rw [countIn] at h
  split_ifs at h with hpattern
  · subst hpattern
    exact ⟨0, findFrom_eq_some.2 ⟨⟨Nat.le_refl _, Nat.zero_le _, List.nil_prefix⟩,
      fun j hj => absurd hj (Nat.not_lt_zero j)⟩⟩
  · cases hfind : findFrom pattern text 0 with
    | some i => exact ⟨i, rfl⟩
    | none =>
      rw [occurrencesFrom_of_none hpattern hfind] at h
      cases h

end Search

end VpnHide
