import Mathlib.Data.List.Sort
import Mathlib.Data.List.Perm.Basic
import Mathlib.Data.List.Nodup

/-!
# Lists sorted by a numeric key

`StrictBy key xs`: the keys of `xs` strictly increase. Such a list is a finite map keyed by `key`,
read with `lookupBy`. `sortCmp` sorts by a three-way comparison in the manner of C's `sort`; the
order it leaves between elements that compare equal is of no consequence to any lemma here.
`adjacentEq` is the duplicate scan that usually follows a sort.
-/

namespace VpnHide

variable {α β : Type}

/-- The keys of `xs` strictly increase. -/
def StrictBy (key : α → Nat) (xs : List α) : Prop := xs.Pairwise fun a b => key a < key b

def lookupBy (key : α → Nat) (xs : List α) (k : Nat) : Option α := xs.find? fun x => key x == k

/-- Sort by a three-way comparison (negative, zero, positive). -/
def sortCmp (cmp : α → α → Int) (xs : List α) : List α :=
  xs.insertionSort fun a b => cmp a b ≤ 0

def CmpKey (cmp : α → α → Int) (key : α → Nat) : Prop := ∀ a b, cmp a b ≤ 0 ↔ key a ≤ key b

/-- Some element has the same key as its successor. -/
def adjacentEq (key : α → Nat) : List α → Bool
  | a :: b :: rest => key a == key b || adjacentEq key (b :: rest)
  | _ => false

section SortCmp
variable {cmp : α → α → Int} {key : α → Nat} {xs ys : List α}

theorem sortCmp_perm (cmp : α → α → Int) (xs : List α) : (sortCmp cmp xs).Perm xs :=
  List.perm_insertionSort _ xs

@[simp] theorem mem_sortCmp {x : α} : x ∈ sortCmp cmp xs ↔ x ∈ xs := (sortCmp_perm cmp xs).mem_iff

@[simp] theorem length_sortCmp : (sortCmp cmp xs).length = xs.length := (sortCmp_perm cmp xs).length_eq

theorem sortCmp_sorted (h : CmpKey cmp key) (xs : List α) :
    (sortCmp cmp xs).Pairwise fun a b => key a ≤ key b := by
  have : Std.Total (fun a b => cmp a b ≤ 0) := ⟨fun a b => by
    rw [h a b, h b a]; exact Nat.le_total _ _⟩
  have : IsTrans α (fun a b => cmp a b ≤ 0) := ⟨fun a b c => by
    rw [h a b, h b c, h a c]; exact Nat.le_trans⟩
  exact (List.pairwise_insertionSort _ xs).imp fun {a b} hab => (h a b).1 hab

end SortCmp

/-! ### Strictly increasing keys -/

namespace StrictBy
variable {key : α → Nat} {xs ys : List α}

theorem nil : StrictBy key [] := List.Pairwise.nil

theorem nodup (h : StrictBy key xs) : (xs.map key).Nodup :=
  List.pairwise_map.2 (h.imp fun {_ _} hab => Nat.ne_of_lt hab)

theorem of_sorted_nodup (hs : xs.Pairwise fun a b => key a ≤ key b) (hn : (xs.map key).Nodup) :
    StrictBy key xs := by
  have hne := List.pairwise_map.1 hn
  exact (hs.and hne).imp fun {a b} ⟨hle, hab⟩ => Nat.lt_of_le_of_ne hle hab

theorem sublist (h : StrictBy key xs) (hs : ys.Sublist xs) : StrictBy key ys := List.Pairwise.sublist hs h

theorem head_le {x : α} (h : StrictBy key (x :: xs)) : ∀ y ∈ x :: xs, key x ≤ key y := by
  intro y hy
  rcases List.mem_cons.1 hy with rfl | hy
  · exact Nat.le_refl _
  · exact Nat.le_of_lt ((List.pairwise_cons.1 h).1 y hy)

theorem getElem_lt (h : StrictBy key xs) {i j : Nat} {a b : α} (hij : i < j)
    (ha : xs[i]? = some a) (hb : xs[j]? = some b) : key a < key b := by
  obtain ⟨hi, rfl⟩ := List.getElem?_eq_some_iff.1 ha
  obtain ⟨hj, rfl⟩ := List.getElem?_eq_some_iff.1 hb
  exact List.pairwise_iff_getElem.1 h i j hi hj hij

theorem insert {lo : Nat} {x : α} (h : StrictBy key xs) (hlt : ∀ y ∈ xs.take lo, key y < key x)
    (hgt : ∀ y ∈ xs.drop lo, key x < key y) : StrictBy key (xs.take lo ++ x :: xs.drop lo) := by
  have h' : StrictBy key (xs.take lo ++ xs.drop lo) := by rwa [List.take_append_drop]
  obtain ⟨htake, hdrop, hcross⟩ := List.pairwise_append.1 h'
  refine List.pairwise_append.2 ⟨htake, List.pairwise_cons.2 ⟨hgt, hdrop⟩, fun a ha b hb => ?_⟩
  rcases List.mem_cons.1 hb with rfl | hb
  · exact hlt a ha
  · exact hcross a ha b hb

end StrictBy

theorem strictBy_sortCmp_iff {cmp : α → α → Int} {key : α → Nat} (hc : CmpKey cmp key)
    (xs : List α) : StrictBy key (sortCmp cmp xs) ↔ (xs.map key).Nodup := by
  have hp := (sortCmp_perm cmp xs).map key
  exact ⟨fun h => hp.nodup_iff.1 h.nodup,
    fun h => .of_sorted_nodup (sortCmp_sorted hc xs) (hp.nodup_iff.2 h)⟩

/-- After a sort, the neighbour scan finds no pair exactly when all keys are distinct. -/
theorem adjacentEq_eq_false_iff {key : α → Nat} {xs : List α}
    (hs : xs.Pairwise fun a b => key a ≤ key b) :
    adjacentEq key xs = false ↔ StrictBy key xs := by
  match xs with
  | [] => simp [adjacentEq, StrictBy]
  | [a] => simp [adjacentEq, StrictBy]
  | a :: b :: rest =>
    obtain ⟨ha, hrest⟩ := List.pairwise_cons.1 hs
    rw [adjacentEq, Bool.or_eq_false_iff, adjacentEq_eq_false_iff hrest]
    constructor
    · rintro ⟨hab, hst⟩
      have hlt : key a < key b := Nat.lt_of_le_of_ne (ha b (by simp)) (by simpa using hab)
      refine List.pairwise_cons.2 ⟨fun y hy => ?_, hst⟩
      rcases List.mem_cons.1 hy with rfl | hy
      · exact hlt
      · exact Nat.lt_trans hlt ((List.pairwise_cons.1 hst).1 y hy)
    · intro hst
      obtain ⟨hlt, hst⟩ := List.pairwise_cons.1 hst
      exact ⟨by simpa using Nat.ne_of_lt (hlt b (by simp)), hst⟩

theorem adjacentEq_sortCmp {cmp : α → α → Int} {key : α → Nat} (hc : CmpKey cmp key)
    (xs : List α) : adjacentEq key (sortCmp cmp xs) = false ↔ (xs.map key).Nodup := by
  rw [adjacentEq_eq_false_iff (sortCmp_sorted hc xs), strictBy_sortCmp_iff hc]

/-! ### Skipping a key -/

section Skip
variable {key : α → Nat} {xs : List α} {n : Nat}

/-- Skipping the smallest key at the front removes exactly that key. -/
theorem mem_dropWhile_key (h : StrictBy key xs) (hmin : ∀ x ∈ xs, n ≤ key x) {y : α} :
    (y ∈ xs.dropWhile fun x => key x == n) ↔ y ∈ xs ∧ key y ≠ n := by
  cases xs with
  | nil => simp
  | cons x rest =>
    obtain ⟨hlt, -⟩ := List.pairwise_cons.1 h
    by_cases hx : key x = n
    · have hrest : rest.dropWhile (fun x => key x == n) = rest := by
        cases rest with
        | nil => rfl
        | cons z zs =>
          have hz := hlt z (by simp)
          exact List.dropWhile_cons_of_neg (by simp; omega)
      rw [List.dropWhile_cons_of_pos (by simpa using hx), hrest]
      constructor
      · intro hy
        have hy' := hlt y hy
        exact ⟨List.mem_cons_of_mem _ hy, by omega⟩
      · rintro ⟨hy, hne⟩
        rcases List.mem_cons.1 hy with rfl | hy
        · exact absurd hx hne
        · exact hy
    · rw [List.dropWhile_cons_of_neg (by simpa using hx)]
      refine ⟨fun hy => ⟨hy, ?_⟩, And.left⟩
      have hxn := hmin x (by simp)
      have hxy := h.head_le y hy
      omega

theorem length_dropWhile_key {x : α} (h : xs.head? = some x) (hx : key x = n) :
    (xs.dropWhile fun x => key x == n).length < xs.length := by
  cases xs with
  | nil => simp at h
  | cons z zs =>
    obtain rfl : z = x := by simpa using h
    rw [List.dropWhile_cons_of_pos (by simpa using hx), List.length_cons]
    exact Nat.lt_succ_of_le (List.dropWhile_sublist _).length_le

end Skip

/-! ### Removing duplicates in place -/

/-- The loop behind a sort that moves every element to the front that differs from the last one kept: `out`
elements are kept, `i` is the next to look at. -/
def dedupeInPlace (cmp : α → α → Int) : Nat → Nat → Nat → List α → List α × Nat
  | 0, _, out, items => (items, out)
  | left + 1, i, out, items =>
    match items[out - 1]?, items[i]? with
    | some kept, some item =>
      if cmp kept item ≠ 0 then dedupeInPlace cmp left (i + 1) (out + 1) (items.set out item)
      else dedupeInPlace cmp left (i + 1) out items
    | _, _ => (items, out)

section Dedupe
variable {cmp : α → α → Int} {key : α → Nat} {orig items : List α} {i out : Nat}

/-- The first `out` of `items` are the first `i` of the sorted `orig` without duplicates; the rest is untouched. -/
structure Deduped (key : α → Nat) (orig : List α) (i out : Nat) (items : List α) : Prop where
  length : items.length = orig.length
  out_pos : 0 < out
  out_le : out ≤ i
  strict : StrictBy key (items.take out)
  mem : ∀ x, x ∈ items.take out ↔ x ∈ orig.take i
  last : items[out - 1]? = orig[i - 1]?
  rest : items.drop i = orig.drop i

theorem Deduped.start (h : orig ≠ []) : Deduped key orig 1 1 orig where
  length := rfl
  out_pos := Nat.one_pos
  out_le := Nat.le_refl _
  strict := by
    cases orig with
    | nil => exact absurd rfl h
    | cons x xs => exact List.pairwise_singleton ..
  mem _ := Iff.rfl
  last := rfl
  rest := rfl

theorem Deduped.getElem? (h : Deduped key orig i out items) : items[i]? = orig[i]? := by
  have hhead := congrArg List.head? h.rest
  rwa [List.head?_drop, List.head?_drop] at hhead

theorem Deduped.keep (h : Deduped key orig i out items) (hs : orig.Pairwise fun a b => key a ≤ key b) {kept item : α}
    (hkept : orig[i - 1]? = some kept) (hitem : orig[i]? = some item) (hlt : key kept < key item) :
    Deduped key orig (i + 1) (out + 1) (items.set out item) := by
  have hout := h.out_le
  have hpos := h.out_pos
  obtain ⟨hi, hget⟩ := List.getElem?_eq_some_iff.1 hitem
  have hlen : out < items.length := by rw [h.length]; omega
  have htake : (items.set out item).take (out + 1) = items.take out ++ [item] := by
    rw [List.set_eq_take_append_cons_drop, if_pos hlen, List.take_append, List.length_take_of_le (Nat.le_of_lt hlen),
      List.take_take, Nat.min_eq_right (Nat.le_succ out), Nat.add_sub_cancel_left, List.take_succ_cons, List.take_zero]
  have htake' : orig.take (i + 1) = orig.take i ++ [item] := by
    rw [List.take_add_one, hitem, Option.toList_some]
  constructor
  · rw [List.length_set, h.length]
  · exact Nat.succ_pos out
  · omega
  · rw [htake]
    refine List.pairwise_append.2 ⟨h.strict, List.pairwise_singleton .., fun x hx y hy => ?_⟩
    rw [List.mem_singleton.1 hy]
    -- `x` is not behind the last element kept
    refine Nat.lt_of_le_of_lt ?_ hlt
    obtain ⟨j, hj, rfl⟩ := List.mem_take_iff_getElem.1 ((h.mem x).1 hx)
    obtain ⟨hi', rfl⟩ := List.getElem?_eq_some_iff.1 hkept
    rcases Nat.lt_or_ge j (i - 1) with hji | hji
    · exact List.pairwise_iff_getElem.1 hs j (i - 1) (by omega) hi' hji
    · have : j = i - 1 := by omega
      simp [this]
  · intro x
    rw [htake, htake', List.mem_append, List.mem_append, h.mem]
  · rw [Nat.add_sub_cancel, Nat.add_sub_cancel, List.getElem?_set_self hlen, hitem]
  · rw [List.drop_set_of_lt (by omega), ← List.drop_drop, ← List.drop_drop, h.rest]

theorem Deduped.skip (h : Deduped key orig i out items) {item : α} (hkept : orig[i - 1]? = some item)
    (hitem : orig[i]? = some item) : Deduped key orig (i + 1) out items := by
  have hpos := h.out_pos
  have hmem : item ∈ items.take out := by
    have hlast : items[out - 1]? = some item := h.last.trans hkept
    refine List.mem_of_getElem? (i := out - 1) ?_
    rw [List.getElem?_take_of_lt (by omega), hlast]
  refine ⟨h.length, hpos, Nat.le_succ_of_le h.out_le, h.strict, fun x => ?_, ?_, ?_⟩
  · rw [List.take_add_one, hitem, Option.toList_some, List.mem_append, h.mem, List.mem_singleton]
    refine ⟨.inl, ?_⟩
    rintro (hx | rfl)
    · exact hx
    · exact (h.mem _).1 hmem
  · rw [h.last, hkept, Nat.add_sub_cancel, hitem]
  · rw [← List.drop_drop, ← List.drop_drop, h.rest]

/-- On a sorted array the loop leaves every element once, in order. -/
theorem dedupeInPlace_spec (hcmp : ∀ a b, cmp a b = 0 ↔ a = b) (hkey : ∀ a b, key a = key b → a = b)
    (hs : orig.Pairwise fun a b => key a ≤ key b) (left : Nat) (h : Deduped key orig i out items)
    (hleft : i + left = orig.length) :
    Deduped key orig orig.length (dedupeInPlace cmp left i out items).2 (dedupeInPlace cmp left i out items).1 := by
  induction left generalizing i out items with
  | zero =>
    obtain rfl : i = orig.length := hleft
    exact h
  | succ left ih =>
    have hpos := h.out_pos
    have hout := h.out_le
    obtain ⟨kept, hkept⟩ : ∃ kept, orig[i - 1]? = some kept := ⟨_, List.getElem?_eq_getElem (by omega)⟩
    obtain ⟨item, hitem⟩ : ∃ item, orig[i]? = some item := ⟨_, List.getElem?_eq_getElem (by omega)⟩
    have hle : key kept ≤ key item := by
      obtain ⟨hi', rfl⟩ := List.getElem?_eq_some_iff.1 hkept
      obtain ⟨hi, rfl⟩ := List.getElem?_eq_some_iff.1 hitem
      exact List.pairwise_iff_getElem.1 hs (i - 1) i hi' hi (by omega)
    rw [dedupeInPlace, h.last, h.getElem?, hkept, hitem]
    dsimp only
    by_cases hne : cmp kept item ≠ 0
    · rw [if_pos hne]
      have hlt : key kept < key item := Nat.lt_of_le_of_ne hle fun heq => hne ((hcmp _ _).2 (hkey _ _ heq))
      exact ih (h.keep hs hkept hitem hlt) (by omega)
    · rw [if_neg hne]
      obtain rfl := (hcmp _ _).1 (not_not.1 hne)
      exact ih (h.skip hkept hitem) (by omega)

end Dedupe

/-! ### Keys of several fields -/

theorem digit_lt {x y d e b : Nat} (hd : d < b) (he : e < b) : x * b + d < y * b + e ↔ x < y ∨ x = y ∧ d < e := by
  rcases Nat.lt_trichotomy x y with h | rfl | h
  · have := Nat.mul_le_mul_right b (Nat.succ_le_of_lt h)
    rw [Nat.succ_mul] at this
    exact iff_of_true (by omega) (.inl h)
  · simp
  · have := Nat.mul_le_mul_right b (Nat.succ_le_of_lt h)
    rw [Nat.succ_mul] at this
    exact iff_of_false (by omega) (by omega)

theorem digit_eq {x y d e b : Nat} (hd : d < b) (he : e < b) : x * b + d = y * b + e ↔ x = y ∧ d = e := by
  rcases Nat.lt_trichotomy x y with h | rfl | h
  · have := Nat.mul_le_mul_right b (Nat.succ_le_of_lt h)
    rw [Nat.succ_mul] at this
    exact iff_of_false (by omega) (by omega)
  · simp
  · have := Nat.mul_le_mul_right b (Nat.succ_le_of_lt h)
    rw [Nat.succ_mul] at this
    exact iff_of_false (by omega) (by omega)

/-! ### Lookup by key -/

section Lookup
variable {key : α → Nat} {xs ys : List α} {k : Nat}

theorem mem_of_lookupBy {x : α} (h : lookupBy key xs k = some x) : x ∈ xs ∧ key x = k :=
  ⟨List.mem_of_find?_eq_some h, by simpa using List.find?_some h⟩

theorem lookupBy_eq_none : lookupBy key xs k = none ↔ ∀ x ∈ xs, key x ≠ k := by
  simp [lookupBy]

theorem lookupBy_of_mem (hn : (xs.map key).Nodup) {x : α} (hx : x ∈ xs) :
    lookupBy key xs (key x) = some x := by
  induction xs with
  | nil => simp at hx
  | cons y ys ih =>
    obtain ⟨hy, hn⟩ := List.nodup_cons.1 (List.map_cons ▸ hn)
    rcases List.mem_cons.1 hx with rfl | hx
    · simp [lookupBy]
    · have hne : key y ≠ key x := fun h => hy (h ▸ List.mem_map_of_mem hx)
      rw [lookupBy, List.find?_cons_of_neg (by simpa using hne)]
      exact ih hn hx

theorem lookupBy_eq_some (hn : (xs.map key).Nodup) {x : α} :
    lookupBy key xs k = some x ↔ x ∈ xs ∧ key x = k :=
  ⟨mem_of_lookupBy, fun ⟨hx, hk⟩ => hk ▸ lookupBy_of_mem hn hx⟩

theorem lookupBy_perm (hn : (xs.map key).Nodup) (hp : xs.Perm ys) (k : Nat) :
    lookupBy key xs k = lookupBy key ys k := by
  have hn' : (ys.map key).Nodup := (hp.map key).nodup_iff.1 hn
  cases h : lookupBy key ys k with
  | none =>
    rw [lookupBy_eq_none] at h ⊢
    exact fun x hx => h x (hp.mem_iff.1 hx)
  | some y =>
    rw [lookupBy_eq_some hn'] at h
    exact (lookupBy_eq_some hn).2 ⟨hp.mem_iff.2 h.1, h.2⟩

theorem lookupBy_map (f : α → β) {key' : β → Nat} (hf : ∀ x, key' (f x) = key x) :
    lookupBy key' (xs.map f) k = (lookupBy key xs k).map f := by
  have hkey : (fun y => key' y == k) ∘ f = fun x => key x == k := funext fun x => by rw [Function.comp_apply, hf]
  rw [lookupBy, lookupBy, List.find?_map, hkey]

end Lookup

end VpnHide
