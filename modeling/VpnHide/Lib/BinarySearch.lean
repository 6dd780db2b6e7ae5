import VpnHide.Lib.Sorted
import Mathlib.Tactic.Ring

/-!
# Binary search with C `int` bounds

The closed-interval loop `while (lo <= hi)` over a key-sorted array, run with signed 32-bit bounds.
`searchLoop` stops with `none` when a bound or a midpoint leaves the range of `int`, when an index
leaves the array, or when the fuel runs out; `search_spec` shows that none of this happens on a
strictly sorted array of fewer than `2 ^ 30` elements, for either usual midpoint formula, and that
the search then finds the key or its insertion point.

`lowerBound` is the half-open loop `while (lo < hi)` with unsigned bounds, whose midpoint cannot overflow.
-/

namespace VpnHide

variable {α : Type}

/-- A value of type `int`, or `none` on signed overflow. -/
def i32? : Int → Option Int
  | .ofNat n => if n < 2147483648 then some (.ofNat n) else none
  | .negSucc n => if n < 2147483648 then some (.negSucc n) else none

theorem i32?_eq_some {x : Int} (h₁ : -2147483648 ≤ x) (h₂ : x < 2147483648) : i32? x = some x := by
  cases x with
  | ofNat n => exact if_pos (by rw [Int.ofNat_eq_natCast] at h₂; omega)
  | negSucc n => exact if_pos (by omega)

/-- `lo + ((hi - lo) >> 1)`. -/
def midOffset (lo hi : Int) : Option Int := do
  let d ← i32? (hi - lo)
  i32? (lo + d / 2)

/-- `(lo + hi) >> 1`. -/
def midSum (lo hi : Int) : Option Int := do
  let s ← i32? (lo + hi)
  some (s / 2)

inductive SearchResult where
  | found (i : Nat)
  | absent (lo : Nat)
  deriving DecidableEq, Repr

/-- The loop `while (lo <= hi)`. -/
def searchLoop (mid : Int → Int → Option Int) (key : α → Nat) (xs : List α) (k : Nat) :
    Nat → Int → Int → Option SearchResult
  | 0, _, _ => none
  | fuel + 1, lo, hi =>
    if lo ≤ hi then do
      let m ← mid lo hi
      if m < 0 then none
      let x ← xs[m.toNat]?
      if key x = k then some (.found m.toNat)
      else if key x < k then searchLoop mid key xs k fuel (← i32? (m + 1)) hi
      else searchLoop mid key xs k fuel lo (← i32? (m - 1))
    else some (.absent lo.toNat)

/-- `lo = 0, hi = (int)count - 1`, then the loop. -/
def search (mid : Int → Int → Option Int) (key : α → Nat) (xs : List α) (k : Nat) :
    Option SearchResult := do
  let count ← i32? xs.length
  searchLoop mid key xs k (xs.length + 1) 0 (← i32? (count - 1))

def SearchResult.elem (xs : List α) : SearchResult → Option α
  | .found i => xs[i]?
  | .absent _ => none

def searchElem (mid : Int → Int → Option Int) (key : α → Nat) (xs : List α) (k : Nat) : Option α :=
  (search mid key xs k).bind (SearchResult.elem xs)

/-! ### Correctness -/

/-- A midpoint formula that stays inside `[lo, hi]` without overflow on small intervals. -/
def MidOk (mid : Int → Int → Option Int) : Prop :=
  ∀ lo hi, 0 ≤ lo → lo ≤ hi → hi < 2 ^ 30 → mid lo hi = some ((lo + hi) / 2)

theorem midOffset_ok : MidOk midOffset := by
  intro lo hi h₁ h₂ h₃
  have hd : i32? (hi - lo) = some (hi - lo) := i32?_eq_some (by omega) (by omega)
  have hm : i32? (lo + (hi - lo) / 2) = some (lo + (hi - lo) / 2) := i32?_eq_some (by omega) (by omega)
  have heq : lo + (hi - lo) / 2 = (lo + hi) / 2 := by omega
  simp only [midOffset, hd, Option.bind_eq_bind, Option.bind_some, hm]
  rw [heq]

theorem midSum_ok : MidOk midSum := by
  intro lo hi h₁ h₂ h₃
  have hs : i32? (lo + hi) = some (lo + hi) := i32?_eq_some (by omega) (by omega)
  simp only [midSum, hs, Option.bind_eq_bind, Option.bind_some]

/-- What a finished search says about `k`. -/
def SearchResult.Spec (key : α → Nat) (xs : List α) (k : Nat) : SearchResult → Prop
  | .found i => ∃ x, xs[i]? = some x ∧ key x = k
  | .absent lo => lo ≤ xs.length ∧ (∀ (i : Nat) x, xs[i]? = some x → i < lo → key x < k) ∧
      ∀ (i : Nat) x, xs[i]? = some x → lo ≤ i → k < key x

section Spec
variable {mid : Int → Int → Option Int} {key : α → Nat} {xs : List α}

/-- The loop invariant: everything before `lo` is smaller, everything after `hi` is larger. -/
theorem searchLoop_spec (hm : MidOk mid) (hs : StrictBy key xs) (hlen : xs.length < 2 ^ 30) (k : Nat) :
    ∀ (fuel : Nat) (lo hi : Int), 0 ≤ lo → lo ≤ hi + 1 → hi < xs.length → hi + 1 - lo < fuel →
      (∀ (i : Nat) x, xs[i]? = some x → (i : Int) < lo → key x < k) →
      (∀ (i : Nat) x, xs[i]? = some x → hi < (i : Int) → k < key x) →
      ∃ r, searchLoop mid key xs k fuel lo hi = some r ∧ r.Spec key xs k
  | 0, lo, hi, h₀, h₁, h₂, hf, _, _ => by omega
  | fuel + 1, lo, hi, h₀, h₁, h₂, hf, hlt, hgt => by
    by_cases hle : lo ≤ hi
    · obtain ⟨m, hmid⟩ : ∃ m : Nat, (m : Int) = (lo + hi) / 2 :=
        ⟨((lo + hi) / 2).toNat, by omega⟩
      have hmlen : m < xs.length := by omega
      have hx : xs[m]? = some xs[m] := List.getElem?_eq_getElem hmlen
      have hstep : searchLoop mid key xs k (fuel + 1) lo hi =
          if key xs[m] = k then some (.found m)
          else if key xs[m] < k then searchLoop mid key xs k fuel (m + 1) hi
          else searchLoop mid key xs k fuel lo (m - 1) := by
        have hup : i32? ((m : Int) + 1) = some ((m : Int) + 1) := i32?_eq_some (by omega) (by omega)
        have hdown : i32? ((m : Int) - 1) = some ((m : Int) - 1) := i32?_eq_some (by omega) (by omega)
        have hneg : ¬ (m : Int) < 0 := by omega
        simp only [searchLoop, hle, if_true, hm lo hi h₀ hle (by omega), ← hmid, Option.bind_eq_bind,
          Option.bind_some, hneg, if_false, Int.toNat_natCast, hx, hup, hdown]
      rw [hstep]
      by_cases hk : key xs[m] = k
      · exact ⟨.found m, by simp [hk], xs[m], hx, hk⟩
      by_cases hlow : key xs[m] < k
      · -- the key lies right of `m`: every element up to `m` is smaller
        simp only [hk, hlow, if_true, if_false]
        refine searchLoop_spec hm hs hlen k fuel (m + 1) hi (by omega) (by omega) h₂ (by omega)
          (fun i x hi' hlt' => ?_) hgt
        rcases Nat.lt_or_ge i m with him | him
        · exact Nat.lt_trans (hs.getElem_lt him hi' hx) hlow
        · obtain rfl : i = m := by omega
          rw [hx] at hi'; cases hi'; exact hlow
      · simp only [hk, hlow, if_false]
        refine searchLoop_spec hm hs hlen k fuel lo (m - 1) h₀ (by omega) (by omega) (by omega) hlt
          (fun i x hi' hgt' => ?_)
        have hklt : k < key xs[m] := by omega
        rcases Nat.lt_or_ge m i with him | him
        · exact Nat.lt_trans hklt (hs.getElem_lt him hx hi')
        · obtain rfl : i = m := by omega
          rw [hx] at hi'; cases hi'; exact hklt
    · obtain ⟨n, rfl⟩ : ∃ n : Nat, lo = n := ⟨lo.toNat, by omega⟩
      refine ⟨.absent n, by simp [searchLoop, hle], by omega, fun i x hi' h => hlt i x hi' (by omega),
        fun i x hi' h => hgt i x hi' (by omega)⟩

theorem search_spec (hm : MidOk mid) (hs : StrictBy key xs) (hlen : xs.length < 2 ^ 30) (k : Nat) :
    ∃ r, search mid key xs k = some r ∧ r.Spec key xs k := by
  have hc : i32? (xs.length : Int) = some (xs.length : Int) := i32?_eq_some (by omega) (by omega)
  have hh : i32? ((xs.length : Int) - 1) = some ((xs.length : Int) - 1) :=
    i32?_eq_some (by omega) (by omega)
  simp only [search, hc, hh, Option.bind_eq_bind, Option.bind_some]
  refine searchLoop_spec hm hs hlen k _ 0 _ (by omega) (by omega) (by omega) (by omega)
    (fun i x _ h => by omega) (fun i x hx h => ?_)
  have := (List.getElem?_eq_some_iff.1 hx).1
  omega

/-- No overflow, no index outside the array. -/
theorem search_isSome (hm : MidOk mid) (hs : StrictBy key xs) (hlen : xs.length < 2 ^ 30) (k : Nat) :
    (search mid key xs k).isSome := by
  obtain ⟨r, hr, _⟩ := search_spec hm hs hlen k
  simp [hr]

/-- On a strictly sorted array the search is lookup by key, whatever the midpoint formula. -/
theorem searchElem_eq_lookupBy (hm : MidOk mid) (hs : StrictBy key xs) (hlen : xs.length < 2 ^ 30)
    (k : Nat) : searchElem mid key xs k = lookupBy key xs k := by
  obtain ⟨r, hr, hspec⟩ := search_spec hm hs hlen k
  cases r with
  | found i =>
    obtain ⟨x, hx, hk⟩ := hspec
    simp only [searchElem, hr, Option.bind_some, SearchResult.elem, hx]
    exact ((lookupBy_eq_some hs.nodup).2 ⟨List.mem_of_getElem? hx, hk⟩).symm
  | absent lo =>
    obtain ⟨_, hlt, hgt⟩ := hspec
    simp only [searchElem, hr, Option.bind_some, SearchResult.elem]
    symm
    rw [lookupBy_eq_none]
    intro x hx
    obtain ⟨i, hi⟩ := List.mem_iff_getElem?.1 hx
    rcases Nat.lt_or_ge i lo with h | h
    · exact Nat.ne_of_lt (hlt i x hi h)
    · exact (Nat.ne_of_lt (hgt i x hi h)).symm

/-- The insertion point of a failed search splits the array at the key. -/
theorem search_absent (hm : MidOk mid) (hs : StrictBy key xs) (hlen : xs.length < 2 ^ 30) {k lo : Nat}
    (h : search mid key xs k = some (.absent lo)) :
    (∀ y ∈ xs.take lo, key y < k) ∧ ∀ y ∈ xs.drop lo, k < key y := by
  obtain ⟨r, hr, hspec⟩ := search_spec hm hs hlen k
  rw [h] at hr; cases hr
  obtain ⟨_, hlt, hgt⟩ := hspec
  constructor
  · intro y hy
    obtain ⟨i, hi⟩ := List.mem_iff_getElem?.1 hy
    obtain ⟨hil, hi'⟩ : i < lo ∧ xs[i]? = some y := by
      rw [List.getElem?_take] at hi
      split at hi
      · exact ⟨‹_›, hi⟩
      · cases hi
    exact hlt i y hi' hil
  · intro y hy
    obtain ⟨i, hi⟩ := List.mem_iff_getElem?.1 hy
    rw [List.getElem?_drop] at hi
    exact hgt (lo + i) y hi (by omega)

end Spec

/-! ### The half-open loop -/

/-- The loop `while (lo < hi)`: `before` says which elements lie in front of the sought place. -/
def lowerBound (before : α → Bool) (xs : List α) : Nat → Nat → Nat → Nat
  | 0, lo, _ => lo
  | fuel + 1, lo, hi =>
    if lo < hi then
      let mid := lo + (hi - lo) / 2
      if xs[mid]?.any before then lowerBound before xs fuel (mid + 1) hi
      else lowerBound before xs fuel lo mid
    else lo

section LowerBound
variable {before : α → Bool} {xs : List α}

theorem lowerBound_spec (hmono : ∀ (i j : Nat) x y, i < j → xs[i]? = some x → xs[j]? = some y → before y → before x)
    (fuel lo hi : Nat) (hlo : lo ≤ hi) (hhi : hi ≤ xs.length) (hfuel : hi - lo ≤ fuel)
    (hlt : ∀ (i : Nat) x, xs[i]? = some x → i < lo → before x)
    (hge : ∀ (i : Nat) x, xs[i]? = some x → hi ≤ i → before x = false) :
    (∀ (i : Nat) x, xs[i]? = some x → i < lowerBound before xs fuel lo hi → before x) ∧
      ∀ (i : Nat) x, xs[i]? = some x → lowerBound before xs fuel lo hi ≤ i → before x = false := by
  induction fuel generalizing lo hi with
  | zero =>
    obtain rfl : lo = hi := by omega
    exact ⟨hlt, hge⟩
  | succ fuel ih =>
    rw [lowerBound]
    by_cases hempty : lo < hi
    case neg =>
      obtain rfl : lo = hi := by omega
      rw [if_neg hempty]
      exact ⟨hlt, hge⟩
    rw [if_pos hempty]
    generalize hmid : lo + (hi - lo) / 2 = mid
    have hm : xs[mid]? = some xs[mid] := List.getElem?_eq_getElem (by omega)
    dsimp only
    rw [hm, Option.any_some]
    by_cases hbefore : before xs[mid] = true
    · rw [if_pos hbefore]
      refine ih (mid + 1) hi (by omega) hhi (by omega) (fun i x hx hi' => ?_) hge
      rcases Nat.lt_or_ge i mid with him | him
      · exact hmono i mid x _ him hx hm hbefore
      · obtain rfl : i = mid := by omega
        rw [hm] at hx
        cases hx
        exact hbefore
    · rw [if_neg hbefore]
      refine ih lo mid (by omega) (by omega) (by omega) hlt fun i x hx hi' => ?_
      rcases Nat.lt_or_ge mid i with him | him
      · exact eq_false_of_ne_true fun h => hbefore (hmono mid i _ x him hm hx h)
      · obtain rfl : i = mid := by omega
        rw [hm] at hx
        cases hx
        exact eq_false_of_ne_true hbefore

/-- On a strictly sorted array, looking at the lower bound only finds what a scan finds. -/
theorem lowerBound_eq_find? {key : α → Nat} {k : Nat} {here : α → Bool} (hs : StrictBy key xs)
    (hbefore : ∀ x, before x ↔ key x < k) (hhere : ∀ x, here x ↔ key x = k) :
    (xs[lowerBound before xs xs.length 0 xs.length]?).filter here = xs.find? here := by
  have hmono (i j : Nat) (x y : α) (hij : i < j) (hx : xs[i]? = some x) (hy : xs[j]? = some y) (h : before y) :
      before x := (hbefore x).2 (Nat.lt_trans (hs.getElem_lt hij hx hy) ((hbefore y).1 h))
  obtain ⟨hlt, hge⟩ := lowerBound_spec hmono xs.length 0 xs.length (Nat.zero_le _) (Nat.le_refl _) (Nat.sub_le ..)
    (fun _ _ _ h => absurd h (Nat.not_lt_zero _))
    (fun i x hx h => absurd (List.getElem?_eq_some_iff.1 hx).1 (Nat.not_lt.2 h))
  generalize lowerBound before xs xs.length 0 xs.length = lo at hlt hge
  cases hfound : xs.find? here with
  | none =>
    rw [Option.filter_eq_none_iff]
    exact fun x hx => List.find?_eq_none.1 hfound x (List.mem_of_getElem? hx)
  | some x =>
    obtain rfl := (hhere x).1 (List.find?_some hfound)
    obtain ⟨i, hi⟩ := List.mem_iff_getElem?.1 (List.mem_of_find?_eq_some hfound)
    -- the element itself is not before its place, and all in front of it are
    have hle : lo ≤ i := Nat.not_lt.1 fun h => absurd ((hbefore x).1 (hlt i x hi h)) (Nat.lt_irrefl _)
    have hge' : ¬ lo < i := by
      intro h
      have hlen := (List.getElem?_eq_some_iff.1 hi).1
      have hget : xs[lo]? = some xs[lo] := List.getElem?_eq_getElem (by omega)
      have := (hbefore _).2 (hs.getElem_lt h hget hi)
      rw [hge lo _ hget (Nat.le_refl _)] at this
      cases this
    obtain rfl : lo = i := by omega
    rw [hi, Option.filter_some_pos ((hhere x).2 rfl)]

end LowerBound

end VpnHide
