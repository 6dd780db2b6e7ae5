import Mathlib.Algebra.Group.Nat.Defs
import Mathlib.Data.List.TakeWhile

/-!
# C strings

A string is the bytes in front of the first NUL; what is read beyond the end of the list is NUL. A pointer into a string
is the part of it that starts there, so of two pointers the longer part is the one in front. `strstr` finds the first
occurrence (`strstr_eq_some`).
-/

namespace VpnHide

/-- The bytes of the string that starts here. -/
def cstr (bytes : List UInt8) : List UInt8 := bytes.takeWhile (· ≠ 0)

/-- `!strncmp(a, b, n)`. -/
def strncmpEq : ℕ → List UInt8 → List UInt8 → Bool
  | 0, _, _ => true
  | n + 1, a, b =>
    if a.headD 0 ≠ b.headD 0 then false
    else if a.headD 0 = 0 then true
    else strncmpEq n a.tail b.tail

/-- The bytes of a text. -/
def bytesOf (text : String) : List UInt8 := text.toUTF8.data.toList

/-- `strstr(s, pattern)`. -/
def strstr (pattern : List UInt8) : List UInt8 → Option (List UInt8)
  | [] => if pattern = [] then some [] else none
  | c :: s => if pattern.isPrefixOf (c :: s) then some (c :: s) else strstr pattern s

/-- `strchr(s, c)`. -/
def strchr (c : UInt8) : List UInt8 → Option (List UInt8)
  | [] => none
  | d :: s => if d = c then some (d :: s) else strchr c s

/-- `strncpy(dst, src, n)`. -/
def strncpy (dst src : List UInt8) (n : ℕ) : List UInt8 := (cstr src ++ List.replicate n 0).take n ++ dst.drop n

/-- `isspace`, in the C locale. -/
def isSpace (c : UInt8) : Bool := c == ' '.toUInt8 || (9 ≤ c && c ≤ 13)

/-- The value of a digit in some base up to 36. -/
def digitValue (base : ℕ) (c : UInt8) : Option ℕ :=
  let value : Option ℕ :=
    if '0'.toUInt8 ≤ c ∧ c ≤ '9'.toUInt8 then some (c.toNat - '0'.toNat)
    else if 'a'.toUInt8 ≤ c ∧ c ≤ 'z'.toUInt8 then some (c.toNat - 'a'.toNat + 10)
    else if 'A'.toUInt8 ≤ c ∧ c ≤ 'Z'.toUInt8 then some (c.toNat - 'A'.toNat + 10)
    else none
  value.filter fun d => d < base

/-- The digits that a number starts with. -/
def leadingDigits (base : ℕ) : List UInt8 → List ℕ
  | [] => []
  | c :: s => match digitValue base c with
    | none => []
    | some d => d :: leadingDigits base s

def digitsValue (base : ℕ) (digits : List ℕ) : ℕ := digits.foldl (fun value d => base * value + d) 0

/-- `strtoull(s, &end, 0)`; `none` if nothing is converted. -/
def strtoull (s : List UInt8) : Option UInt64 :=
  let s := s.dropWhile isSpace
  let negative := s.headD 0 = '-'.toUInt8
  let s := if s.headD 0 = '-'.toUInt8 ∨ s.headD 0 = '+'.toUInt8 then s.tail else s
  let hex := s.headD 0 = '0'.toUInt8 ∧ (s.tail.headD 0 = 'x'.toUInt8 ∨ s.tail.headD 0 = 'X'.toUInt8) ∧
    (digitValue 16 (s.tail.tail.headD 0)).isSome
  let base := if hex then 16 else if s.headD 0 = '0'.toUInt8 then 8 else 10
  let digits := leadingDigits base (if hex then s.drop 2 else s)
  if digits = [] then none
  else
    let value := digitsValue base digits
    if 2 ^ 64 ≤ value then some (-1)
    else some (if negative then -UInt64.ofNat value else UInt64.ofNat value)

theorem cstr_cons_of_ne {c : UInt8} (h : c ≠ 0) (bytes : List UInt8) : cstr (c :: bytes) = c :: cstr bytes :=
  List.takeWhile_cons_of_pos (by simpa using h)

theorem cstr_append_nul (xs : List UInt8) : cstr (xs ++ [0]) = cstr xs := by
  rw [cstr, List.takeWhile_append]
  split_ifs with hall
  · rw [cstr, List.takeWhile_cons_of_neg (by simp), List.append_nil]
    exact ((List.takeWhile_prefix _).eq_of_length hall).symm
  · rfl

theorem cstr_eq_nil {bytes : List UInt8} : cstr bytes = [] ↔ bytes.headD 0 = 0 := by
  cases bytes with
  | nil => simp [cstr]
  | cons c bytes =>
    by_cases hc : c = 0
    · simp [cstr, hc]
    · simp [cstr_cons_of_ne hc, hc]

theorem strncmpEq_iff (n : ℕ) (a b : List UInt8) : strncmpEq n a b ↔ cstr (a.take n) = cstr (b.take n) := by
  induction n generalizing a b with
  | zero => simp [strncmpEq]
  | succ n ih =>
    have hhead (x : List UInt8) : (x.take (n + 1)).headD 0 = x.headD 0 := by cases x <;> rfl
    rw [strncmpEq]
    by_cases ha : a.headD 0 = 0
    · -- both end here, or only the first one
      have hnil : cstr (a.take (n + 1)) = [] := cstr_eq_nil.2 ((hhead a).trans ha)
      rw [hnil, eq_comm (a := []), cstr_eq_nil, hhead b, ha]
      simp [eq_comm]
    · obtain ⟨x, a, rfl⟩ : ∃ x a', a = x :: a' := List.exists_cons_of_ne_nil (by rintro rfl; exact ha rfl)
      have hx : x ≠ 0 := ha
      cases b with
      | nil => simp [hx, cstr]
      | cons y b =>
        rw [List.take_succ_cons, List.take_succ_cons, cstr_cons_of_ne hx]
        by_cases hxy : x = y
        · subst hxy
          simp [cstr_cons_of_ne hx, hx, ih]
        · have hne : x :: cstr (a.take n) ≠ cstr (y :: b.take n) := by
            by_cases hy : y = 0
            · simp [cstr, hy]
            · simp [cstr_cons_of_ne hy, hxy]
          simp [hxy, hne]

theorem strncmpEq_iff_prefix (pattern : List UInt8) (h : 0 ∉ pattern) (s : List UInt8) :
    strncmpEq pattern.length s pattern ↔ pattern <+: s := by
  have hpattern : cstr pattern = pattern := by
    rw [cstr, List.takeWhile_eq_self_iff]
    intro c hc
    simpa using fun hzero : c = 0 => h (hzero ▸ hc)
  rw [strncmpEq_iff, List.take_length, hpattern, List.prefix_iff_eq_take]
  constructor
  · intro hs
    -- the string is cut at a NUL or after the pattern's length, and it has that length
    have hcut : cstr (s.take pattern.length) <+: s.take pattern.length := List.takeWhile_prefix _
    rw [hs] at hcut
    exact hcut.eq_of_length_le (List.length_take_le ..)
  · intro hs
    rw [← hs, hpattern]

/-! ### Searching -/

/-- The first place in a text at which a pattern stands. -/
structure FirstAt (pattern text place : List UInt8) : Prop where
  suffix : place <:+ text
  here : pattern <+: place
  first : ∀ other, other <:+ text → pattern <+: other → other.length ≤ place.length

theorem strstr_eq_some {pattern text place : List UInt8} :
    strstr pattern text = some place ↔ FirstAt pattern text place := by
  induction text with
  | nil =>
    rw [strstr]
    constructor
    · intro h
      split_ifs at h with hpattern
      cases h
      exact ⟨List.suffix_refl _, hpattern ▸ List.prefix_refl _, fun other hother _ => hother.length_le⟩
    · rintro ⟨hsuffix, hhere, -⟩
      obtain rfl := List.suffix_nil.1 hsuffix
      rw [if_pos (List.prefix_nil.1 hhere)]
  | cons c text ih =>
    rw [strstr]
    by_cases hpattern : pattern.isPrefixOf (c :: text)
    · have hprefix := List.isPrefixOf_iff_prefix.1 hpattern
      rw [if_pos hpattern, Option.some.injEq]
      constructor
      · rintro rfl
        exact ⟨List.suffix_refl _, hprefix, fun other hother _ => hother.length_le⟩
      · rintro ⟨hsuffix, -, hfirst⟩
        exact (hsuffix.eq_of_length_le (hfirst _ (List.suffix_refl _) hprefix)).symm
    · have hprefix : ¬ pattern <+: c :: text := mt List.isPrefixOf_iff_prefix.2 hpattern
      rw [if_neg hpattern, ih]
      constructor
      · rintro ⟨hsuffix, hhere, hfirst⟩
        refine ⟨hsuffix.trans (List.suffix_cons c text), hhere, fun other hother hprefix' => ?_⟩
        rcases List.suffix_cons_iff.1 hother with rfl | hother
        · exact absurd hprefix' hprefix
        · exact hfirst other hother hprefix'
      · rintro ⟨hsuffix, hhere, hfirst⟩
        refine ⟨?_, hhere, fun other hother => hfirst other (hother.trans (List.suffix_cons c text))⟩
        rcases List.suffix_cons_iff.1 hsuffix with rfl | hsuffix
        · exact absurd hhere hprefix
        · exact hsuffix

theorem strchr_eq_strstr (c : UInt8) (text : List UInt8) : strchr c text = strstr [c] text := by
  induction text with
  | nil => rfl
  | cons d text ih =>
    rw [strchr, strstr, ih]
    by_cases hd : d = c
    · simp [hd]
    · simp [hd, Ne.symm hd]

theorem strchr_eq_some {c : UInt8} {text place : List UInt8} : strchr c text = some place ↔ FirstAt [c] text place := by
  rw [strchr_eq_strstr, strstr_eq_some]

end VpnHide
