import Mathlib.Data.List.Basic
import Mathlib.Tactic.Ring

/-!
# Fixed-size binary layouts

A `Codec α` is the layout of a packed record: `encode` writes exactly `size` bytes and `decode`
reads them back from the front of any longer buffer. Records are built field by field with
`Codec.prod`, renamed with `Codec.iso`, and repeated with `Codec.vector`; variable-length sections
are read with `decodeArray`. Numbers are little-endian.
-/

namespace VpnHide

/-! ### Little-endian numbers -/

def leNat : List UInt8 → Nat
  | [] => 0
  | b :: bs => b.toNat + 256 * leNat bs

/-- The `n` low bytes of `x`, least significant first. -/
def leBytes : Nat → Nat → List UInt8
  | 0, _ => []
  | n + 1, x => UInt8.ofNat x :: leBytes n (x / 256)

@[simp] theorem length_leBytes (n x : Nat) : (leBytes n x).length = n := by
  induction n generalizing x with
  | zero => rfl
  | succ n ih => simp [leBytes, ih]

theorem leNat_leBytes (n x : Nat) : leNat (leBytes n x) = x % 256 ^ n := by
  induction n generalizing x with
  | zero => simp [leBytes, leNat, Nat.mod_one]
  | succ n ih =>
    rw [leBytes, leNat, ih, Nat.pow_succ', Nat.mod_mul]
    simp

theorem leNat_lt (l : List UInt8) : leNat l < 256 ^ l.length := by
  induction l with
  | nil => exact Nat.one_pos
  | cons b bs ih =>
    have hb := b.toNat_lt
    rw [leNat, List.length_cons, Nat.pow_succ']
    omega

theorem leBytes_leNat (l : List UInt8) : leBytes l.length (leNat l) = l := by
  induction l with
  | nil => rfl
  | cons b bs ih =>
    have hb := b.toNat_lt
    have hlow : UInt8.ofNat (b.toNat + 256 * leNat bs) = b := by
      rw [← UInt8.toNat_inj, UInt8.toNat_ofNat']
      omega
    have hhigh : (b.toNat + 256 * leNat bs) / 256 = leNat bs := by omega
    rw [leNat, List.length_cons, leBytes, hlow, hhigh, ih]

/-! ### Layouts -/

/-- A layout of `α` in `size` bytes. -/
structure Codec (α : Type) where
  size : Nat
  encode : α → List UInt8
  decode : List UInt8 → α
  length_encode : ∀ a, (encode a).length = size
  decode_encode : ∀ a rest, decode (encode a ++ rest) = a

namespace Codec

variable {α β : Type}

attribute [simp] length_encode decode_encode

/-- An unsigned number of `n` bytes whose values are the naturals below `256 ^ n`. -/
def ofNat (n : Nat) (toNat : α → Nat) (ofNat : Nat → α) (hlt : ∀ a, toNat a < 256 ^ n)
    (hinv : ∀ a, ofNat (toNat a) = a) : Codec α where
  size := n
  encode a := leBytes n (toNat a)
  decode l := ofNat (leNat (l.take n))
  length_encode a := length_leBytes n _
  decode_encode a rest := by
    rw [List.take_left' (length_leBytes n _), leNat_leBytes, Nat.mod_eq_of_lt (hlt a), hinv]

def u8 : Codec UInt8 :=
  ofNat 1 UInt8.toNat UInt8.ofNat (fun a => a.toNat_lt) (fun _ => UInt8.ofNat_toNat)

def u16 : Codec UInt16 :=
  ofNat 2 UInt16.toNat UInt16.ofNat (fun a => a.toNat_lt) (fun _ => UInt16.ofNat_toNat)

def u32 : Codec UInt32 :=
  ofNat 4 UInt32.toNat UInt32.ofNat (fun a => a.toNat_lt) (fun _ => UInt32.ofNat_toNat)

@[simp] theorem u32_size : u32.size = 4 := rfl

theorem u32_encode_decode {l : List UInt8} (h : l.length = 4) : u32.encode (u32.decode l) = l := by
  have hlt : leNat l < 2 ^ 32 := by
    have hlt := leNat_lt l
    rw [h] at hlt
    exact hlt
  have htake : l.take 4 = l := List.take_of_length_le (Nat.le_of_eq h)
  show leBytes 4 (UInt32.ofNat (leNat (l.take 4))).toNat = l
  rw [htake, UInt32.toNat_ofNat', Nat.mod_eq_of_lt hlt, ← h, leBytes_leNat]

theorem u32_decode_inj {l l' : List UInt8} (h : l.length = 4) (h' : l'.length = 4)
    (heq : u32.decode l = u32.decode l') :
    l = l' := by
  rw [← u32_encode_decode h, heq, u32_encode_decode h']

/-- `n` bytes of structure padding: written as zeros, ignored when read. -/
def pad (n : Nat) : Codec Unit where
  size := n
  encode _ := List.replicate n 0
  decode _ := ()
  length_encode _ := by simp
  decode_encode _ _ := rfl

def prod (a : Codec α) (b : Codec β) : Codec (α × β) where
  size := a.size + b.size
  encode p := a.encode p.1 ++ b.encode p.2
  decode l := (a.decode l, b.decode (l.drop a.size))
  length_encode p := by simp
  decode_encode p rest := by
    rw [List.append_assoc, a.decode_encode, List.drop_left' (a.length_encode _), b.decode_encode]

/-- The same bytes read as another type. -/
def iso (c : Codec α) (f : α → β) (g : β → α) (h : ∀ b, f (g b) = b) : Codec β where
  size := c.size
  encode b := c.encode (g b)
  decode l := f (c.decode l)
  length_encode b := c.length_encode _
  decode_encode b rest := by rw [c.decode_encode, h]

/-! ### Arrays -/

variable (c : Codec α)

def encodeArray (xs : List α) : List UInt8 := xs.flatMap c.encode

def decodeArray : Nat → List UInt8 → List α
  | 0, _ => []
  | n + 1, l => c.decode l :: decodeArray n (l.drop c.size)

@[simp] theorem length_decodeArray (n : Nat) (l : List UInt8) : (c.decodeArray n l).length = n := by
  induction n generalizing l with
  | zero => rfl
  | succ n ih => simp [decodeArray, ih]

@[simp] theorem encodeArray_nil : c.encodeArray [] = [] := rfl

@[simp] theorem encodeArray_cons (x : α) (xs : List α) :
    c.encodeArray (x :: xs) = c.encode x ++ c.encodeArray xs := rfl

@[simp] theorem encodeArray_append (xs ys : List α) :
    c.encodeArray (xs ++ ys) = c.encodeArray xs ++ c.encodeArray ys := by
  simp [encodeArray]

@[simp] theorem length_encodeArray (xs : List α) :
    (c.encodeArray xs).length = xs.length * c.size := by
  induction xs with
  | nil => simp
  | cons x xs ih => simp [ih]; ring

@[simp] theorem decodeArray_encodeArray (xs : List α) (rest : List UInt8) :
    c.decodeArray xs.length (c.encodeArray xs ++ rest) = xs := by
  induction xs with
  | nil => rfl
  | cons x xs ih =>
    rw [encodeArray_cons, List.append_assoc, List.length_cons, decodeArray, c.decode_encode,
      List.drop_left' (c.length_encode x), ih]

theorem decodeArray_encodeArray_self {n : Nat} {xs : List α} (h : xs.length = n) :
    c.decodeArray n (c.encodeArray xs) = xs := by
  have hxs := c.decodeArray_encodeArray xs []
  rwa [List.append_nil, h] at hxs

theorem encodeArray_inj {xs ys : List α} (h : xs.length = ys.length) :
    c.encodeArray xs = c.encodeArray ys ↔ xs = ys := by
  refine ⟨fun heq => ?_, fun heq => heq ▸ rfl⟩
  rw [← c.decodeArray_encodeArray_self h, heq, c.decodeArray_encodeArray_self rfl]

theorem decodeArray_take {n : Nat} {xs : List α} (h : n ≤ xs.length) :
    c.decodeArray n ((c.encodeArray xs).take (n * c.size)) = xs.take n := by
  have hlen : (xs.take n).length = n := List.length_take_of_le h
  have hsplit : c.encodeArray xs = c.encodeArray (xs.take n) ++ c.encodeArray (xs.drop n) := by
    rw [← encodeArray_append, List.take_append_drop]
  have hbytes : (c.encodeArray (xs.take n)).length = n * c.size := by rw [length_encodeArray, hlen]
  have hdecode := c.decodeArray_encodeArray (xs.take n) []
  rw [hlen, List.append_nil] at hdecode
  rw [hsplit, List.take_left' hbytes, hdecode]

/-- A fixed number of records, as in a C array member. -/
def vector (n : Nat) : Codec (Vector α n) where
  size := n * c.size
  encode v := c.encodeArray v.toList
  decode l := ⟨(c.decodeArray n l).toArray, by simp⟩
  length_encode v := by simp
  decode_encode v rest := by
    have h := c.decodeArray_encodeArray v.toList rest
    rw [Vector.length_toList] at h
    apply Vector.toArray_inj.1
    simp only [h]
    exact Array.toArray_toList

end Codec

/-! ### Comparing bytes -/

/-- `memcmp` of two buffers of one length: the difference of the first two bytes that differ. -/
def memcmp : List UInt8 → List UInt8 → Int
  | a :: as, b :: bs => if a = b then memcmp as bs else (a.toNat : Int) - b.toNat
  | _, _ => 0

/-- The bytes as the digits of a number, the first one the most significant. -/
def beNat : List UInt8 → Nat
  | [] => 0
  | b :: bs => b.toNat * 256 ^ bs.length + beNat bs

theorem beNat_lt (bs : List UInt8) : beNat bs < 256 ^ bs.length := by
  induction bs with
  | nil => exact Nat.one_pos
  | cons b bs ih =>
    have hb := b.toNat_lt
    calc beNat (b :: bs) < b.toNat * 256 ^ bs.length + 256 ^ bs.length := Nat.add_lt_add_left ih _
      _ = (b.toNat + 1) * 256 ^ bs.length := by ring
      _ ≤ 256 * 256 ^ bs.length := Nat.mul_le_mul_right _ hb
      _ = 256 ^ (b :: bs).length := by rw [List.length_cons, Nat.pow_succ']

theorem beNat_inj {xs ys : List UInt8} (h : xs.length = ys.length) (heq : beNat xs = beNat ys) : xs = ys := by
  induction xs generalizing ys with
  | nil => exact (List.length_eq_zero_iff.1 h.symm).symm
  | cons x xs ih =>
    cases ys with
    | nil => cases h
    | cons y ys =>
      have hlen : xs.length = ys.length := Nat.succ.inj h
      have hx := beNat_lt xs
      have hy := beNat_lt ys
      rw [hlen] at hx
      rw [beNat, beNat, hlen, Nat.add_comm, Nat.add_comm (y.toNat * _)] at heq
      have hmod := congrArg (· % 256 ^ ys.length) heq
      simp only [Nat.add_mul_mod_self_right, Nat.mod_eq_of_lt hx, Nat.mod_eq_of_lt hy] at hmod
      rw [hmod] at heq
      have hdigit := Nat.eq_of_mul_eq_mul_right (Nat.pow_pos (by decide)) (Nat.add_left_cancel heq)
      rw [UInt8.toNat_inj.1 hdigit, ih hlen hmod]

theorem memcmp_spec {xs ys : List UInt8} (h : xs.length = ys.length) :
    (memcmp xs ys < 0 ↔ beNat xs < beNat ys) ∧ (memcmp xs ys = 0 ↔ xs = ys) := by
  induction xs generalizing ys with
  | nil =>
    obtain rfl : ys = [] := List.length_eq_zero_iff.1 h.symm
    simp [memcmp]
  | cons x xs ih =>
    cases ys with
    | nil => cases h
    | cons y ys =>
      have hlen : xs.length = ys.length := Nat.succ.inj h
      rw [memcmp, beNat, beNat, hlen]
      by_cases hxy : x = y
      · rw [if_pos hxy, hxy, (ih hlen).1, (ih hlen).2]
        simp
      · have hx := beNat_lt xs
        have hy := beNat_lt ys
        rw [hlen] at hx
        have hne : x.toNat ≠ y.toNat := mt UInt8.toNat_inj.1 hxy
        rw [if_neg hxy]
        refine ⟨?_, iff_of_false (by omega) fun heq => hxy (List.cons.inj heq).1⟩
        rcases Nat.lt_or_gt_of_ne hne with hlt | hgt
        · have hmul : (x.toNat + 1) * 256 ^ ys.length ≤ y.toNat * 256 ^ ys.length := Nat.mul_le_mul_right _ hlt
          rw [Nat.add_mul, Nat.one_mul] at hmul
          exact iff_of_true (by omega) (by omega)
        · have hmul : (y.toNat + 1) * 256 ^ ys.length ≤ x.toNat * 256 ^ ys.length := Nat.mul_le_mul_right _ hgt
          rw [Nat.add_mul, Nat.one_mul] at hmul
          exact iff_of_false (by omega) (by omega)

/-! ### Writes into a buffer -/

/-- Copy `src` over the bytes of `buf` from `off` on. -/
def memcpy (buf : List UInt8) (off : Nat) (src : List UInt8) : List UInt8 :=
  buf.take off ++ src ++ buf.drop (off + src.length)

theorem memcpy_gap {off : Nat} (front gap back src : List UInt8) (hoff : off = front.length)
    (h : src.length = gap.length) : memcpy (front ++ (gap ++ back)) off src = front ++ (src ++ back) := by
  have htake : (front ++ (gap ++ back)).take off = front := by rw [hoff, List.take_left]
  have hdrop : (front ++ (gap ++ back)).drop (off + src.length) = back := by
    rw [h, hoff, ← List.drop_drop, List.drop_left, List.drop_left]
  rw [memcpy, htake, hdrop, List.append_assoc]

/-- Store records one by one at the indices `i`, `i + 1`, … of an array at `base`. -/
def Codec.store {α : Type} (c : Codec α) (base : Nat) : List α → Nat → List UInt8 → List UInt8
  | [], _, buf => buf
  | x :: xs, i, buf => c.store base xs (i + 1) (memcpy buf (base + i * c.size) (c.encode x))

/-- Storing records over a gap of their total length writes them as one array. -/
theorem Codec.store_gap {α : Type} (c : Codec α) (base : Nat) (xs : List α) (front gap back : List UInt8)
    {i : Nat} (hfront : front.length = base + i * c.size) (hgap : gap.length = xs.length * c.size) :
    c.store base xs i (front ++ (gap ++ back)) = front ++ (c.encodeArray xs ++ back) := by
  induction xs generalizing front gap i with
  | nil =>
    obtain rfl : gap = [] := by simpa using hgap
    rfl
  | cons x xs ih =>
    rw [List.length_cons, Nat.add_mul, Nat.one_mul] at hgap
    have hsplit : front ++ (gap ++ back) = front ++ (gap.take c.size ++ (gap.drop c.size ++ back)) := by
      rw [← List.append_assoc (gap.take _), List.take_append_drop]
    have hstep := memcpy_gap front (gap.take c.size) (gap.drop c.size ++ back) (c.encode x) hfront.symm
      (by rw [c.length_encode, List.length_take]; omega)
    have hfront' : (front ++ c.encode x).length = base + (i + 1) * c.size := by
      rw [List.length_append, c.length_encode, hfront, Nat.add_mul, Nat.one_mul, Nat.add_assoc]
    have hgap' : (gap.drop c.size).length = xs.length * c.size := by rw [List.length_drop]; omega
    rw [Codec.store, hsplit, hstep, ← List.append_assoc front, ih _ _ hfront' hgap']
    simp only [encodeArray_cons, List.append_assoc]

end VpnHide
