import VpnHide.Lib.Codec
import VpnHide.Lib.Tiles

/-!
# Copies from and to another address space

Memory is the list of its bytes from some base on, with the offset and length of every access so far. Copies may fail: a
read that fails returns nothing, and of a write that fails only a first part arrives. `Confined` says where accesses and
changes were made; copies compose by `Confined.trans`.
-/

namespace VpnHide

/-! ### Bytes at an offset -/

theorem getElem?_memcpy {buf src : List UInt8} {off : ℕ} (h : off + src.length ≤ buf.length) (j : ℕ) :
    (memcpy buf off src)[j]? = if off ≤ j ∧ j < off + src.length then src[j - off]? else buf[j]? := by
  have htake : (buf.take off).length = off := List.length_take_of_le (by omega)
  rw [memcpy, List.append_assoc, List.getElem?_append, htake]
  by_cases hfront : j < off
  · rw [if_pos hfront, if_neg (by omega), List.getElem?_take_of_lt hfront]
  · rw [if_neg hfront, List.getElem?_append]
    by_cases hsrc : j - off < src.length
    · rw [if_pos hsrc, if_pos (by omega)]
    · rw [if_neg hsrc, if_neg (by omega), List.getElem?_drop]
      congr 1
      omega

theorem length_memcpy {buf src : List UInt8} {off : ℕ} (h : off + src.length ≤ buf.length) :
    (memcpy buf off src).length = buf.length := by
  rw [memcpy, List.length_append, List.length_append, List.length_drop, List.length_take_of_le (by omega)]
  omega

theorem getElem?_slice {α : Type} (xs : List α) (off len i : ℕ) :
    (slice xs off len)[i]? = if i < len then xs[off + i]? else none := by
  rw [slice, List.getElem?_take, List.getElem?_drop]

theorem length_slice {α : Type} {xs : List α} {off len : ℕ} (h : off + len ≤ xs.length) :
    (slice xs off len).length = len := by
  rw [slice, List.length_take_of_le]
  rw [List.length_drop]
  omega

theorem slice_congr {α : Type} {xs ys : List α} {off len : ℕ} (h : ∀ j, off ≤ j → j < off + len → xs[j]? = ys[j]?) :
    slice xs off len = slice ys off len := by
  refine List.ext_getElem? fun i => ?_
  rw [getElem?_slice, getElem?_slice]
  split_ifs with hi
  · exact h _ (Nat.le_add_right ..) (Nat.add_lt_add_left hi _)
  · rfl

theorem slice_memcpy {buf src : List UInt8} {off : ℕ} (h : off + src.length ≤ buf.length) :
    slice (memcpy buf off src) off src.length = src := by
  refine List.ext_getElem? fun i => ?_
  rw [getElem?_slice, getElem?_memcpy h]
  split_ifs with hi hrange
  · rw [Nat.add_sub_cancel_left]
  · omega
  · exact (List.getElem?_eq_none (not_lt.1 hi)).symm

/-- What is there already. -/
theorem memcpy_slice_self {buf : List UInt8} {off len : ℕ} (h : off + len ≤ buf.length) :
    memcpy buf off (slice buf off len) = buf := by
  have hlen : (slice buf off len).length = len := length_slice h
  refine List.ext_getElem? fun j => ?_
  rw [getElem?_memcpy (by rwa [hlen]), hlen]
  split_ifs with hj
  · rw [getElem?_slice, if_pos (by omega)]
    congr 1
    omega
  · rfl

/-- The second of two copies to one place stays. -/
theorem memcpy_memcpy_self {buf src src' : List UInt8} {off : ℕ} (h : off + src.length ≤ buf.length)
    (hsrc : src'.length = src.length) : memcpy (memcpy buf off src) off src' = memcpy buf off src' := by
  refine List.ext_getElem? fun j => ?_
  rw [getElem?_memcpy (by rwa [length_memcpy h, hsrc]), getElem?_memcpy h, getElem?_memcpy (by rwa [hsrc]), hsrc]
  split_ifs <;> rfl

theorem memcpy_inj {buf src src' : List UInt8} {off : ℕ} (h : off + src.length ≤ buf.length)
    (hsrc : src'.length = src.length) : memcpy buf off src = memcpy buf off src' ↔ src = src' := by
  refine ⟨fun heq => ?_, fun heq => heq ▸ rfl⟩
  have hslice := slice_memcpy h
  rwa [heq, ← hsrc, slice_memcpy (by rwa [hsrc]), eq_comm] at hslice

/-- A part that is changed outside and copied back as a whole. -/
theorem memcpy_slice_memcpy {buf src : List UInt8} {off len k : ℕ} (h : off + len ≤ buf.length)
    (hk : k + src.length ≤ len) :
    memcpy buf off (memcpy (slice buf off len) k src) = memcpy buf (off + k) src := by
  have hlen : (slice buf off len).length = len := length_slice h
  have hpart : k + src.length ≤ (slice buf off len).length := by rwa [hlen]
  have hinner : ∀ i, (memcpy (slice buf off len) k src)[i]? =
      if k ≤ i ∧ i < k + src.length then src[i - k]? else if i < len then buf[off + i]? else none := fun i => by
    rw [getElem?_memcpy hpart, getElem?_slice]
  refine List.ext_getElem? fun j => ?_
  rw [getElem?_memcpy (by rwa [length_memcpy hpart, hlen]), length_memcpy hpart, hlen, hinner,
    getElem?_memcpy (by omega)]
  by_cases hin : off ≤ j
  · obtain ⟨i, rfl⟩ := Nat.exists_eq_add_of_le hin
    rw [Nat.add_sub_cancel_left, Nat.add_sub_add_left]
    split_ifs <;> first | rfl | omega
  · rw [if_neg (by omega), if_neg (by omega)]

/-- A copy elsewhere. -/
theorem slice_memcpy_of_disjoint {buf src : List UInt8} {off off' len : ℕ} (h : off + src.length ≤ buf.length)
    (hdisjoint : off + src.length ≤ off' ∨ off' + len ≤ off) :
    slice (memcpy buf off src) off' len = slice buf off' len := by
  refine slice_congr fun j hj hj' => ?_
  rw [getElem?_memcpy h, if_neg (by omega)]

/-- Two copies to places apart from each other. -/
theorem memcpy_comm {buf src src' : List UInt8} {off off' : ℕ} (h : off + src.length ≤ buf.length)
    (h' : off' + src'.length ≤ buf.length) (hdisjoint : off + src.length ≤ off' ∨ off' + src'.length ≤ off) :
    memcpy (memcpy buf off src) off' src' = memcpy (memcpy buf off' src') off src := by
  refine List.ext_getElem? fun j => ?_
  rw [getElem?_memcpy (by rwa [length_memcpy h]), getElem?_memcpy h, getElem?_memcpy (by rwa [length_memcpy h']),
    getElem?_memcpy h']
  split_ifs <;> first | rfl | omega

theorem memcpy_head {buf src : List UInt8} {off : ℕ} {b c : UInt8} (h : off + (c :: src).length ≤ buf.length) :
    memcpy (memcpy buf off (c :: src)) off [b] = memcpy buf off (b :: src) := by
  have hone : off + [b].length ≤ buf.length := by
    rw [List.length_cons] at h
    rw [List.length_singleton]
    omega
  refine List.ext_getElem? fun j => ?_
  rw [getElem?_memcpy (by rwa [length_memcpy h]), getElem?_memcpy h, getElem?_memcpy (by exact h)]
  simp only [List.length_cons, List.length_nil]
  by_cases hj : off ≤ j
  · obtain ⟨i, rfl⟩ := Nat.exists_eq_add_of_le hj
    rw [Nat.add_sub_cancel_left]
    cases i <;> simp
  · rw [if_neg fun hin => hj hin.1, if_neg fun hin => hj hin.1, if_neg fun hin => hj hin.1]

theorem slice_slice {α : Type} {xs : List α} {off len k n : ℕ} (h : k + n ≤ len) :
    slice (slice xs off len) k n = slice xs (off + k) n := by
  refine List.ext_getElem? fun i => ?_
  rw [getElem?_slice, getElem?_slice, getElem?_slice]
  by_cases hi : i < n
  · rw [if_pos hi, if_pos hi, if_pos (by omega), Nat.add_assoc]
  · rw [if_neg hi, if_neg hi]

theorem Codec.decode_slice_memcpy {α : Type} (c : Codec α) {buf : List UInt8} {off : ℕ} (h : off + c.size ≤ buf.length)
    (x : α) : c.decode (slice (memcpy buf off (c.encode x)) off c.size) = x := by
  have hlen : (c.encode x).length = c.size := c.length_encode x
  have hslice : slice (memcpy buf off (c.encode x)) off (c.encode x).length = c.encode x := slice_memcpy (by rwa [hlen])
  rw [← hlen, hslice]
  exact (congrArg c.decode (List.append_nil _).symm).trans (c.decode_encode x [])

/-! ### Copies -/

structure UserMemory where
  bytes : List UInt8
  accesses : List (ℕ × ℕ)

/-- Which copies fail, by their offset. -/
structure CopyFaults where
  read : ℕ → Bool
  /-- how much arrives, if not everything -/
  write : ℕ → Option ℕ

def CopyFaults.none : CopyFaults := ⟨fun _ => false, fun _ => .none⟩

namespace UserMemory

def copyFrom (faults : CopyFaults) (off len : ℕ) (m : UserMemory) : Option (List UInt8) × UserMemory :=
  (if faults.read off ∨ m.bytes.length < off + len then none else some (slice m.bytes off len),
    { m with accesses := (off, len) :: m.accesses })

/-- The bytes of a write that arrive. -/
def arriving (faults : CopyFaults) (off : ℕ) (src : List UInt8) (m : UserMemory) : List UInt8 :=
  src.take (min ((faults.write off).getD src.length) (m.bytes.length - off))

def copyTo (faults : CopyFaults) (off : ℕ) (src : List UInt8) (m : UserMemory) : Bool × UserMemory :=
  (decide ((arriving faults off src m).length = src.length),
    ⟨memcpy m.bytes off (arriving faults off src m), (off, src.length) :: m.accesses⟩)

/-- A single store, of which nothing arrives if it fails. -/
def put (faults : CopyFaults) (off : ℕ) (src : List UInt8) (m : UserMemory) : Bool × UserMemory :=
  if (faults.write off).isSome ∨ m.bytes.length < off + src.length then
    (false, { m with accesses := (off, src.length) :: m.accesses })
  else (true, ⟨memcpy m.bytes off src, (off, src.length) :: m.accesses⟩)

/-- Accesses end below `bound`, and only bytes in `field` change. -/
structure Confined (bound : ℕ) (field : ℕ → Prop) (m m' : UserMemory) : Prop where
  length_bytes : m'.bytes.length = m.bytes.length
  accesses : ∀ a ∈ m'.accesses, a ∈ m.accesses ∨ a.1 + a.2 ≤ bound
  bytes : ∀ j, ¬ field j → m'.bytes[j]? = m.bytes[j]?

section Confined
variable {bound : ℕ} {field field' : ℕ → Prop} {m m' m'' : UserMemory} {faults : CopyFaults}
variable {off len : ℕ} {src : List UInt8}

theorem Confined.refl (bound : ℕ) (field : ℕ → Prop) (m : UserMemory) : Confined bound field m m :=
  ⟨rfl, fun _ => .inl, fun _ _ => rfl⟩

theorem Confined.trans (h : Confined bound field m m') (h' : Confined bound field m' m'') :
    Confined bound field m m'' where
  length_bytes := h'.length_bytes.trans h.length_bytes
  accesses a ha := (h'.accesses a ha).elim (h.accesses a) .inr
  bytes j hj := (h'.bytes j hj).trans (h.bytes j hj)

theorem Confined.mono (h : Confined bound field m m') (hfield : ∀ j, field j → field' j) : Confined bound field' m m' :=
  { h with bytes := fun j hj => h.bytes j fun hj' => hj (hfield j hj') }

theorem Confined.bytes_eq (h : Confined bound field m m') (hfield : ∀ j, ¬ field j) : m'.bytes = m.bytes :=
  List.ext_getElem? fun j => h.bytes j (hfield j)

theorem confined_copyFrom (faults : CopyFaults) (h : off + len ≤ bound) (field : ℕ → Prop) (m : UserMemory) :
    Confined bound field m (copyFrom faults off len m).2 where
  length_bytes := rfl
  accesses _ ha := (List.mem_cons.1 ha).elim (fun heq => .inr (heq ▸ h)) .inl
  bytes _ _ := rfl

theorem confined_copyTo (h : off + src.length ≤ bound)
    (hsrc : ∀ i < src.length, ¬ field (off + i) → src[i]? = m.bytes[off + i]?) :
    Confined bound field m (copyTo faults off src m).2 := by
  have haccesses : ∀ a ∈ (copyTo faults off src m).2.accesses, a ∈ m.accesses ∨ a.1 + a.2 ≤ bound :=
    fun a ha => (List.mem_cons.1 ha).elim (fun heq => .inr (heq ▸ h)) .inl
  rcases Nat.lt_or_ge m.bytes.length off with hout | hin
  · -- nothing arrives behind the end of the memory
    have hnil : arriving faults off src m = [] := by
      rw [arriving, Nat.sub_eq_zero_of_le hout.le, Nat.min_zero, List.take_zero]
    have hbytes : (copyTo faults off src m).2.bytes = m.bytes := by
      show memcpy m.bytes off (arriving faults off src m) = m.bytes
      rw [hnil, memcpy, List.append_nil, List.length_nil, Nat.add_zero, List.take_append_drop]
    exact ⟨congrArg List.length hbytes, haccesses, fun j _ => by rw [hbytes]⟩
  · have hlen : off + (arriving faults off src m).length ≤ m.bytes.length := by
      rw [arriving, List.length_take]
      omega
    refine ⟨length_memcpy hlen, haccesses, fun j hj => (getElem?_memcpy hlen j).trans ?_⟩
    split_ifs with hrange
    · obtain ⟨i, rfl⟩ := Nat.exists_eq_add_of_le hrange.1
      have hi : i < (arriving faults off src m).length := by omega
      rw [arriving, List.length_take] at hi
      rw [Nat.add_sub_cancel_left, arriving, List.getElem?_take_of_lt (by omega)]
      exact hsrc i (by omega) hj
    · rfl

end Confined

/-! ### Copies that do not fail -/

section NoFaults
variable {m : UserMemory} {off len : ℕ} {src : List UInt8}

theorem copyFrom_none (h : off + len ≤ m.bytes.length) :
    copyFrom .none off len m = (some (slice m.bytes off len), { m with accesses := (off, len) :: m.accesses }) := by
  rw [copyFrom, if_neg]
  rintro (hread | hlen)
  · exact Bool.false_ne_true hread
  · omega

theorem copyTo_none (h : off + src.length ≤ m.bytes.length) :
    copyTo .none off src m = (true, ⟨memcpy m.bytes off src, (off, src.length) :: m.accesses⟩) := by
  have hall : arriving .none off src m = src := by
    refine List.take_of_length_le ?_
    show src.length ≤ min src.length (m.bytes.length - off)
    omega
  rw [copyTo, hall, decide_eq_true rfl]

theorem put_none (h : off + src.length ≤ m.bytes.length) :
    put .none off src m = (true, ⟨memcpy m.bytes off src, (off, src.length) :: m.accesses⟩) := by
  rw [put, if_neg]
  rintro (hwrite | hlen)
  · exact Bool.false_ne_true hwrite
  · omega

end NoFaults

end UserMemory

end VpnHide
