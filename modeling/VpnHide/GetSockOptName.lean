import VpnHide.GetSockOpt

/-!
# The name of the interface a socket is bound to (`SO_BINDTODEVICE`)

If the name that the kernel has left is a VPN's, its first byte and its length are set to zero. The rest of it stays
behind in the caller's buffer (`getsockopt_bindToDevice_eq_iff`).
-/

namespace VpnHide

namespace GetsockoptArgs

/-- The bytes of the name that the handler reads. -/
def name (args : GetsockoptArgs) (m : UserMemory) : List UInt8 :=
  slice m.bytes args.optval (nameLen (args.len m).toNat)

/-- The name that the kernel has left is a VPN's. -/
def NamesVpn (vpns : Option ActiveVpns) (args : GetsockoptArgs) (m : UserMemory) : Prop :=
  0 < (args.len m).toNat ∧ ActiveName vpns (cstr (args.name m))

/-- The memory with an empty name. -/
def withoutName (args : GetsockoptArgs) (m : UserMemory) : List UInt8 :=
  memcpy (memcpy m.bytes args.optval [0]) args.optlen (Codec.u32.encode 0)

/-- What the kernel leaves for a socket that is bound to no interface. -/
def unbound (args : GetsockoptArgs) (mem : List UInt8) : UserMemory :=
  ⟨memcpy mem args.optlen (Codec.u32.encode 0), []⟩

/-- What the kernel leaves for a socket that is bound to the interface `name`. -/
def bound (args : GetsockoptArgs) (name mem : List UInt8) : UserMemory :=
  ⟨memcpy (memcpy mem args.optval (name ++ [0])) args.optlen (Codec.u32.encode (UInt32.ofNat (name.length + 1))), []⟩

/-- The caller's memory has room for the name, apart from its length. -/
structure Room (args : GetsockoptArgs) (name mem : List UInt8) : Prop where
  optval : args.optval + (name.length + 1) ≤ mem.length
  optlen : args.optlen + 4 ≤ mem.length
  apart : args.optlen + 4 ≤ args.optval ∨ args.optval + (name.length + 1) ≤ args.optlen

end GetsockoptArgs

section BindToDevice
variable {g : GetsockoptGlobals} {objects : SockObjects} {uid : UInt32} {args : GetsockoptArgs} {family : UInt16}
  {frames : List GetsockoptFrame} {d : GetsockoptData} {m : UserMemory} {mem name bytes : List UInt8}

/-! ### What the handlers make of a name -/

theorem nameLen_le_self (n : ℕ) : nameLen n ≤ n := by
  unfold nameLen
  split_ifs <;> omega

theorem rewriteBindToDevice_of_len (hoptlen : d.optlen + 4 ≤ m.bytes.length) (hlen : d.len m = 0) :
    (rewriteBindToDevice g .none d m).bytes = m.bytes := by
  rw [rewriteBindToDevice, getInt_optlen hoptlen, hlen]
  rfl

theorem rewriteBindToDevice_bytes (h : d.Answered m .bindToDevice) :
    (d.NamesVpn g.vpnNames m → (rewriteBindToDevice g .none d m).bytes = d.withoutName m) ∧
      (¬ d.NamesVpn g.vpnNames m → (rewriteBindToDevice g .none d m).bytes = m.bytes) := by
  have hoptval := h.optval
  rcases Nat.eq_zero_or_pos (d.len m).toNat with hzero | hpos
  · have hlen : d.len m = 0 := UInt32.toNat_inj.1 hzero
    exact ⟨fun hvpn => absurd hzero hvpn.1.ne', fun _ => rewriteBindToDevice_of_len h.optlen hlen⟩
  have hint := toInt_of_lt h.int
  have hle := nameLen_le (d.len m).toNat
  have hself := nameLen_le_self (d.len m).toNat
  have hactive : isActiveVpnIfname g.vpnNames (d.name m ++ [0]) ↔ d.NamesVpn g.vpnNames m := by
    rw [isActiveVpnIfname_iff, cstr_append_nul, GetsockoptArgs.NamesVpn, and_iff_right hpos]
    rw [List.length_append, GetsockoptArgs.name, length_slice (by omega)]
    exact Nat.succ_le_succ hle
  rw [rewriteBindToDevice, getInt_optlen h.optlen]
  dsimp only
  rw [if_neg (by rw [Int32.le_iff_toInt_le, hint]; exact not_le.2 (Int.ofNat_lt.2 hpos)), hint,
    UserMemory.copyFrom_none (by show _ ≤ m.bytes.length; omega)]
  dsimp only
  rw [← hactive, GetsockoptArgs.name]
  refine ⟨fun hvpn => ?_, fun hvpn => by rw [if_neg hvpn]⟩
  have hone : d.optval + [(0 : UInt8)].length ≤ m.bytes.length := by
    rw [List.length_singleton]
    omega
  rw [if_pos hvpn, UserMemory.put_none (by exact hone)]
  dsimp only
  rw [UserMemory.put_none (by rw [Codec.length_encode, length_memcpy hone]; exact h.optlen)]
  rfl

theorem getsockoptRets_keeps (hkeep : ∀ m, m.bytes = bytes → (rewriteAnswer g .none d m).bytes = bytes)
    (hm : m.bytes = bytes) (n : ℕ) : (getsockoptRets g .none 0 (List.replicate n d) m).1.bytes = bytes := by
  induction n generalizing m with
  | zero => exact hm
  | succ n ih => exact ih (hkeep m hm)

/-- The handlers after the first one find an empty name, or the same one. -/
theorem getsockoptRets_name (hopt : sockOpt d.level d.optname = some .bindToDevice) (h : d.Answered m .bindToDevice)
    (n : ℕ) :
    (d.NamesVpn g.vpnNames m → (getsockoptRets g .none 0 (List.replicate (n + 1) d) m).1.bytes = d.withoutName m) ∧
      (¬ d.NamesVpn g.vpnNames m → (getsockoptRets g .none 0 (List.replicate (n + 1) d) m).1.bytes = m.bytes) := by
  have hanswer (m : UserMemory) : rewriteAnswer g .none d m = rewriteBindToDevice g .none d m := by
    rw [rewriteAnswer, hopt]
  have hbytes := rewriteBindToDevice_bytes (g := g) h
  rw [← hanswer] at hbytes
  constructor
  · intro hvpn
    have hpos := hvpn.1
    have hoptval := h.optval
    have hone : d.optval + [(0 : UInt8)].length ≤ m.bytes.length := by
      rw [List.length_singleton]
      omega
    have hoptlen : d.optlen + 4 ≤ (memcpy m.bytes d.optval [0]).length := by
      rw [length_memcpy hone]
      exact h.optlen
    refine getsockoptRets_keeps (fun m' hm' => ?_) (hbytes.1 hvpn) n
    rw [hanswer, rewriteBindToDevice_of_len, hm']
    · rw [hm', GetsockoptArgs.withoutName, length_memcpy (by rw [Codec.length_encode]; exact hoptlen)]
      exact hoptlen
    · rw [GetsockoptArgs.len, hm']
      exact Codec.u32.decode_slice_memcpy hoptlen 0
  · intro hvpn
    refine getsockoptRets_keeps (fun m' hm' => ?_) (hbytes.2 hvpn) n
    obtain ⟨bytes, accesses⟩ := m'
    cases hm'
    rw [hanswer]
    exact (rewriteBindToDevice_bytes (h.read accesses)).2 hvpn

theorem CoveredCall.bytes_name (h : CoveredCall g objects uid args .bindToDevice family frames)
    (hm : args.Answered m .bindToDevice) :
    (args.NamesVpn g.vpnNames m → (getsockopt g objects .none uid frames 0 m).1.bytes = args.withoutName m) ∧
      (¬ args.NamesVpn g.vpnNames m → (getsockopt g objects .none uid frames 0 m).1.bytes = m.bytes) := by
  obtain ⟨n, hn⟩ := Nat.exists_eq_add_one_of_ne_zero (List.length_eq_zero_iff.not.2 h.probed)
  rw [h.getsockopt_eq, hn]
  exact getsockoptRets_name (d := ⟨args, family⟩) h.option hm n

/-! ### A socket that is bound to a VPN, and one that is not -/

section Unbound
variable (hroom : args.Room name mem)
include hroom

theorem len_unbound : args.len (args.unbound mem) = 0 := Codec.u32.decode_slice_memcpy hroom.optlen 0

theorem answered_unbound : args.Answered (args.unbound mem) .bindToDevice := by
  have hlength : (args.unbound mem).bytes.length = mem.length :=
    length_memcpy (by rw [Codec.length_encode]; exact hroom.optlen)
  have hoptval := hroom.optval
  have hapart := hroom.apart
  refine ⟨Nat.zero_le _, ?_, ?_, ?_, ?_⟩
  · rw [len_unbound hroom]
    decide
  · rw [len_unbound hroom, hlength, UInt32.toNat_zero]
    omega
  · rw [hlength]
    exact hroom.optlen
  · rw [len_unbound hroom, UInt32.toNat_zero]
    omega

end Unbound

/-- A name whose first byte is cleared, with the byte that ends it. -/
def coverName (name : List UInt8) : List UInt8 := 0 :: (name ++ [0]).tail

section Bound
variable (hroom : args.Room name mem) (hsize : name.length < ifNamSiz)
include hroom

theorem length_bound : (args.bound name mem).bytes.length = mem.length := by
  have hlength : (memcpy mem args.optval (name ++ [0])).length = mem.length :=
    length_memcpy (by rw [List.length_append]; exact hroom.optval)
  exact (length_memcpy (by rw [hlength, Codec.length_encode]; exact hroom.optlen)).trans hlength

theorem slice_bound : slice (args.bound name mem).bytes args.optval (name.length + 1) = name ++ [0] := by
  have hoptval : args.optval + (name ++ [0]).length ≤ mem.length := by rw [List.length_append]; exact hroom.optval
  have hapart := hroom.apart
  refine (slice_memcpy_of_disjoint ?_ ?_).trans ?_
  · rw [length_memcpy hoptval, Codec.length_encode]
    exact hroom.optlen
  · rw [Codec.length_encode, Codec.u32_size]
    omega
  · have hslice := slice_memcpy hoptval
    rwa [List.length_append] at hslice

theorem withoutName_bound (hname : name ≠ []) :
    args.withoutName (args.bound name mem) =
      memcpy (memcpy mem args.optval (coverName name)) args.optlen (Codec.u32.encode 0) := by
  obtain ⟨c, cs, rfl⟩ := List.exists_cons_of_ne_nil hname
  have hoptval := hroom.optval
  have hoptlen := hroom.optlen
  have hapart := hroom.apart
  rw [List.length_cons] at hoptval hapart
  rw [GetsockoptArgs.withoutName, GetsockoptArgs.bound, coverName, List.cons_append, List.tail_cons]
  generalize UInt32.ofNat ((c :: cs).length + 1) = len
  have hsrc : args.optval + (c :: (cs ++ [0])).length ≤ mem.length := by
    rw [List.length_cons, List.length_append, List.length_singleton]
    exact hoptval
  have hone : args.optval + [(0 : UInt8)].length ≤ (memcpy mem args.optval (c :: (cs ++ [0]))).length := by
    rw [length_memcpy hsrc, List.length_singleton]
    omega
  have hlen (v : UInt32) : args.optlen + (Codec.u32.encode v).length ≤
      (memcpy mem args.optval (c :: (cs ++ [0]))).length := by
    rw [length_memcpy hsrc, Codec.length_encode, Codec.u32_size]
    exact hoptlen
  dsimp only
  rw [memcpy_comm (hlen len) hone (by rw [Codec.length_encode, List.length_singleton, Codec.u32_size]; omega),
    memcpy_memcpy_self (by rw [length_memcpy hone]; exact hlen len) (by rw [Codec.length_encode, Codec.length_encode]),
    memcpy_head hsrc]

include hsize

theorem len_bound : (args.len (args.bound name mem)).toNat = name.length + 1 := by
  have hlength : (memcpy mem args.optval (name ++ [0])).length = mem.length :=
    length_memcpy (by rw [List.length_append]; exact hroom.optval)
  have hlen : args.len (args.bound name mem) = UInt32.ofNat (name.length + 1) :=
    Codec.u32.decode_slice_memcpy (by rw [hlength]; exact hroom.optlen) _
  rw [hlen, UInt32.toNat_ofNat_of_lt' (show _ < 2 ^ 32 by rw [ifNamSiz] at hsize; omega)]

theorem answered_bound : args.Answered (args.bound name mem) .bindToDevice := by
  have hlen := len_bound hroom hsize
  have hlength := length_bound hroom
  refine ⟨Nat.zero_le _, ?_, ?_, ?_, ?_⟩
  · rw [hlen]
    rw [ifNamSiz] at hsize
    omega
  · rw [hlen, hlength]
    exact hroom.optval
  · rw [hlength]
    exact hroom.optlen
  · rw [hlen]
    exact hroom.apart

theorem cstr_name_bound (hnul : 0 ∉ name) : cstr (args.name (args.bound name mem)) = name := by
  have hname : cstr name = name :=
    List.takeWhile_eq_self_iff.2 fun c hc => decide_eq_true (ne_of_mem_of_not_mem hc hnul)
  have hle := nameLen_le_self (name.length + 1)
  have hpart : args.name (args.bound name mem) = (name ++ [0]).take (nameLen ((name.length + 1 : ℕ) : ℤ)) := by
    have hslice := slice_bound hroom
    rw [GetsockoptArgs.name, len_bound hroom hsize, ← hslice, slice, slice, List.take_take, min_eq_left hle]
  rw [hpart]
  unfold nameLen
  split_ifs with hlong
  · -- the sixteenth byte is not read
    have hlast : ifNamSiz - 1 = name.length := by
      rw [ifNamSiz] at hsize hlong ⊢
      omega
    rw [hlast, List.take_left' rfl, hname]
  · rw [Int.toNat_natCast, List.take_of_length_le (by rw [List.length_append]; rfl), cstr_append_nul, hname]

end Bound

theorem namesVpn_bound {vpns : Option ActiveVpns} (hroom : args.Room name mem) (hsize : name.length < ifNamSiz)
    (hnul : 0 ∉ name) (hvpn : ActiveName vpns name) : args.NamesVpn vpns (args.bound name mem) :=
  ⟨by rw [len_bound hroom hsize]; exact Nat.succ_pos _, by rwa [cstr_name_bound hroom hsize hnul]⟩

/-- A target's socket that is bound to a VPN looks like one that is bound to nothing only to a caller whose buffer held
all of the name but its first byte already. -/
theorem getsockopt_bindToDevice_eq_iff (h : CoveredCall g objects uid args .bindToDevice family frames)
    (hroom : args.Room name mem) (hsize : name.length < ifNamSiz) (hnul : 0 ∉ name)
    (hvpn : ActiveName g.vpnNames name) :
    (getsockopt g objects .none uid frames 0 (args.bound name mem)).1.bytes =
        (getsockopt g objects .none uid frames 0 (args.unbound mem)).1.bytes ↔
      slice mem args.optval (name.length + 1) = coverName name := by
  have hcover : (coverName name).length = name.length + 1 := by
    rw [coverName, List.length_cons, List.length_tail, List.length_append]
    rfl
  have hoptval : args.optval + (coverName name).length ≤ mem.length := by
    rw [hcover]
    exact hroom.optval
  have hlen : args.optlen + (Codec.u32.encode 0).length ≤ mem.length := by
    rw [Codec.length_encode]
    exact hroom.optlen
  have hapart : args.optlen + (Codec.u32.encode 0).length ≤ args.optval ∨
      args.optval + (name.length + 1) ≤ args.optlen := by
    rw [Codec.length_encode]
    exact hroom.apart
  have hunbound : ¬ args.NamesVpn g.vpnNames (args.unbound mem) := fun hvpn =>
    absurd hvpn.1 (by rw [len_unbound hroom]; exact Nat.lt_irrefl 0)
  rw [(h.bytes_name (answered_bound hroom hsize)).1 (namesVpn_bound hroom hsize hnul hvpn),
    (h.bytes_name (answered_unbound hroom)).2 hunbound, withoutName_bound hroom hvpn.1]
  show _ = memcpy mem args.optlen (Codec.u32.encode 0) ↔ _
  constructor
  · intro heq
    have hslice := congrArg (slice · args.optval (name.length + 1)) heq
    rw [slice_memcpy_of_disjoint (by rwa [length_memcpy hoptval]) hapart, slice_memcpy_of_disjoint hlen hapart,
      ← hcover, slice_memcpy hoptval] at hslice
    rw [← hcover]
    exact hslice.symm
  · intro hslice
    rw [← hslice, memcpy_slice_self hroom.optval]

end BindToDevice

/-- Behind the first byte of a buffer of zeros the caller finds `un0`. -/
theorem getsockopt_bindToDevice_tun :
    (getsockopt twoProbeGlobals twoProbeObjects .none 10100 (twoProbeFrames 1 25) 0
        ((twoProbeArgs 1 25).bound (bytesOf "tun0") (List.replicate 20 0))).1.bytes ≠
      (getsockopt twoProbeGlobals twoProbeObjects .none 10100 (twoProbeFrames 1 25) 0
        ((twoProbeArgs 1 25).unbound (List.replicate 20 0))).1.bytes := by
  have hopt : sockOpt (twoProbeArgs 1 25).level (twoProbeArgs 1 25).optname = some .bindToDevice := by decide
  have hroom : (twoProbeArgs 1 25).Room (bytesOf "tun0") (List.replicate 20 0) :=
    ⟨by decide +kernel, by decide, by decide +kernel⟩
  have hiff := getsockopt_bindToDevice_eq_iff (coveredCall_twoProbes hopt) hroom (by decide +kernel) (by decide +kernel)
    (by decide +kernel)
  exact mt hiff.1 (by decide +kernel)

end VpnHide
