import VpnHide.BpfStats
import VpnHide.FibTrie
import VpnHide.Lib.UserMemory

/-!
# Socket options (`sys_setsockopt_entry`, `sys_setsockopt_ret`)

The hook changes the option value in the caller's memory before the system call reads it. Names and indices of VPNs are
put back when the call returns, the values of five other options are not: the caller can see that they were changed
(`sysSetsockopt_keeps_iff`).
-/

namespace VpnHide

/-! ### Options -/

def solSocket : ℤ := 1
def soBindToDevice : ℤ := 25
def soBindToIfindex : ℤ := 62
def soMark : ℤ := 36
def soTimestamping : ℤ := 37
def ipProtoIp : ℤ := 0
def ipMtuDiscover : ℤ := 10
def ipProtoIpv6 : ℤ := 41
def ipv6MtuDiscover : ℤ := 23
def ipProtoUdp : ℤ := 17
def udpSegment : ℤ := 103

/-- `IP_PMTUDISC_DONT` and `IPV6_PMTUDISC_DONT`. -/
def pmtudiscDont : UInt32 := 0

/-- `SOF_TIMESTAMPING_TX_HARDWARE | SOF_TIMESTAMPING_RX_HARDWARE | SOF_TIMESTAMPING_RAW_HARDWARE`. -/
def timestampingHardware : UInt32 := 1 ||| 4 ||| 64

def sizeofSpoofIp : ℕ := 48

def eNoDev : ℤ := 19

/-- `fake_name`: `nonexistent0`, filled up with `x`. -/
def fakeName : List UInt8 := bytesOf "nonexistent0" ++ List.replicate 3 'x'.toUInt8 ++ [0]

/-! ### The hooks -/

structure SetsockoptGlobals where
  policy : Option PolicySnapshot
  vpnNames : Option ActiveVpns
  vpnIndices : Option (List UInt32)

structure SetsockoptArgs where
  level : ℤ
  optname : ℤ
  optlen : ℤ

/-- `struct sock_setsockopt_data`. Of `optval_ptr` only whether it is set; `orig` is the union. -/
structure SetsockoptData where
  overrideRet : Bool
  denyErrno : ℤ
  intercepted : Bool
  optvalPtr : Bool
  optlen : ℕ
  orig : List UInt8
  hasModifiedName : Bool
  hasModifiedIfindex : Bool

def SetsockoptData.init : SetsockoptData := ⟨false, 0, false, false, 0, [], false, false⟩

/-- The registers of the call, the caller's memory from `optval` on, the statistics, and the last argument of
`update_spoof_ip`. -/
structure SetsockoptState where
  args : SetsockoptArgs
  mem : UserMemory
  stats : StatsTable
  spoofIp : Option (List UInt8)

section Code
variable (g : SetsockoptGlobals) (faults : CopyFaults) (d : SetsockoptData) (s : SetsockoptState)

/-- The end of the entry handler. With `none` the handler of the return is not called. -/
def leaveEntry : Option SetsockoptData × SetsockoptState :=
  if ¬ d.overrideRet ∧ ¬ d.intercepted then (none, s) else (some d, s)

/-- The bytes of a name that are read. -/
def nameLen (optlen : ℤ) : ℕ := if optlen ≥ ifNamSiz then ifNamSiz - 1 else optlen.toNat

def bindToDevice : Option SetsockoptData × SetsockoptState :=
  if s.args.optlen ≤ 0 then (some d, s)
  else
    let optlen := nameLen s.args.optlen
    match s.mem.copyFrom faults 0 optlen with
    | (none, mem) => (some d, { s with mem := mem })
    | (some bytes, mem) =>
      let name := bytes ++ List.replicate (ifNamSiz - optlen) 0
      if isActiveVpnIfname g.vpnNames name then
        let d := { d with
          optvalPtr := true, optlen := optlen, orig := name, hasModifiedName := true, intercepted := true }
        match mem.copyTo faults 0 (fakeName.take optlen) with
        | (true, mem) => leaveEntry d { s with mem := mem }
        | (false, mem) =>
          leaveEntry { d with overrideRet := true, denyErrno := eNoDev }
            { s with mem := mem, args := { s.args with optlen := -1 } }
      else leaveEntry d { s with mem := mem }

def bindToIfindex : Option SetsockoptData × SetsockoptState :=
  if s.args.optlen ≠ 4 then (some d, s)
  else
    match s.mem.copyFrom faults 0 4 with
    | (none, mem) => (some d, { s with mem := mem })
    | (some bytes, mem) =>
      let ifindex := Codec.u32.decode bytes
      if ifindex.toInt32 ≤ 0 then (some d, { s with mem := mem })
      else if isActiveVpnIfindex g.vpnIndices ifindex then
        let d := { d with optvalPtr := true, optlen := 4, orig := Codec.u32.encode ifindex, hasModifiedIfindex := true,
                          intercepted := true, overrideRet := true, denyErrno := eNoDev }
        match mem.copyTo faults 0 (Codec.u32.encode (-1)) with
        | (true, mem) => leaveEntry d { s with mem := mem }
        | (false, mem) => leaveEntry d { s with mem := mem, args := { s.args with optlen := -1 } }
      else leaveEntry d { s with mem := mem }

/-- A value of four bytes is replaced, if that makes a difference. -/
def overrideInt (replace : UInt32 → UInt32) : SetsockoptData × SetsockoptState :=
  if s.args.optlen ≠ 4 then (d, s)
  else
    match s.mem.copyFrom faults 0 4 with
    | (none, mem) => (d, { s with mem := mem })
    | (some bytes, mem) =>
      let value := Codec.u32.decode bytes
      if replace value ≠ value then
        match mem.put faults 0 (Codec.u32.encode (replace value)) with
        | (true, mem) => ({ d with intercepted := true }, { s with mem := mem })
        | (false, mem) => (d, { s with mem := mem })
      else (d, { s with mem := mem })

/-- Unlike the other options, this one returns at once if there is no value to read. -/
def overrideMark : Option SetsockoptData × SetsockoptState :=
  if s.args.optlen ≠ 4 then (some d, s)
  else if (s.mem.copyFrom faults 0 4).1 = none then (some d, { s with mem := (s.mem.copyFrom faults 0 4).2 })
  else leaveEntry (overrideInt faults d s fun _ => 0).1 (overrideInt faults d s fun _ => 0).2

/-- The value is not read before it is set to zero. -/
def zeroSegment : SetsockoptData × SetsockoptState :=
  match s.mem.put faults 0 (Codec.u32.encode 0) with
  | (true, mem) => ({ d with intercepted := true }, { s with mem := mem })
  | (false, mem) => (d, { s with mem := mem })

/-- What is done about the options of a target. -/
def overrideOption : Option SetsockoptData × SetsockoptState :=
  if s.args.level = solSocket then
    if s.args.optname = soBindToDevice then bindToDevice g faults d s
    else if s.args.optname = soBindToIfindex then bindToIfindex g faults d s
    else if s.args.optname = soMark then overrideMark faults d s
    else if s.args.optname = soTimestamping then
      let r := overrideInt faults d s fun flags => flags &&& ~~~timestampingHardware
      leaveEntry r.1 r.2
    else leaveEntry d s
  else if s.args.level = ipProtoIp ∧ s.args.optname = ipMtuDiscover ∨
      s.args.level = ipProtoIpv6 ∧ s.args.optname = ipv6MtuDiscover then
    let r := overrideInt faults d s fun _ => pmtudiscDont
    leaveEntry r.1 r.2
  else if s.args.level = ipProtoUdp ∧ s.args.optname = udpSegment ∧ s.args.optlen = 4 then
    let r := zeroSegment faults d s
    leaveEntry r.1 r.2
  else leaveEntry d s

/-- The option `0x88` of level `0x5648`. `kmalloc`: `update_spoof_ip` finds memory. -/
def setSpoofIp (kmalloc : Bool) (uid : UInt32) : Option SetsockoptData × SetsockoptState :=
  if (uid = 1000 ∨ uid = 0) ∧ s.args.optlen = sizeofSpoofIp then
    match s.mem.copyFrom faults 0 sizeofSpoofIp with
    | (none, mem) => (none, { s with mem := mem })
    | (some sip, mem) =>
      if kmalloc then
        (some { SetsockoptData.init with overrideRet := true }, { s with mem := mem, spoofIp := some sip })
      else (none, { s with mem := mem })
  else (none, s)

/-- `userRegs`: the registers of the caller are found. -/
def sysSetsockoptEntry (userRegs kmalloc : Bool) (uid : UInt32) : Option SetsockoptData × SetsockoptState :=
  if ¬ isHookActive g.policy .setsockopt uid then (none, s)
  else if ¬ userRegs then (none, s)
  else if s.args.level = 0x5648 ∧ s.args.optname = 0x88 then setSpoofIp faults s kmalloc uid
  else if ¬ isTargetUidVal g.policy uid then (none, s)
  else overrideOption g faults .init s

/-- The memory that the return handler leaves. -/
def restoreOptval : UserMemory :=
  if d.hasModifiedName ∧ d.optvalPtr then (s.mem.copyTo faults 0 (d.orig.take d.optlen)).2
  else if d.hasModifiedIfindex ∧ d.optvalPtr then (s.mem.copyTo faults 0 (d.orig.take 4)).2
  else s.mem

def sysSetsockoptRet (uid : UInt32) (retval : ℤ) : SetsockoptState × ℤ :=
  ({ s with mem := restoreOptval faults d s
            stats := if d.intercepted then recordKmodIntercept s.stats uid 3 else s.stats },
    if d.overrideRet then (if d.denyErrno ≠ 0 then -d.denyErrno else 0) else retval)

/-- A call from its entry to its return. The system call itself reads the registers and the memory. -/
def sysSetsockopt (userRegs kmalloc : Bool) (uid : UInt32) (handler : SetsockoptArgs → List UInt8 → ℤ) :
    SetsockoptState × ℤ :=
  match sysSetsockoptEntry g faults s userRegs kmalloc uid with
  | (none, s) => (s, handler s.args s.mem.bytes)
  | (some d, s) => sysSetsockoptRet faults d s uid (handler s.args s.mem.bytes)

end Code

/-! ### What is left in the buffer -/

/-- The bits of an option's value that are cleared and not put back. -/
def clearedBits (args : SetsockoptArgs) : UInt32 :=
  if args.level = solSocket then
    if args.optname = soMark then 0xffffffff
    else if args.optname = soTimestamping then timestampingHardware
    else 0
  else if args.level = ipProtoIp ∧ args.optname = ipMtuDiscover ∨
      args.level = ipProtoIpv6 ∧ args.optname = ipv6MtuDiscover then 0xffffffff
  else if args.level = ipProtoUdp ∧ args.optname = udpSegment then 0xffffffff
  else 0

/-- The buffer once the return handler has run, if it does. -/
def bytesAfter (r : Option SetsockoptData × SetsockoptState) : List UInt8 :=
  (r.1.elim r.2.mem fun d => restoreOptval .none d r.2).bytes

/-- Nothing is to be put back. -/
def SetsockoptData.Plain (d : SetsockoptData) : Prop := d.hasModifiedName = false ∧ d.hasModifiedIfindex = false

section Restore
variable {d : SetsockoptData} {s : SetsockoptState}

theorem bytesAfter_some (h : d.Plain) : bytesAfter (some d, s) = s.mem.bytes := by
  show (restoreOptval .none d s).bytes = s.mem.bytes
  simp [restoreOptval, h.1, h.2]

theorem bytesAfter_leaveEntry (h : d.Plain) : bytesAfter (leaveEntry d s) = s.mem.bytes := by
  rw [leaveEntry]
  split_ifs
  · rfl
  · exact bytesAfter_some h

theorem sysSetsockopt_bytes (g : SetsockoptGlobals) (userRegs kmalloc : Bool) (uid : UInt32)
    (handler : SetsockoptArgs → List UInt8 → ℤ) :
    (sysSetsockopt g .none s userRegs kmalloc uid handler).1.mem.bytes =
      bytesAfter (sysSetsockoptEntry g .none s userRegs kmalloc uid) := by
  rw [sysSetsockopt, bytesAfter]
  rcases sysSetsockoptEntry g .none s userRegs kmalloc uid with ⟨_ | d, s⟩ <;> rfl

theorem bytesAfter_setSpoofIp (kmalloc : Bool) (uid : UInt32) :
    bytesAfter (setSpoofIp .none s kmalloc uid) = s.mem.bytes := by
  unfold setSpoofIp
  by_cases hsip : (uid = 1000 ∨ uid = 0) ∧ s.args.optlen = sizeofSpoofIp
  · rw [if_pos hsip]
    by_cases hn : 0 + sizeofSpoofIp ≤ s.mem.bytes.length
    · rw [UserMemory.copyFrom_none hn]
      cases kmalloc <;> rfl
    · rw [UserMemory.copyFrom, if_pos (.inr (not_le.1 hn))]
      rfl
  · rw [if_neg hsip]
    rfl

/-- Bytes that were read are put back over what was written in their place. -/
theorem memcpy_memcpy_slice {bytes fake : List UInt8} {n : ℕ} (hn : n ≤ bytes.length) (hfake : fake.length = n) :
    memcpy (memcpy bytes 0 fake) 0 (slice bytes 0 n) = bytes := by
  have hroom : 0 + n ≤ bytes.length := by omega
  rw [memcpy_memcpy_self (by rwa [hfake]) ((length_slice hroom).trans hfake.symm), memcpy_slice_self hroom]

theorem bytes_copyTo_slice {m : UserMemory} {bytes fake : List UInt8} {n : ℕ} (hm : m.bytes = memcpy bytes 0 fake)
    (hn : n ≤ bytes.length) (hfake : fake.length = n) : (m.copyTo .none 0 (slice bytes 0 n)).2.bytes = bytes := by
  have hlen : (slice bytes 0 n).length = n := length_slice (by omega)
  have hroom : 0 + (slice bytes 0 n).length ≤ m.bytes.length := by
    rw [hm, length_memcpy (by omega)]
    omega
  rw [UserMemory.copyTo_none hroom, hm]
  exact memcpy_memcpy_slice hn hfake

theorem leaveEntry_of_intercepted (h : d.intercepted) : leaveEntry d s = (some d, s) := if_neg fun hnot => hnot.2 h

theorem nameLen_le (optlen : ℤ) : nameLen optlen ≤ ifNamSiz - 1 := by
  unfold nameLen
  split_ifs with hlong
  · exact le_rfl
  · have hsize : (ifNamSiz : ℤ) = (ifNamSiz - 1 : ℕ) + 1 := rfl
    omega

theorem bytesAfter_bindToDevice (g : SetsockoptGlobals) (h : d.Plain) :
    bytesAfter (bindToDevice g .none d s) = s.mem.bytes := by
  unfold bindToDevice
  by_cases hneg : s.args.optlen ≤ 0
  · rw [if_pos hneg]
    exact bytesAfter_some h
  · rw [if_neg hneg]
    dsimp only
    have hle := nameLen_le s.args.optlen
    generalize nameLen s.args.optlen = n at hle ⊢
    by_cases hn : n ≤ s.mem.bytes.length
    · have hlen : (slice s.mem.bytes 0 n).length = n := length_slice (by omega)
      rw [UserMemory.copyFrom_none (by omega)]
      dsimp only
      split_ifs with hvpn
      · have hfake : (fakeName.take n).length = n := List.length_take_of_le (hle.trans (by decide))
        rw [UserMemory.copyTo_none (by rw [hfake]; exact (Nat.zero_add n).trans_le hn)]
        dsimp only
        rw [leaveEntry_of_intercepted rfl]
        show (restoreOptval _ _ _).bytes = _
        rw [restoreOptval, if_pos ⟨rfl, rfl⟩, List.take_left' hlen]
        exact bytes_copyTo_slice rfl hn hfake
      · exact bytesAfter_leaveEntry h
    · rw [UserMemory.copyFrom, if_pos (.inr (by omega))]
      exact bytesAfter_some h

theorem bytesAfter_bindToIfindex (g : SetsockoptGlobals) (h : d.Plain) :
    bytesAfter (bindToIfindex g .none d s) = s.mem.bytes := by
  unfold bindToIfindex
  by_cases hsize : s.args.optlen ≠ 4
  · rw [if_pos hsize]
    exact bytesAfter_some h
  · rw [if_neg hsize]
    by_cases hn : 4 ≤ s.mem.bytes.length
    · have hlen : (slice s.mem.bytes 0 4).length = 4 := length_slice (by omega)
      rw [UserMemory.copyFrom_none (by omega)]
      dsimp only
      split_ifs with hneg hvpn
      · exact bytesAfter_some h
      · have hfake : (Codec.u32.encode (-1)).length = 4 := Codec.u32.length_encode _
        rw [UserMemory.copyTo_none (by rw [hfake]; exact hn), Codec.u32_encode_decode hlen]
        dsimp only
        rw [leaveEntry_of_intercepted rfl]
        show (restoreOptval _ _ _).bytes = _
        rw [restoreOptval, if_neg (by simp [h.1]), if_pos ⟨rfl, rfl⟩, List.take_of_length_le hlen.le]
        exact bytes_copyTo_slice rfl hn hfake
      · exact bytesAfter_leaveEntry h
    · rw [UserMemory.copyFrom, if_pos (.inr (by omega))]
      exact bytesAfter_some h

end Restore

/-! ### Values that are not put back -/

theorem and_compl_eq_iff (v m : UInt32) : v &&& ~~~m = v ↔ v &&& m = 0 := by
  constructor
  · intro h
    rw [← h, UInt32.and_assoc, UInt32.not_and_self, UInt32.and_zero]
  · intro h
    have hbits : v.toBitVec &&& m.toBitVec = 0 := congrArg UInt32.toBitVec h
    apply UInt32.toBitVec_inj.1
    ext i hi
    have hbit : (v.toBitVec &&& m.toBitVec)[i] = false := by
      rw [hbits]
      simp
    simpa using hbit

theorem memcpy_encode_eq_iff {bytes : List UInt8} (h : 4 ≤ bytes.length) (w : UInt32) :
    memcpy bytes 0 (Codec.u32.encode w) = bytes ↔ w = Codec.u32.decode (slice bytes 0 4) := by
  constructor
  · intro heq
    have hroom : 0 + Codec.u32.size ≤ bytes.length := (Nat.zero_add _).trans_le h
    have hdecode := Codec.u32.decode_slice_memcpy hroom w
    rw [heq] at hdecode
    exact hdecode.symm
  · rintro rfl
    have hlen : (slice bytes 0 4).length = 4 := length_slice (by omega)
    rw [Codec.u32_encode_decode hlen, memcpy, hlen, slice, List.drop_zero, List.take_zero,
      List.nil_append, Nat.zero_add, List.take_append_drop]

section Override
variable {d : SetsockoptData} {s : SetsockoptState}

/-- The value of an option of four bytes. -/
def SetsockoptState.value (s : SetsockoptState) : UInt32 := Codec.u32.decode (slice s.mem.bytes 0 4)

theorem plain_overrideInt (h : d.Plain) (replace : UInt32 → UInt32) : (overrideInt .none d s replace).1.Plain := by
  unfold overrideInt
  split_ifs
  · exact h
  · split
    · exact h
    · dsimp only
      split_ifs
      · split <;> exact h
      · exact h

theorem bytes_overrideInt (replace : UInt32 → UInt32) :
    (overrideInt .none d s replace).2.mem.bytes = s.mem.bytes ↔
      ¬ (s.args.optlen = 4 ∧ 4 ≤ s.mem.bytes.length ∧ replace s.value ≠ s.value) := by
  unfold overrideInt
  by_cases hsize : s.args.optlen ≠ 4
  · simp [hsize]
  · rw [if_neg hsize]
    by_cases hn : 4 ≤ s.mem.bytes.length
    · rw [UserMemory.copyFrom_none (by omega)]
      dsimp only
      by_cases hsame : replace s.value = s.value
      · rw [if_neg (by exact not_not.2 hsame)]
        simp [hsame]
      · rw [if_pos (by exact hsame), UserMemory.put_none (by rw [Codec.length_encode]; exact hn)]
        refine (memcpy_encode_eq_iff hn _).trans ⟨fun heq => absurd heq hsame, fun hnot => ?_⟩
        exact absurd ⟨not_not.1 hsize, hn, hsame⟩ hnot
    · rw [UserMemory.copyFrom, if_pos (.inr (by omega))]
      simp [hn]

theorem bytesAfter_overrideInt (h : d.Plain) (replace : UInt32 → UInt32) :
    bytesAfter (leaveEntry (overrideInt .none d s replace).1 (overrideInt .none d s replace).2) = s.mem.bytes ↔
      ¬ (s.args.optlen = 4 ∧ 4 ≤ s.mem.bytes.length ∧ replace s.value ≠ s.value) := by
  rw [bytesAfter_leaveEntry (plain_overrideInt h replace), bytes_overrideInt]

theorem bytesAfter_overrideMark (h : d.Plain) :
    bytesAfter (overrideMark .none d s) = s.mem.bytes ↔
      ¬ (s.args.optlen = 4 ∧ 4 ≤ s.mem.bytes.length ∧ 0 ≠ s.value) := by
  unfold overrideMark
  split_ifs with hsize hread
  · simp [bytesAfter_some h, hsize]
  · rw [bytesAfter_some h]
    refine iff_of_true rfl fun ⟨_, hn, _⟩ => ?_
    rw [UserMemory.copyFrom_none (by omega)] at hread
    cases hread
  · exact bytesAfter_overrideInt h fun _ => 0

theorem bytesAfter_zeroSegment (h : d.Plain) :
    bytesAfter (leaveEntry (zeroSegment .none d s).1 (zeroSegment .none d s).2) = s.mem.bytes ↔
      ¬ (4 ≤ s.mem.bytes.length ∧ 0 ≠ s.value) := by
  unfold zeroSegment
  by_cases hn : 4 ≤ s.mem.bytes.length
  · rw [UserMemory.put_none (by rw [Codec.length_encode]; exact hn)]
    dsimp only
    rw [bytesAfter_leaveEntry (by exact h)]
    refine (memcpy_encode_eq_iff hn _).trans ⟨fun heq hnot => hnot.2 heq, fun hnot => ?_⟩
    exact not_not.1 fun hne => hnot ⟨hn, hne⟩
  · rw [UserMemory.put, if_pos (.inr (by rw [Codec.length_encode]; exact not_le.1 hn))]
    dsimp only
    rw [bytesAfter_leaveEntry (by exact h)]
    simp [hn]

theorem zero_ne_iff (v : UInt32) : 0 ≠ v ↔ v &&& 0xffffffff ≠ 0 := by
  have hall : v &&& 0xffffffff = v := UInt32.and_neg_one
  rw [hall]
  exact ne_comm

theorem bytesAfter_overrideOption (g : SetsockoptGlobals) (h : d.Plain) :
    bytesAfter (overrideOption g .none d s) = s.mem.bytes ↔
      ¬ (s.args.optlen = 4 ∧ 4 ≤ s.mem.bytes.length ∧ s.value &&& clearedBits s.args ≠ 0) := by
  unfold overrideOption clearedBits
  by_cases hsocket : s.args.level = solSocket
  · rw [if_pos hsocket, if_pos hsocket]
    by_cases hdevice : s.args.optname = soBindToDevice
    · rw [if_pos hdevice, bytesAfter_bindToDevice g h]
      simp [hdevice, soBindToDevice, soTimestamping, soMark]
    rw [if_neg hdevice]
    by_cases hifindex : s.args.optname = soBindToIfindex
    · rw [if_pos hifindex, bytesAfter_bindToIfindex g h]
      simp [hifindex, soBindToIfindex, soTimestamping, soMark]
    rw [if_neg hifindex]
    by_cases hmark : s.args.optname = soMark
    · rw [if_pos hmark, if_pos hmark, bytesAfter_overrideMark h, zero_ne_iff]
    rw [if_neg hmark, if_neg hmark]
    by_cases hstamp : s.args.optname = soTimestamping
    · rw [if_pos hstamp, if_pos hstamp, bytesAfter_overrideInt h, Ne, and_compl_eq_iff]
    · rw [if_neg hstamp, if_neg hstamp, bytesAfter_leaveEntry h]
      simp
  · rw [if_neg hsocket, if_neg hsocket]
    by_cases hdiscover : s.args.level = ipProtoIp ∧ s.args.optname = ipMtuDiscover ∨
        s.args.level = ipProtoIpv6 ∧ s.args.optname = ipv6MtuDiscover
    · rw [if_pos hdiscover, if_pos hdiscover, bytesAfter_overrideInt h, ← zero_ne_iff]
      rfl
    rw [if_neg hdiscover, if_neg hdiscover]
    by_cases hsegment : s.args.level = ipProtoUdp ∧ s.args.optname = udpSegment
    · rw [if_pos hsegment, ← zero_ne_iff]
      by_cases hsize : s.args.optlen = 4
      · rw [if_pos ⟨hsegment.1, hsegment.2, hsize⟩, bytesAfter_zeroSegment h]
        simp [hsize]
      · rw [if_neg fun hudp => hsize hudp.2.2, bytesAfter_leaveEntry h]
        simp [hsize]
    · rw [if_neg hsegment, if_neg fun hudp => hsegment ⟨hudp.1, hudp.2.1⟩, bytesAfter_leaveEntry h]
      simp

end Override

/-- The caller finds its buffer as it was, except if the value of one of five options had bits that the hook clears. -/
theorem sysSetsockopt_keeps_iff (g : SetsockoptGlobals) (s : SetsockoptState) (userRegs kmalloc : Bool) (uid : UInt32)
    (handler : SetsockoptArgs → List UInt8 → ℤ) :
    (sysSetsockopt g .none s userRegs kmalloc uid handler).1.mem.bytes = s.mem.bytes ↔
      ¬ (isHookActive g.policy .setsockopt uid ∧ isTargetUidVal g.policy uid ∧ userRegs ∧ s.args.optlen = 4 ∧
        4 ≤ s.mem.bytes.length ∧ s.value &&& clearedBits s.args ≠ 0) := by
  rw [sysSetsockopt_bytes]
  unfold sysSetsockoptEntry
  by_cases hhook : isHookActive g.policy .setsockopt uid
  · rw [if_neg (not_not.2 hhook)]
    by_cases hregs : userRegs
    · rw [if_neg (not_not.2 hregs)]
      by_cases hspoof : s.args.level = 0x5648 ∧ s.args.optname = 0x88
      · have hnone : clearedBits s.args = 0 := by
          simp [clearedBits, hspoof, solSocket, ipProtoIp, ipProtoIpv6, ipProtoUdp]
        rw [if_pos hspoof, bytesAfter_setSpoofIp, hnone]
        simp
      · rw [if_neg hspoof]
        by_cases htarget : isTargetUidVal g.policy uid
        · rw [if_neg (not_not.2 htarget), bytesAfter_overrideOption g ⟨rfl, rfl⟩]
          simp [hhook, htarget, hregs]
        · rw [if_pos htarget]
          simp [htarget, bytesAfter]
    · rw [if_pos hregs]
      simp [hregs, bytesAfter]
  · rw [if_pos hhook]
    simp [hhook, bytesAfter]

/-- A target sets a mark of 1 and finds a mark of 0. -/
theorem sysSetsockopt_zeroes_mark :
    (sysSetsockopt ⟨some (oneTargetPolicy .setsockopt 10100), none, none⟩ .none
      ⟨⟨solSocket, soMark, 4⟩, ⟨[1, 0, 0, 0], []⟩, ⟨[], 0⟩, none⟩ true true 10100 fun _ _ => 0).1.mem.bytes =
        [0, 0, 0, 0] := by
  decide +kernel

end VpnHide
