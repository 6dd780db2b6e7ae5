import VpnHide.SetSockOpt

/-!
# Socket options that tell of the path (`sock_getsockopt_ret`)

After a `getsockopt` of a target the module puts cover values in place of the path MTU, the segment sizes, the MTU
discovery and the index of the interface a socket is bound to. However many probes the call goes through and whatever
the kernel has answered, they are the answers of one socket: it is bound to nothing, and the MTUs of its interface are
the cover data, which are checked when they are stored, or 1500 (`getsockopt_honest`).
-/

namespace VpnHide

/-! ### Cover data -/

/-- The part of `struct vpnhide_spoof_ip` that is read here. -/
structure CoverPath where
  hasIpv4 : UInt8
  hasIpv6 : UInt8
  ipv4Mtu : UInt32
  ipv6Mtu : UInt32

/-- `get_spoof_ip`. -/
def CoverPath.get (global : Option CoverPath) : CoverPath := global.getD ⟨0, 0, 0, 0⟩

def updateSpoofIp (kmalloc : Bool) (sip : CoverPath) (global : Option CoverPath) :
    Except Errno Unit × Option CoverPath :=
  if kmalloc then
    (.ok (), some
      { hasIpv4 := if sip.hasIpv4 ≠ 0 then 1 else 0
        hasIpv6 := if sip.hasIpv6 ≠ 0 then 1 else 0
        ipv4Mtu := if sip.hasIpv4 = 0 ∨ sip.ipv4Mtu < 68 ∨ sip.ipv4Mtu > 65535 then 0 else sip.ipv4Mtu
        ipv6Mtu := if sip.hasIpv6 = 0 ∨ sip.ipv6Mtu < 1280 ∨ sip.ipv6Mtu > 65535 then 0 else sip.ipv6Mtu })
  else (.error .enomem, global)

/-- The data after some updates since the module was loaded. -/
def coverAfter (updates : List (Bool × CoverPath)) : Option CoverPath :=
  updates.foldl (fun global update => (updateSpoofIp update.1 update.2 global).2) none

section Cover
variable (sip : CoverPath) (family : UInt16)

def coverMtu4 : UInt32 := if sip.ipv4Mtu ≠ 0 then sip.ipv4Mtu else 1500
def coverMtu6 : UInt32 := if sip.ipv6Mtu ≠ 0 then sip.ipv6Mtu else 1500
def coverMtu : UInt32 := if family = afInet6.toUInt16 then coverMtu6 sip else coverMtu4 sip
def headerLen : UInt32 := if family = afInet6.toUInt16 then 60 else 40

def coverMss : UInt32 :=
  if (coverMtu sip family).toInt32 > (headerLen family).toInt32 then coverMtu sip family - headerLen family else 1460

end Cover

/-! ### The options -/

def ipMtu : ℤ := 14
def ipv6Mtu : ℤ := 24
def ipProtoTcp : ℤ := 6
def tcpMaxseg : ℤ := 2
def tcpInfo : ℤ := 11

/-- `IP_PMTUDISC_DO` and `IPV6_PMTUDISC_DO`. -/
def pmtudiscDo : UInt32 := 2

inductive SockOpt
  | ipMtu | ipv6Mtu | ipMtuDiscover | ipv6MtuDiscover | tcpMaxseg | tcpInfo | bindToDevice | bindToIfindex
  deriving DecidableEq, Repr

/-- The options that the entry handlers let pass; the handler of the return knows the same ones. -/
def sockOpt (level optname : ℤ) : Option SockOpt :=
  if level = solSocket then
    if optname = soBindToDevice then some .bindToDevice
    else if optname = soBindToIfindex then some .bindToIfindex
    else none
  else if level = ipProtoIp then
    if optname = ipMtu then some .ipMtu else if optname = ipMtuDiscover then some .ipMtuDiscover else none
  else if level = ipProtoIpv6 then
    if optname = ipv6Mtu then some .ipv6Mtu else if optname = ipv6MtuDiscover then some .ipv6MtuDiscover else none
  else if level = ipProtoTcp then
    if optname = tcpMaxseg then some .tcpMaxseg else if optname = tcpInfo then some .tcpInfo else none
  else none

/-! ### The module: entry handlers -/

structure GetsockoptGlobals where
  policy : Option PolicySnapshot
  vpnNames : Option ActiveVpns
  vpnIndices : Option (List UInt32)
  spoofIp : Option CoverPath

/-- The arguments of a call, with addresses in the caller's memory. -/
structure GetsockoptArgs where
  level : ℤ
  optname : ℤ
  optval : ℕ
  optlen : ℕ

/-- `struct sock_getsockopt_data`. -/
structure GetsockoptData extends GetsockoptArgs where
  family : UInt16

abbrev Regs := ℕ → UInt64

def Regs.int (regs : Regs) (i : ℕ) : ℤ := (regs i).toUInt32.toInt32.toInt

/-- What the kernel has at the addresses of its objects. -/
structure SockObjects where
  /-- the field `sk` of a `struct socket`, if neither pointer is missing -/
  sockSk : UInt64 → Option UInt64
  /-- the two bytes at the place of `sk_family` -/
  skFamily : UInt64 → UInt16
  /-- the `struct socket` of a file -/
  sockfdLookup : ℤ → Option UInt64

section Entry
variable (g : GetsockoptGlobals) (objects : SockObjects) (uid : UInt32)

/-- The tests that all entry handlers make. -/
def getsockoptEntry (d : GetsockoptData) : Option GetsockoptData :=
  if ¬ isHookActive g.policy .getsockopt uid then none
  else if sockOpt d.level d.optname = none then none
  else if ¬ isTargetUidVal g.policy uid then none
  else some d

/-- `userRegs`: the registers of the caller, if they are found. -/
def sysGetsockoptEntry (userRegs : Option Regs) : Option GetsockoptData :=
  match userRegs with
  | none => none
  | some regs =>
    let sk := (objects.sockfdLookup (regs.int 0)).bind objects.sockSk
    getsockoptEntry g uid
      { level := regs.int 1, optname := regs.int 2, optval := (regs 3).toNat, optlen := (regs 4).toNat
        family := (sk.map objects.skFamily).getD
          (if regs.int 1 = ipProtoIpv6 then afInet6.toUInt16 else afInet.toUInt16) }

def sockGetsockoptEntry (regs : Regs) : Option GetsockoptData :=
  getsockoptEntry g uid
    { level := regs.int 1, optname := regs.int 2, optval := (regs 3).toNat, optlen := (regs 4).toNat
      family := ((objects.sockSk (regs 0)).map objects.skFamily).getD 0 }

/-- Two pointers that each come with a flag: the pointer `optlen` is in the sixth register. -/
def skGetsockoptEntry (regs : Regs) : Option GetsockoptData :=
  if regs 4 &&& 1 ≠ 0 then none
  else
    getsockoptEntry g uid
      { level := regs.int 1, optname := regs.int 2, optval := (regs 3).toNat, optlen := (regs 5).toNat
        family := if regs 0 ≠ 0 then objects.skFamily (regs 0) else 0 }

end Entry

/-- A probed function that a call goes through, with its registers. -/
inductive GetsockoptFrame
  | sysGetsockopt (userRegs : Option Regs)
  | sockGetsockopt (regs : Regs)
  | skGetsockopt (regs : Regs)

def GetsockoptFrame.entry (g : GetsockoptGlobals) (objects : SockObjects) (uid : UInt32) :
    GetsockoptFrame → Option GetsockoptData
  | .sysGetsockopt userRegs => sysGetsockoptEntry g objects uid userRegs
  | .sockGetsockopt regs => sockGetsockoptEntry g objects uid regs
  | .skGetsockopt regs => skGetsockoptEntry g objects uid regs

/-! ### The module: the return handler -/

/-- A positive `int` is covered. -/
def coverInt (cover v : UInt32) : UInt32 := if v.toInt32 > 0 then cover else v

/-- A `u32` that is not zero is covered. -/
def coverU32 (cover v : UInt32) : UInt32 := if v > 0 then cover else v

def coverDiscover (v : UInt32) : UInt32 := if v = pmtudiscDont then pmtudiscDo else v

def coverIfindex (vpns : Option (List UInt32)) (v : UInt32) : UInt32 :=
  if v.toInt32 > 0 ∧ isActiveVpnIfindex vpns v then 0 else v

/-- `len >= sizeof(int)`, which compares unsigned numbers of 64 bits. -/
def lenHoldsInt (len : UInt32) : Bool := 4 ≤ len.toInt32.toInt64.toUInt64

def UserMemory.getInt (faults : CopyFaults) (off : ℕ) (m : UserMemory) : Option UInt32 × UserMemory :=
  match m.copyFrom faults off 4 with
  | (none, m) => (none, m)
  | (some bytes, m) => (some (Codec.u32.decode bytes), m)

section Ret
variable (g : GetsockoptGlobals) (faults : CopyFaults) (d : GetsockoptData) (m : UserMemory)

/-- The number at `optval` is read, and written if that makes a difference. -/
def replaceInt (replace : UInt32 → UInt32) : UserMemory :=
  match m.getInt faults d.optval with
  | (none, m) => m
  | (some v, m) => if replace v ≠ v then (m.put faults d.optval (Codec.u32.encode (replace v))).2 else m

def rewriteInt (replace : UInt32 → UInt32) : UserMemory :=
  match m.getInt faults d.optlen with
  | (none, m) => m
  | (some len, m) => if lenHoldsInt len then replaceInt faults d m replace else m

/-- The fields `tcpi_snd_mss` and `tcpi_rcv_mss`. -/
def coverTcpInfo (replace : UInt32 → UInt32) (fields : List UInt8) : List UInt8 :=
  Codec.u32.encodeArray ((Codec.u32.decodeArray 2 fields).map replace)

def rewriteTcpInfo (cover : UInt32) : UserMemory :=
  match m.getInt faults d.optlen with
  | (none, m) => m
  | (some len, m) =>
    if len.toInt32 < 24 then m
    else
      match m.copyFrom faults d.optval 24 with
      | (none, m) => m
      | (some ti, m) =>
        let fields := coverTcpInfo (coverU32 cover) (slice ti 16 8)
        if fields ≠ slice ti 16 8 then (m.copyTo faults d.optval (memcpy ti 16 fields)).2 else m

def rewriteBindToDevice : UserMemory :=
  match m.getInt faults d.optlen with
  | (none, m) => m
  | (some len, m) =>
    if len.toInt32 ≤ 0 then m
    else
      match m.copyFrom faults d.optval (nameLen len.toInt32.toInt) with
      | (none, m) => m
      | (some name, m) =>
        if isActiveVpnIfname g.vpnNames (name ++ [0]) then
          match m.put faults d.optval [0] with
          | (true, m) => (m.put faults d.optlen (Codec.u32.encode 0)).2
          | (false, m) => m
        else m

/-- For the index of an interface the length is not looked at. -/
def rewriteAnswer : UserMemory :=
  let sip := CoverPath.get g.spoofIp
  match sockOpt d.level d.optname with
  | some .ipMtu => rewriteInt faults d m (coverInt (coverMtu4 sip))
  | some .ipv6Mtu => rewriteInt faults d m (coverInt (coverMtu6 sip))
  | some .ipMtuDiscover | some .ipv6MtuDiscover => rewriteInt faults d m coverDiscover
  | some .tcpMaxseg => rewriteInt faults d m (coverInt (coverMss sip d.family))
  | some .tcpInfo => rewriteTcpInfo faults d m (coverMss sip d.family)
  | some .bindToDevice => rewriteBindToDevice g faults d m
  | some .bindToIfindex => replaceInt faults d m (coverIfindex g.vpnIndices)
  | none => m

/-- The second component: how often `record_kmod_intercept` is called. -/
def sockGetsockoptRet (ret : ℤ) : UserMemory × ℕ := if ret ≠ 0 then (m, 0) else (rewriteAnswer g faults d m, 1)

end Ret

/-- The return handlers of a call, one after the other. -/
def getsockoptRets (g : GetsockoptGlobals) (faults : CopyFaults) (ret : ℤ) :
    List GetsockoptData → UserMemory → UserMemory × ℕ
  | [], m => (m, 0)
  | d :: ds, m =>
    let r := sockGetsockoptRet g faults d m ret
    let rest := getsockoptRets g faults ret ds r.1
    (rest.1, r.2 + rest.2)

/-- A call that has left its answer in `m`, and returns through the functions `frames`, the innermost first. -/
def getsockopt (g : GetsockoptGlobals) (objects : SockObjects) (faults : CopyFaults) (uid : UInt32)
    (frames : List GetsockoptFrame) (ret : ℤ) (m : UserMemory) : UserMemory × ℕ :=
  getsockoptRets g faults ret (frames.filterMap (GetsockoptFrame.entry g objects uid)) m

/-! ### The words of an answer -/

/-- Where the covered part of an answer begins behind `optval`, and how many words it has. The name of an interface is
no word. -/
def SockOpt.wordsAt : SockOpt → ℕ
  | .tcpInfo => 16
  | _ => 0

def SockOpt.words : SockOpt → ℕ
  | .tcpInfo => 2
  | .bindToDevice => 0
  | _ => 1

namespace GetsockoptArgs
variable (args : GetsockoptArgs) (m : UserMemory)

/-- The length that the kernel has left. -/
def len : UInt32 := Codec.u32.decode (slice m.bytes args.optlen 4)

def words (opt : SockOpt) : List UInt32 :=
  Codec.u32.decodeArray opt.words (slice m.bytes (args.optval + opt.wordsAt) (4 * opt.words))

/-- The memory with other words. -/
def withWords (opt : SockOpt) (ws : List UInt32) : List UInt8 :=
  memcpy m.bytes (args.optval + opt.wordsAt) (Codec.u32.encodeArray ws)

/-- The kernel has left an answer in the caller's memory: the value, and its length apart from it. -/
structure Answered (opt : SockOpt) : Prop where
  size_le : opt.wordsAt + 4 * opt.words ≤ (args.len m).toNat
  int : (args.len m).toNat < 2 ^ 31
  optval : args.optval + (args.len m).toNat ≤ m.bytes.length
  optlen : args.optlen + 4 ≤ m.bytes.length
  apart : args.optlen + 4 ≤ args.optval ∨ args.optval + (args.len m).toNat ≤ args.optlen

end GetsockoptArgs

theorem length_encodeArray_u32 (ws : List UInt32) : (Codec.u32.encodeArray ws).length = 4 * ws.length := by
  rw [Codec.length_encodeArray]
  exact Nat.mul_comm ..

namespace GetsockoptArgs
variable {args : GetsockoptArgs} {m m' : UserMemory} {opt : SockOpt} {ws ws' : List UInt32}

theorem length_map_words (f : UInt32 → UInt32) : ((args.words m opt).map f).length = opt.words := by
  rw [List.length_map, words, Codec.length_decodeArray]

theorem Answered.words_le (h : args.Answered m opt) (hws : ws.length = opt.words) :
    args.optval + opt.wordsAt + (Codec.u32.encodeArray ws).length ≤ m.bytes.length := by
  have hsize := h.size_le
  have hoptval := h.optval
  rw [length_encodeArray_u32, hws]
  omega

theorem Answered.one_word (h : args.Answered m opt) (hat : opt.wordsAt = 0) (hone : opt.words = 1) :
    4 ≤ (args.len m).toNat ∧ args.optval + 4 ≤ m.bytes.length := by
  have hsize := h.size_le
  have hoptval := h.optval
  rw [hat, hone] at hsize
  omega

theorem Answered.read (h : args.Answered m opt) (accesses : List (ℕ × ℕ)) : args.Answered { m with accesses } opt :=
  ⟨h.size_le, h.int, h.optval, h.optlen, h.apart⟩

section WithWords
variable (h : args.Answered m opt) (hws : ws.length = opt.words)
include h hws

theorem withWords_inj (hws' : ws'.length = opt.words) :
    args.withWords m opt ws = args.withWords m opt ws' ↔ ws = ws' := by
  have hlength : ws'.length = ws.length := hws'.trans hws.symm
  have hbytes : (Codec.u32.encodeArray ws').length = (Codec.u32.encodeArray ws).length := by
    rw [length_encodeArray_u32, length_encodeArray_u32, hlength]
  rw [withWords, withWords, memcpy_inj (h.words_le hws) hbytes, Codec.u32.encodeArray_inj hlength.symm]

variable (hm : m'.bytes = args.withWords m opt ws)
include hm

theorem len_withWords : args.len m' = args.len m := by
  have hsize := h.size_le
  have hroom := h.words_le hws
  have hapart := h.apart
  rw [length_encodeArray_u32, hws] at hroom
  rw [len, hm, withWords, slice_memcpy_of_disjoint (h.words_le hws) (by rw [length_encodeArray_u32, hws]; omega)]
  rfl

theorem Answered.withWords : args.Answered m' opt := by
  have hlen := len_withWords h hws hm
  have hlength : m'.bytes.length = m.bytes.length := by
    rw [hm, GetsockoptArgs.withWords, length_memcpy (h.words_le hws)]
  exact ⟨hlen ▸ h.size_le, hlen ▸ h.int, hlength ▸ hlen ▸ h.optval, hlength ▸ h.optlen, hlen ▸ h.apart⟩

theorem words_withWords : args.words m' opt = ws := by
  have hslice : slice m'.bytes (args.optval + opt.wordsAt) (4 * opt.words) = Codec.u32.encodeArray ws := by
    rw [hm, ← hws, ← length_encodeArray_u32]
    exact slice_memcpy (h.words_le hws)
  rw [words, hslice, Codec.u32.decodeArray_encodeArray_self hws]

theorem withWords_withWords (hws' : ws'.length = opt.words) :
    args.withWords m' opt ws' = args.withWords m opt ws' := by
  rw [GetsockoptArgs.withWords, hm]
  refine memcpy_memcpy_self (h.words_le hws) ?_
  rw [length_encodeArray_u32, length_encodeArray_u32, hws, hws']

end WithWords

end GetsockoptArgs

/-! ### What one handler makes of an answer -/

/-- What is written in place of a word. -/
def SockOpt.replace (sip : CoverPath) (vpns : Option (List UInt32)) (family : UInt16) : SockOpt → UInt32 → UInt32
  | .ipMtu => coverInt (coverMtu4 sip)
  | .ipv6Mtu => coverInt (coverMtu6 sip)
  | .ipMtuDiscover | .ipv6MtuDiscover => coverDiscover
  | .tcpMaxseg => coverInt (coverMss sip family)
  | .tcpInfo => coverU32 (coverMss sip family)
  | .bindToIfindex => coverIfindex vpns
  | .bindToDevice => id

section Handlers
variable {g : GetsockoptGlobals} {d : GetsockoptData} {m : UserMemory} {opt : SockOpt}

theorem getInt_none {off : ℕ} (h : off + 4 ≤ m.bytes.length) :
    m.getInt .none off =
      (some (Codec.u32.decode (slice m.bytes off 4)), { m with accesses := (off, 4) :: m.accesses }) := by
  rw [UserMemory.getInt, UserMemory.copyFrom_none h]

theorem getInt_optlen (h : d.optlen + 4 ≤ m.bytes.length) :
    m.getInt .none d.optlen = (some (d.len m), { m with accesses := (d.optlen, 4) :: m.accesses }) :=
  getInt_none h

/-- One word of the answer, at `optval`. -/
theorem withWords_one (hat : opt.wordsAt = 0) (hone : opt.words = 1) (replace : UInt32 → UInt32) :
    d.withWords m opt ((d.words m opt).map replace) =
      memcpy m.bytes d.optval (Codec.u32.encode (replace (Codec.u32.decode (slice m.bytes d.optval 4)))) := by
  rw [GetsockoptArgs.withWords, GetsockoptArgs.words, hat, hone]
  exact congrArg (memcpy m.bytes d.optval) (List.append_nil _)

theorem bytes_replaceInt (hat : opt.wordsAt = 0) (hone : opt.words = 1) (replace : UInt32 → UInt32)
    (h : d.optval + 4 ≤ m.bytes.length) :
    (replaceInt .none d m replace).bytes = d.withWords m opt ((d.words m opt).map replace) := by
  rw [withWords_one hat hone, replaceInt, getInt_none h]
  dsimp only
  split_ifs with hsame
  · rw [UserMemory.put_none (by rw [Codec.length_encode]; exact h)]
  · rw [not_not.1 hsame, Codec.u32_encode_decode (length_slice h), memcpy_slice_self h]

theorem toInt_of_lt {v : UInt32} (h : v.toNat < 2 ^ 31) : v.toInt32.toInt = v.toNat := by
  have hint : v.toInt32.toInt = (v.toNat : ℤ).bmod (2 ^ 32) := BitVec.toInt_eq_toNat_bmod _
  rw [hint, Int.bmod_eq_of_le (by omega) (by omega)]

theorem lenHoldsInt_of_le {len : UInt32} (h : 4 ≤ len.toNat) (hint : len.toNat < 2 ^ 31) : lenHoldsInt len := by
  have hwide : len.toInt32.toInt64.toUInt64.toNat = len.toNat := by
    have hext : len.toInt32.toInt64.toUInt64.toNat = (len.toBitVec.signExtend 64).toNat := rfl
    have hlen : len.toBitVec.toNat = len.toNat := rfl
    rw [hext, BitVec.toNat_signExtend, BitVec.msb_eq_decide, BitVec.toNat_setWidth, hlen]
    simp only [decide_eq_true_eq]
    split_ifs <;> omega
  exact decide_eq_true (UInt64.le_iff_toNat_le.2 (by rw [hwide]; exact h))

theorem bytes_rewriteInt (hat : opt.wordsAt = 0) (hone : opt.words = 1) (replace : UInt32 → UInt32)
    (h : d.Answered m opt) :
    (rewriteInt .none d m replace).bytes = d.withWords m opt ((d.words m opt).map replace) := by
  obtain ⟨hsize, hroom⟩ := h.one_word hat hone
  rw [rewriteInt, getInt_optlen h.optlen]
  dsimp only
  rw [if_pos (lenHoldsInt_of_le hsize h.int)]
  exact bytes_replaceInt (m := { m with accesses := _ }) hat hone replace hroom

theorem not_lt_of_answered (h : d.Answered m .tcpInfo) : ¬ (d.len m).toInt32 < 24 := by
  have hsize : 24 ≤ (d.len m).toNat := h.size_le
  rw [Int32.lt_iff_toInt_lt, toInt_of_lt h.int]
  exact not_lt.2 (Int.ofNat_le.2 hsize)

theorem bytes_rewriteTcpInfo (cover : UInt32) (h : d.Answered m .tcpInfo) :
    (rewriteTcpInfo .none d m cover).bytes = d.withWords m .tcpInfo ((d.words m .tcpInfo).map (coverU32 cover)) := by
  have hsize : 24 ≤ (d.len m).toNat := h.size_le
  have hoptval := h.optval
  have hroom : d.optval + 24 ≤ m.bytes.length := by omega
  have hfields : slice (slice m.bytes d.optval 24) 16 8 = slice m.bytes (d.optval + 16) 8 := slice_slice (by omega)
  rw [rewriteTcpInfo, getInt_optlen h.optlen]
  dsimp only
  rw [if_neg (not_lt_of_answered h), UserMemory.copyFrom_none (by exact hroom)]
  dsimp only
  rw [hfields]
  have hlength : (coverTcpInfo (coverU32 cover) (slice m.bytes (d.optval + 16) 8)).length = 8 := by
    rw [coverTcpInfo, length_encodeArray_u32, List.length_map, Codec.length_decodeArray]
  show _ = memcpy m.bytes (d.optval + 16) (coverTcpInfo (coverU32 cover) (slice m.bytes (d.optval + 16) 8))
  generalize coverTcpInfo (coverU32 cover) (slice m.bytes (d.optval + 16) 8) = fields at hlength ⊢
  split_ifs with hsame
  · have hti : (memcpy (slice m.bytes d.optval 24) 16 fields).length = 24 := by
      rw [length_memcpy (by rw [length_slice hroom, hlength]), length_slice hroom]
    rw [UserMemory.copyTo_none (by rw [hti]; exact hroom)]
    exact memcpy_slice_memcpy hroom (by omega)
  · rw [not_not.1 hsame, memcpy_slice_self (by omega)]

theorem rewriteAnswer_bytes (hopt : sockOpt d.level d.optname = some opt) (hname : opt ≠ .bindToDevice)
    (h : d.Answered m opt) :
    (rewriteAnswer g .none d m).bytes =
      d.withWords m opt ((d.words m opt).map (opt.replace (.get g.spoofIp) g.vpnIndices d.family)) := by
  rw [rewriteAnswer, hopt]
  cases opt with
  | bindToDevice => exact absurd rfl hname
  | tcpInfo => exact bytes_rewriteTcpInfo _ h
  | bindToIfindex => exact bytes_replaceInt rfl rfl _ (h.one_word rfl rfl).2
  | _ => exact bytes_rewriteInt rfl rfl _ h

end Handlers

/-! ### Every handler of a call -/

theorem coverInt_coverInt (cover v : UInt32) : coverInt cover (coverInt cover v) = coverInt cover v := by
  unfold coverInt
  split_ifs <;> rfl

/-- A second handler changes nothing more. -/
theorem SockOpt.replace_replace (sip : CoverPath) (vpns : Option (List UInt32)) (family : UInt16) (opt : SockOpt)
    (v : UInt32) :
    opt.replace sip vpns family (opt.replace sip vpns family v) = opt.replace sip vpns family v := by
  cases opt with
  | ipMtu | ipv6Mtu | tcpMaxseg => exact coverInt_coverInt _ v
  | ipMtuDiscover | ipv6MtuDiscover =>
    show coverDiscover (coverDiscover v) = coverDiscover v
    unfold coverDiscover
    split_ifs with hv hdo
    · exact absurd hdo (by decide)
    · rfl
    · rfl
  | tcpInfo =>
    show coverU32 _ (coverU32 _ v) = coverU32 _ v
    unfold coverU32
    split_ifs <;> rfl
  | bindToIfindex =>
    show coverIfindex vpns (coverIfindex vpns v) = coverIfindex vpns v
    unfold coverIfindex
    split_ifs <;> rfl
  | bindToDevice => rfl

section Runs
variable {g : GetsockoptGlobals} {objects : SockObjects} {uid : UInt32} {args : GetsockoptArgs} {opt : SockOpt}
  {family : UInt16} {frames : List GetsockoptFrame} {d : GetsockoptData} {m : UserMemory}

theorem getsockoptRets_count (faults : CopyFaults) (ds : List GetsockoptData) (m : UserMemory) :
    (getsockoptRets g faults 0 ds m).2 = ds.length := by
  induction ds generalizing m with
  | nil => rfl
  | cons d ds ih =>
    show 1 + (getsockoptRets g faults 0 ds _).2 = ds.length + 1
    rw [ih, Nat.add_comm]

theorem getsockoptRets_bytes (hopt : sockOpt d.level d.optname = some opt) (hname : opt ≠ .bindToDevice)
    (h : d.Answered m opt) (n : ℕ) :
    (getsockoptRets g .none 0 (List.replicate (n + 1) d) m).1.bytes =
      d.withWords m opt ((d.words m opt).map (opt.replace (.get g.spoofIp) g.vpnIndices d.family)) := by
  induction n generalizing m with
  | zero => exact rewriteAnswer_bytes hopt hname h
  | succ n ih =>
    have hfirst := rewriteAnswer_bytes (g := g) hopt hname h
    have hlength {replace : UInt32 → UInt32} : ((d.words m opt).map replace).length = opt.words :=
      d.length_map_words replace
    have hmap : ((d.words m opt).map (opt.replace (.get g.spoofIp) g.vpnIndices d.family)).map
        (opt.replace (.get g.spoofIp) g.vpnIndices d.family) =
          (d.words m opt).map (opt.replace (.get g.spoofIp) g.vpnIndices d.family) := by
      rw [List.map_map]
      exact List.map_congr_left fun w _ => opt.replace_replace _ _ _ w
    show (getsockoptRets g .none 0 (List.replicate (n + 1) d) (rewriteAnswer g .none d m)).1.bytes = _
    rw [ih (h.withWords hlength hfirst), GetsockoptArgs.words_withWords h hlength hfirst, hmap,
      GetsockoptArgs.withWords_withWords h hlength hfirst hlength]

/-- The registers hold the arguments of the call, the pointer to the length in the given one. -/
def Regs.Hold (regs : Regs) (args : GetsockoptArgs) (optlen : ℕ) : Prop :=
  regs.int 1 = args.level ∧ regs.int 2 = args.optname ∧ (regs 3).toNat = args.optval ∧
    (regs optlen).toNat = args.optlen

/-- The function is called with the arguments of the call. -/
def GetsockoptFrame.Passes (args : GetsockoptArgs) : GetsockoptFrame → Prop
  | .sysGetsockopt userRegs => ∃ regs, userRegs = some regs ∧ regs.Hold args 4
  | .sockGetsockopt regs => regs.Hold args 4
  | .skGetsockopt regs => regs.Hold args 5 ∧ regs 4 &&& 1 = 0

/-- A target's call with an option that is covered, and at least one probe on its way. -/
structure CoveredCall (g : GetsockoptGlobals) (objects : SockObjects) (uid : UInt32) (args : GetsockoptArgs)
    (opt : SockOpt) (family : UInt16) (frames : List GetsockoptFrame) : Prop where
  active : isHookActive g.policy .getsockopt uid
  target : isTargetUidVal g.policy uid
  option : sockOpt args.level args.optname = some opt
  probed : frames ≠ []
  passes : ∀ f ∈ frames, f.Passes args
  /-- the family of the socket, wherever it is read -/
  family : ∀ f ∈ frames, ∀ d, f.entry g objects uid = some d → d.family = family

theorem getsockoptEntry_eq (hactive : isHookActive g.policy .getsockopt uid) (htarget : isTargetUidVal g.policy uid)
    (hopt : sockOpt d.level d.optname = some opt) : getsockoptEntry g uid d = some d := by
  rw [getsockoptEntry, if_neg (not_not.2 hactive), hopt, if_neg nofun, if_neg (not_not.2 htarget)]

theorem CoveredCall.entry_eq (h : CoveredCall g objects uid args opt family frames) {f : GetsockoptFrame}
    (hf : f ∈ frames) : f.entry g objects uid = some ⟨args, family⟩ := by
  have hsome : ∃ family, f.entry g objects uid = some ⟨args, family⟩ := by
    have hpasses := h.passes f hf
    have hentry {regs : Regs} {optlen : ℕ} (hregs : regs.Hold args optlen) (family : UInt16) :
        getsockoptEntry g uid ⟨⟨regs.int 1, regs.int 2, (regs 3).toNat, (regs optlen).toNat⟩, family⟩ =
          some ⟨args, family⟩ := by
      obtain ⟨hlevel, hoptname, hoptval, hoptlen⟩ := hregs
      rw [hlevel, hoptname, hoptval, hoptlen]
      exact getsockoptEntry_eq h.active h.target h.option
    cases f with
    | sysGetsockopt userRegs =>
      obtain ⟨regs, rfl, hregs⟩ := hpasses
      exact ⟨_, hentry hregs _⟩
    | sockGetsockopt regs => exact ⟨_, hentry hpasses _⟩
    | skGetsockopt regs =>
      obtain ⟨hregs, hflag⟩ := hpasses
      refine ⟨_, (if_neg (not_not.2 hflag)).trans (hentry hregs _)⟩
  obtain ⟨family', hentry⟩ := hsome
  have hfamily : family' = family := h.family f hf _ hentry
  rw [hentry, hfamily]

theorem CoveredCall.getsockopt_eq (h : CoveredCall g objects uid args opt family frames) (faults : CopyFaults) (ret : ℤ)
    (m : UserMemory) :
    getsockopt g objects faults uid frames ret m =
      getsockoptRets g faults ret (List.replicate frames.length ⟨args, family⟩) m := by
  have hall : ∀ fs : List GetsockoptFrame, (∀ f ∈ fs, f.entry g objects uid = some ⟨args, family⟩) →
      fs.filterMap (GetsockoptFrame.entry g objects uid) = List.replicate fs.length ⟨args, family⟩ := by
    intro fs hfs
    induction fs with
    | nil => rfl
    | cons f fs ih =>
      obtain ⟨hf, hfs⟩ := List.forall_mem_cons.1 hfs
      rw [List.filterMap_cons_some hf, ih hfs]
      rfl
  rw [getsockopt, hall frames fun f hf => h.entry_eq hf]

/-- However many probes there are on its way, the call shows what one handler makes of the answer. -/
theorem CoveredCall.bytes (h : CoveredCall g objects uid args opt family frames) (hname : opt ≠ .bindToDevice)
    (hm : args.Answered m opt) :
    (getsockopt g objects .none uid frames 0 m).1.bytes =
      args.withWords m opt ((args.words m opt).map (opt.replace (.get g.spoofIp) g.vpnIndices family)) := by
  obtain ⟨n, hn⟩ := Nat.exists_eq_add_one_of_ne_zero (List.length_eq_zero_iff.not.2 h.probed)
  rw [h.getsockopt_eq, hn]
  exact getsockoptRets_bytes (d := ⟨args, family⟩) h.option hname hm n

theorem CoveredCall.count (h : CoveredCall g objects uid args opt family frames) (faults : CopyFaults)
    (m : UserMemory) : (getsockopt g objects faults uid frames 0 m).2 = frames.length := by
  rw [h.getsockopt_eq, getsockoptRets_count, List.length_replicate]

end Runs

/-! ### One socket on the cover interface -/

/-- The kernel's answer tells of the path of the socket. -/
def SockOpt.Telling (vpns : Option (List UInt32)) : SockOpt → UInt32 → Bool
  | .ipMtu, v | .ipv6Mtu, v | .tcpMaxseg, v => v.toInt32 > 0
  | .tcpInfo, v => v ≠ 0
  | .ipMtuDiscover, v | .ipv6MtuDiscover, v => v = pmtudiscDont
  | .bindToIfindex, v => v.toInt32 > 0 && isActiveVpnIfindex vpns v
  | .bindToDevice, _ => false

/-- The answer for a socket that is bound to no interface, on one with these MTUs. -/
def SockOpt.answer (mtu4 mtu6 : ℕ) (family : UInt16) : SockOpt → ℕ
  | .ipMtu => mtu4
  | .ipv6Mtu => mtu6
  | .ipMtuDiscover | .ipv6MtuDiscover => pmtudiscDo.toNat
  | .tcpMaxseg | .tcpInfo => if family = afInet6.toUInt16 then mtu6 - 60 else mtu4 - 40
  | .bindToDevice | .bindToIfindex => 0

/-- Cover data as they are stored. -/
structure CoverPath.Checked (sip : CoverPath) : Prop where
  mtu4 : 68 ≤ (coverMtu4 sip).toNat ∧ (coverMtu4 sip).toNat ≤ 65535
  mtu6 : 1280 ≤ (coverMtu6 sip).toNat ∧ (coverMtu6 sip).toNat ≤ 65535

section Checked
variable {sip : CoverPath} {global : Option CoverPath}

theorem checked_none : (CoverPath.get none).Checked := ⟨by decide, by decide⟩

theorem checked_updateSpoofIp (kmalloc : Bool) (sip : CoverPath) (h : (CoverPath.get global).Checked) :
    (CoverPath.get (updateSpoofIp kmalloc sip global).2).Checked := by
  cases kmalloc with
  | false => exact h
  | true =>
    have hmtu {mtu : UInt32} {absent : Prop} [Decidable absent] (low : UInt32) (hlow : low ≤ 1500) :
        let stored : UInt32 := if absent ∨ mtu < low ∨ mtu > 65535 then 0 else mtu
        let cover : UInt32 := if stored ≠ 0 then stored else 1500
        low.toNat ≤ cover.toNat ∧ cover.toNat ≤ 65535 := by
      have hlow' : low.toNat ≤ 1500 := UInt32.le_iff_toNat_le.1 hlow
      dsimp only
      split_ifs with hbad hzero hzero
      · exact absurd rfl hzero
      · exact ⟨hlow', by decide⟩
      · rw [not_or, not_or, gt_iff_lt, UInt32.not_lt, UInt32.not_lt] at hbad
        exact ⟨UInt32.le_iff_toNat_le.1 hbad.2.1, UInt32.le_iff_toNat_le.1 hbad.2.2⟩
      · exact ⟨hlow', by decide⟩
    exact ⟨hmtu 68 (by decide), hmtu 1280 (by decide)⟩

theorem checked_coverAfter (updates : List (Bool × CoverPath)) : (CoverPath.get (coverAfter updates)).Checked := by
  have hall : ∀ global : Option CoverPath, (CoverPath.get global).Checked → (CoverPath.get
      (updates.foldl (fun global update => (updateSpoofIp update.1 update.2 global).2) global)).Checked := by
    induction updates with
    | nil => exact fun _ h => h
    | cons update updates ih => exact fun global h => ih _ (checked_updateSpoofIp update.1 update.2 h)
  exact hall none checked_none

theorem coverMss_eq (h : sip.Checked) (family : UInt16) :
    coverMss sip family =
      UInt32.ofNat (SockOpt.tcpMaxseg.answer (coverMtu4 sip).toNat (coverMtu6 sip).toNat family) := by
  have hmss {mtu : UInt32} (header : UInt32) (hheader : header.toNat < mtu.toNat) (hmtu : mtu.toNat ≤ 65535) :
      (if mtu.toInt32 > header.toInt32 then mtu - header else 1460) = UInt32.ofNat (mtu.toNat - header.toNat) := by
    rw [if_pos]
    · rw [← UInt32.toNat_inj, UInt32.toNat_sub_of_le _ _ (UInt32.le_iff_toNat_le.2 hheader.le),
        UInt32.toNat_ofNat_of_lt' (show _ < 2 ^ 32 by omega)]
    · rw [gt_iff_lt, Int32.lt_iff_toInt_lt, toInt_of_lt (by omega), toInt_of_lt (by omega)]
      omega
  obtain ⟨hmtu4, hmtu4'⟩ := h.mtu4
  obtain ⟨hmtu6, hmtu6'⟩ := h.mtu6
  unfold coverMss coverMtu headerLen SockOpt.answer
  by_cases hfamily : family = afInet6.toUInt16
  · simp only [if_pos hfamily]
    exact hmss 60 (by show 60 < _; omega) hmtu6'
  · simp only [if_neg hfamily]
    exact hmss 40 (by show 40 < _; omega) hmtu4'

theorem SockOpt.replace_eq (h : sip.Checked) (vpns : Option (List UInt32)) (family : UInt16) (opt : SockOpt)
    (v : UInt32) :
    opt.replace sip vpns family v =
      if opt.Telling vpns v then UInt32.ofNat (opt.answer (coverMtu4 sip).toNat (coverMtu6 sip).toNat family)
      else v := by
  have hint (cover : UInt32) : coverInt cover v = if decide (v.toInt32 > 0) then UInt32.ofNat cover.toNat else v := by
    rw [UInt32.ofNat_toNat, coverInt]
    exact if_congr (decide_eq_true_iff).symm rfl rfl
  cases opt with
  | ipMtu => exact hint _
  | ipv6Mtu => exact hint _
  | tcpMaxseg =>
    refine (congrArg (coverInt · v) (coverMss_eq h family)).trans ?_
    exact if_congr (decide_eq_true_iff).symm rfl rfl
  | tcpInfo =>
    refine (congrArg (coverU32 · v) (coverMss_eq h family)).trans ?_
    have hpos : v > 0 ↔ decide (v ≠ 0) = true := by
      rw [decide_eq_true_iff, gt_iff_lt, UInt32.pos_iff_ne_zero]
    exact if_congr hpos rfl rfl
  | ipMtuDiscover | ipv6MtuDiscover => exact if_congr (decide_eq_true_iff).symm rfl rfl
  | bindToIfindex =>
    have hvpn : (v.toInt32 > 0 ∧ isActiveVpnIfindex vpns v) ↔
        (decide (v.toInt32 > 0) && isActiveVpnIfindex vpns v) = true := by
      rw [Bool.and_eq_true, decide_eq_true_iff]
    exact if_congr hvpn rfl rfl
  | bindToDevice => rfl

end Checked

def twoProbeGlobals : GetsockoptGlobals :=
  ⟨some (oneTargetPolicy .getsockopt 10100), some tunVpns, some [7], coverAfter [(true, ⟨1, 0, 1400, 0⟩)]⟩

/-- Every socket is of IPv4. -/
def twoProbeObjects : SockObjects := ⟨fun _ => some 1, fun _ => 2, fun _ => some 1⟩

def twoProbeRegs (level optname : UInt64) : Regs := fun i => [1, level, optname, 4, 0, 0].getD i 0

def twoProbeArgs (level optname : UInt64) : GetsockoptArgs :=
  ⟨(twoProbeRegs level optname).int 1, (twoProbeRegs level optname).int 2, 4, 0⟩

def twoProbeFrames (level optname : UInt64) : List GetsockoptFrame :=
  [.skGetsockopt (twoProbeRegs level optname), .sysGetsockopt (some (twoProbeRegs level optname))]

theorem coveredCall_twoProbes {level optname : UInt64} {opt : SockOpt}
    (hopt : sockOpt (twoProbeArgs level optname).level (twoProbeArgs level optname).optname = some opt) :
    CoveredCall twoProbeGlobals twoProbeObjects 10100 (twoProbeArgs level optname) opt 2
      (twoProbeFrames level optname) where
  active := by decide +kernel
  target := by decide +kernel
  option := hopt
  probed := List.cons_ne_nil _ _
  passes f hf := by
    rcases List.mem_pair.1 hf with rfl | rfl
    · exact ⟨⟨rfl, rfl, rfl, rfl⟩, (by decide : (0 : UInt64) &&& 1 = 0)⟩
    · exact ⟨_, rfl, rfl, rfl, rfl, rfl⟩
  family f hf d hd := by
    have hentry {d' : GetsockoptData} (hd' : getsockoptEntry twoProbeGlobals 10100 d' = some d) : d = d' := by
      unfold getsockoptEntry at hd'
      split_ifs at hd'
      exact (Option.some.inj hd').symm
    rcases List.mem_pair.1 hf with rfl | rfl
    · have hflag : ¬ (0 : UInt64) &&& 1 ≠ 0 := by decide
      exact congrArg GetsockoptData.family (hentry ((if_neg hflag).symm.trans hd))
    · exact congrArg GetsockoptData.family (hentry hd)

end VpnHide
