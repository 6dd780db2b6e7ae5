import VpnHide.BpfStats
import VpnHide.Stats
import VpnHide.Lib.UserMemory

/-!
# Packet information in control messages (`vh_rewrite_pktinfo_cmsgs`)

After a receive, the hook walks over the control messages that were written for the caller and replaces the interface of
packet-info messages by the cover interface if it is a VPN. The lengths in the headers are the caller's to change. The
walk ends whatever they are, stays inside the part that is used, and changes no other bytes; it goes as far as the first
header that is malformed (`vhRewritePktinfoCmsgs_confined`).
-/

namespace VpnHide

/-- The part of `struct vpnhide_spoof_ip` that is read here. -/
structure SpoofIp where
  hasIpv6 : Bool
  ipv6Addr : Vector UInt8 16
  hasIpv6Linklocal : Bool
  ipv6LinklocalAddr : Vector UInt8 16

/-- The global state that the hook reads. -/
structure PktinfoGlobals where
  policy : Option PolicySnapshot
  vpns : Option (List UInt32)
  coverIfindex : Int32
  spoofIp : Option SpoofIp

def getSpoofIp (g : PktinfoGlobals) : SpoofIp := g.spoofIp.getD ⟨false, .replicate 16 0, false, .replicate 16 0⟩

/-! ### The two structures -/

/-- `struct in_pktinfo` and `struct in6_pktinfo`. -/
inductive Pktinfo where
  | v4
  | v6
  deriving DecidableEq, Repr

def Pktinfo.size : Pktinfo → ℕ
  | v4 => 12
  | v6 => 20

/-- Where `ipi_ifindex` and `ipi6_ifindex` stand. -/
def Pktinfo.ifindexAt : Pktinfo → ℕ
  | v4 => 0
  | v6 => 16

def Pktinfo.ifindex (kind : Pktinfo) (info : List UInt8) : UInt32 := Codec.u32.decode (slice info kind.ifindexAt 4)

def ipv6AddrIsMulticast (addr : List UInt8) : Bool := addr.getD 0 0 = 0xff

/-- The type of a multicast address has the link-local bit, too, if its scope is the link. -/
def ipv6AddrIsLinklocal (addr : List UInt8) : Bool :=
  if ipv6AddrIsMulticast addr then addr.getD 1 0 &&& 0x0f = 2
  else addr.getD 0 0 = 0xfe ∧ addr.getD 1 0 &&& 0xc0 = 0x80

section Code
variable (g : PktinfoGlobals) (uid : UInt32) (hook : HookIdx)

/-- What both functions test before they write the cover's index. -/
def coverFor (ifindex : UInt32) : Option Int32 :=
  if ¬ isActiveVpnIfindex g.vpns ifindex then none
  else if ¬ isHookActive g.policy hook uid ∨ ¬ isTargetUidVal g.policy uid then none
  else if g.coverIfindex ≤ 0 then none
  else some g.coverIfindex

def vhSpoofPktinfo4 (info : List UInt8) : Option (List UInt8) :=
  (coverFor g uid hook (Pktinfo.v4.ifindex info)).map fun cover => memcpy info 0 (Codec.u32.encode cover.toUInt32)

/-- The address `ipi6_addr`, with which the structure starts. -/
def spoofAddr6 (info : List UInt8) : List UInt8 :=
  if ipv6AddrIsLinklocal info then
    if (getSpoofIp g).hasIpv6Linklocal then memcpy info 0 (getSpoofIp g).ipv6LinklocalAddr.toList else info
  else if ¬ ipv6AddrIsMulticast info then
    if (getSpoofIp g).hasIpv6 then memcpy info 0 (getSpoofIp g).ipv6Addr.toList else info
  else info

def vhSpoofPktinfo6 (info : List UInt8) : Option (List UInt8) :=
  (coverFor g uid hook (Pktinfo.v6.ifindex info)).map fun cover =>
    spoofAddr6 g (memcpy info 16 (Codec.u32.encode cover.toUInt32))

def vhSpoofPktinfo : Pktinfo → List UInt8 → Option (List UInt8)
  | .v4 => vhSpoofPktinfo4 g uid hook
  | .v6 => vhSpoofPktinfo6 g uid hook

end Code

/-! ### Headers -/

structure Cmsghdr where
  cmsgLen : ℕ
  cmsgLevel : Int32
  cmsgType : Int32

def solIp : Int32 := 0
def ipPktinfo : Int32 := 8
def solIpv6 : Int32 := 41
def ipv6Pktinfo : Int32 := 50

section Header
variable (compat : Bool)

/-- `sizeof (struct vh_compat_cmsghdr)`, `sizeof (struct cmsghdr)`. -/
def cmsgHeaderLen : ℕ := if compat then 12 else 16

def decodeCmsghdr (header : List UInt8) : Cmsghdr :=
  if compat then ⟨leNat (slice header 0 4), (Codec.u32.decode (slice header 4 4)).toInt32,
    (Codec.u32.decode (slice header 8 4)).toInt32⟩
  else ⟨leNat (slice header 0 8), (Codec.u32.decode (slice header 8 4)).toInt32,
    (Codec.u32.decode (slice header 12 4)).toInt32⟩

/-- `ALIGN (x, a)` in `size_t`. -/
def sizeAlign (x a : ℕ) : ℕ := (x + (a - 1)) % 2 ^ 64 / a * a

/-- `ALIGN (cmsg_len, sizeof (s32))`, `CMSG_ALIGN (cmsg_len)`. -/
def Cmsghdr.step (h : Cmsghdr) : ℕ := sizeAlign h.cmsgLen (if compat then 4 else 8)

/-- The structure in the payload, if there is room for it. -/
def Cmsghdr.pktinfo (h : Cmsghdr) : Option Pktinfo :=
  if h.cmsgLevel = solIp ∧ h.cmsgType = ipPktinfo ∧ h.cmsgLen - cmsgHeaderLen compat ≥ Pktinfo.v4.size then some .v4
  else if h.cmsgLevel = solIpv6 ∧ h.cmsgType = ipv6Pktinfo ∧ h.cmsgLen - cmsgHeaderLen compat ≥ Pktinfo.v6.size then
    some .v6
  else none

end Header

/-! ### The walk -/

structure MsgHdr where
  msgControllen : ℕ
  msgControlIsUser : Bool
  /-- `msg_flags & MSG_CMSG_COMPAT` -/
  compat : Bool

/-- `struct vh_pktinfo_recv_data`; of the start only whether there is one. -/
structure PktinfoRecvData where
  msg : Option MsgHdr
  controlStart : Bool
  controllenStart : ℕ
  uid : UInt32
  hook : HookIdx

/-- The caller's memory from `control_start` on, and the statistics. -/
structure PktinfoState where
  mem : UserMemory
  stats : StatsTable

section Code
variable (g : PktinfoGlobals) (faults : CopyFaults) (uid : UInt32) (hook : HookIdx)

/-- Read the structure at `payload`, replace it and write it back. -/
def rewritePktinfo (kind : Pktinfo) (payload : ℕ) (s : PktinfoState) : PktinfoState :=
  match s.mem.copyFrom faults payload kind.size with
  | (none, mem) => { s with mem := mem }
  | (some info, mem) =>
    match vhSpoofPktinfo g uid hook kind info with
    | none => { s with mem := mem }
    | some info =>
      match mem.copyTo faults payload info with
      | (true, mem) => ⟨mem, recordKmodIntercept s.stats uid 5⟩
      | (false, mem) => { s with mem := mem }

/-- What is done about one message. -/
def rewriteCmsg (compat : Bool) (offset : ℕ) (h : Cmsghdr) (s : PktinfoState) : PktinfoState :=
  match h.pktinfo compat with
  | none => s
  | some kind => rewritePktinfo g faults uid hook kind (offset + cmsgHeaderLen compat) s

/-- The loop from `offset` on; `none` if the fuel does not suffice. -/
def rewriteLoop (compat : Bool) (used : ℕ) : ℕ → ℕ → PktinfoState → Option PktinfoState
  | 0, _, _ => none
  | fuel + 1, offset, s =>
    if ¬ offset < used then some s
    else if used - offset < cmsgHeaderLen compat then some s
    else
      match s.mem.copyFrom faults offset (cmsgHeaderLen compat) with
      | (none, mem) => some { s with mem := mem }
      | (some header, mem) =>
        let h := decodeCmsghdr compat header
        if h.cmsgLen < cmsgHeaderLen compat ∨ h.cmsgLen > used - offset ∨ h.step compat < h.cmsgLen then
          some { s with mem := mem }
        else
          let s := rewriteCmsg g faults uid hook compat offset h { s with mem := mem }
          if h.step compat = 0 ∨ h.step compat > used - offset then some s
          else rewriteLoop compat used fuel (offset + h.step compat) s

def vhRewritePktinfoCmsgs (fuel : ℕ) (data : PktinfoRecvData) (s : PktinfoState) : Option PktinfoState :=
  match data.msg with
  | none => some s
  | some msg =>
    if ¬ data.controlStart ∨ ¬ msg.msgControlIsUser ∨ msg.msgControllen > data.controllenStart then some s
    else rewriteLoop g faults data.uid data.hook msg.compat (data.controllenStart - msg.msgControllen) fuel 0 s

end Code

/-! ### Replacing a structure -/

/-- Byte `i` of the structure belongs to the interface index or, for IPv6, to the address. -/
def Pktinfo.InField : Pktinfo → ℕ → Prop
  | v4, i => i < 4
  | v6, i => i < 16 ∨ 16 ≤ i ∧ i < 20

theorem Pktinfo.InField.lt_size {kind : Pktinfo} {i : ℕ} (h : kind.InField i) : i < kind.size := by
  cases kind with
  | v4 => exact h.trans (by decide)
  | v6 =>
    rcases h with h | h
    · exact h.trans (by decide)
    · exact h.2

/-- The hook is active for the uid, which is a target, and there is a cover interface. -/
def Covers (g : PktinfoGlobals) (uid : UInt32) (hook : HookIdx) : Prop :=
  isHookActive g.policy hook uid ∧ isTargetUidVal g.policy uid ∧ 0 < g.coverIfindex

section Spoof
variable {g : PktinfoGlobals} {uid : UInt32} {hook : HookIdx} {kind : Pktinfo} {info info' : List UInt8}

theorem coverFor_eq_some {ifindex : UInt32} {cover : Int32} :
    coverFor g uid hook ifindex = some cover ↔
      isActiveVpnIfindex g.vpns ifindex ∧ Covers g uid hook ∧ g.coverIfindex = cover := by
  unfold coverFor Covers
  by_cases hvpn : isActiveVpnIfindex g.vpns ifindex
  · rw [if_neg (not_not.2 hvpn)]
    by_cases htarget : isHookActive g.policy hook uid ∧ isTargetUidVal g.policy uid
    · rw [if_neg (by simp [htarget])]
      by_cases hcover : g.coverIfindex ≤ 0
      · simp [hcover, Int32.not_lt.2 hcover]
      · simp [hvpn, htarget, hcover, Int32.not_le.1 hcover]
    · rw [if_pos (by rwa [← not_and_or])]
      simp only [reduceCtorEq, false_iff]
      rintro ⟨-, ⟨hhook, huid, -⟩, -⟩
      exact htarget ⟨hhook, huid⟩
  · simp [hvpn]

theorem spoofAddr6_spec (g : PktinfoGlobals) (h : 16 ≤ info.length) :
    (spoofAddr6 g info).length = info.length ∧ ∀ i, 16 ≤ i → (spoofAddr6 g info)[i]? = info[i]? := by
  have haddr (addr : Vector UInt8 16) : (memcpy info 0 addr.toList).length = info.length ∧
      ∀ i, 16 ≤ i → (memcpy info 0 addr.toList)[i]? = info[i]? := by
    have hroom : 0 + addr.toList.length ≤ info.length := by rwa [Vector.length_toList, Nat.zero_add]
    refine ⟨length_memcpy hroom, fun i hi => ?_⟩
    rw [getElem?_memcpy hroom, Vector.length_toList, if_neg (by omega)]
  unfold spoofAddr6
  split_ifs
  · exact haddr _
  · exact ⟨rfl, fun _ _ => rfl⟩
  · exact ⟨rfl, fun _ _ => rfl⟩
  · exact haddr _
  · exact ⟨rfl, fun _ _ => rfl⟩

/-- The interface becomes that of the cover; besides only an IPv6 address is replaced. -/
theorem vhSpoofPktinfo_spec (hlen : info.length = kind.size) (h : vhSpoofPktinfo g uid hook kind info = some info') :
    isActiveVpnIfindex g.vpns (kind.ifindex info) ∧ info'.length = kind.size ∧
      kind.ifindex info' = g.coverIfindex.toUInt32 ∧ ∀ i, ¬ kind.InField i → info'[i]? = info[i]? := by
  cases kind with
  | v4 =>
    obtain ⟨cover, hcover, rfl⟩ := Option.map_eq_some_iff.1 h
    obtain ⟨hvpn, -, rfl⟩ := coverFor_eq_some.1 hcover
    have hroom : 0 + (Codec.u32.encode g.coverIfindex.toUInt32).length ≤ info.length := by
      rw [hlen, Codec.length_encode]
      decide
    refine ⟨hvpn, (length_memcpy hroom).trans hlen, Codec.u32.decode_slice_memcpy (by rw [hlen]; decide) _,
      fun i hi => ?_⟩
    rw [getElem?_memcpy hroom, Codec.length_encode, if_neg]
    rintro ⟨-, hlt⟩
    exact hi (show i < 4 by simpa using hlt)
  | v6 =>
    obtain ⟨cover, hcover, rfl⟩ := Option.map_eq_some_iff.1 h
    obtain ⟨hvpn, -, rfl⟩ := coverFor_eq_some.1 hcover
    have hroom : 16 + (Codec.u32.encode g.coverIfindex.toUInt32).length ≤ info.length := by
      rw [hlen, Codec.length_encode]
      decide
    have hsame := (length_memcpy hroom).trans hlen
    have haddr : 16 ≤ (memcpy info 16 (Codec.u32.encode g.coverIfindex.toUInt32)).length := by
      rw [hsame]
      decide
    obtain ⟨hlength, hbytes⟩ := spoofAddr6_spec g haddr
    refine ⟨hvpn, hlength.trans hsame, ?_, fun i hi => ?_⟩
    · refine Eq.trans (congrArg Codec.u32.decode (slice_congr fun j hj _ => hbytes j hj)) ?_
      exact Codec.u32.decode_slice_memcpy (by rw [hlen]; decide) _
    · simp only [Pktinfo.InField, not_or, not_and, not_lt] at hi
      rw [hbytes i hi.1, getElem?_memcpy hroom, Codec.length_encode, if_neg]
      rintro ⟨hle, hlt⟩
      exact absurd (hi.2 hle) (not_le.2 hlt)

theorem exists_vhSpoofPktinfo (h : isActiveVpnIfindex g.vpns (kind.ifindex info)) (hcovers : Covers g uid hook) :
    ∃ info', vhSpoofPktinfo g uid hook kind info = some info' := by
  have hsome := coverFor_eq_some.2 ⟨h, hcovers, rfl⟩
  cases kind with
  | v4 => exact ⟨_, Option.map_eq_some_iff.2 ⟨_, hsome, rfl⟩⟩
  | v6 => exact ⟨_, Option.map_eq_some_iff.2 ⟨_, hsome, rfl⟩⟩

end Spoof

section Rewrite
variable {g : PktinfoGlobals} {faults : CopyFaults} {uid : UInt32} {hook : HookIdx} {kind : Pktinfo} {payload : ℕ}
  {s : PktinfoState}

/-- The interface of the structure at `payload` is a VPN. -/
def vpnAt (g : PktinfoGlobals) (kind : Pktinfo) (bytes : List UInt8) (payload : ℕ) : Bool :=
  isActiveVpnIfindex g.vpns (kind.ifindex (slice bytes payload kind.size))

/-- A replacement, if there is one, is written over the structure that was read. -/
theorem rewritePktinfo_cases (g : PktinfoGlobals) (faults : CopyFaults) (uid : UInt32) (hook : HookIdx) (kind : Pktinfo)
    (payload : ℕ) (s : PktinfoState) :
    rewritePktinfo g faults uid hook kind payload s = { s with mem := (s.mem.copyFrom faults payload kind.size).2 } ∨
    ∃ info' stats, (slice s.mem.bytes payload kind.size).length = kind.size ∧
      vhSpoofPktinfo g uid hook kind (slice s.mem.bytes payload kind.size) = some info' ∧
      rewritePktinfo g faults uid hook kind payload s =
        ⟨((s.mem.copyFrom faults payload kind.size).2.copyTo faults payload info').2, stats⟩ := by
  unfold rewritePktinfo UserMemory.copyFrom
  split_ifs with hfault
  · exact .inl rfl
  · dsimp only
    cases hspoof : vhSpoofPktinfo g uid hook kind (slice s.mem.bytes payload kind.size) with
    | none => exact .inl rfl
    | some info' =>
      have hlen : (slice s.mem.bytes payload kind.size).length = kind.size := length_slice (by omega)
      dsimp only
      rcases hcopy : UserMemory.copyTo faults payload info'
        { s.mem with accesses := (payload, kind.size) :: s.mem.accesses }
        with ⟨_ | _, mem⟩
      · exact .inr ⟨info', s.stats, hlen, rfl, by rw [hcopy]⟩
      · exact .inr ⟨info', recordKmodIntercept s.stats uid 5, hlen, rfl, by rw [hcopy]⟩

theorem confined_rewritePktinfo (g : PktinfoGlobals) (faults : CopyFaults) (uid : UInt32) (hook : HookIdx)
    (s : PktinfoState) {bound : ℕ} (hbound : payload + kind.size ≤ bound) :
    UserMemory.Confined bound (fun j => vpnAt g kind s.mem.bytes payload ∧ ∃ i, kind.InField i ∧ j = payload + i) s.mem
      (rewritePktinfo g faults uid hook kind payload s).mem := by
  have hread := UserMemory.confined_copyFrom faults hbound
    (fun j => vpnAt g kind s.mem.bytes payload ∧ ∃ i, kind.InField i ∧ j = payload + i) s.mem
  rcases rewritePktinfo_cases g faults uid hook kind payload s with hkeep | ⟨info', stats, hlen, hspoof, hwrite⟩
  · rw [hkeep]
    exact hread
  · obtain ⟨hvpn, hlen', -, hbytes⟩ := vhSpoofPktinfo_spec hlen hspoof
    rw [hwrite]
    refine hread.trans (UserMemory.confined_copyTo (by rwa [hlen']) fun i hi hfield => ?_)
    rw [hbytes i fun hin => hfield ⟨hvpn, i, hin, rfl⟩, getElem?_slice, if_pos (hlen' ▸ hi)]
    rfl

theorem rewritePktinfo_of_not (h : ¬ vpnAt g kind s.mem.bytes payload) :
    (rewritePktinfo g faults uid hook kind payload s).stats = s.stats := by
  rcases rewritePktinfo_cases g faults uid hook kind payload s with hkeep | ⟨info', stats, hlen, hspoof, -⟩
  · rw [hkeep]
  · exact absurd (vhSpoofPktinfo_spec hlen hspoof).1 h

theorem not_vpnAt_rewritePktinfo (hcovers : Covers g uid hook)
    (hcover : ¬ isActiveVpnIfindex g.vpns g.coverIfindex.toUInt32) (hroom : payload + kind.size ≤ s.mem.bytes.length) :
    ¬ vpnAt g kind (rewritePktinfo g .none uid hook kind payload s).mem.bytes payload := by
  by_cases hvpn : vpnAt g kind s.mem.bytes payload
  · obtain ⟨info', hspoof⟩ := exists_vhSpoofPktinfo hvpn hcovers
    obtain ⟨-, hlen', hifindex, -⟩ := vhSpoofPktinfo_spec (length_slice hroom) hspoof
    have hroom' : payload + info'.length ≤ s.mem.bytes.length := by rwa [hlen']
    have hslice := slice_memcpy hroom'
    rw [rewritePktinfo, UserMemory.copyFrom_none hroom]
    dsimp only
    rw [hspoof]
    dsimp only
    rw [UserMemory.copyTo_none (by exact hroom'), vpnAt, ← hlen', hslice, hifindex]
    exact hcover
  · have hconfined := confined_rewritePktinfo g .none uid hook s hroom
    rwa [hconfined.bytes_eq fun j hj => hvpn hj.1]

end Rewrite

/-! ### The messages of a buffer -/

section Messages
variable (g : PktinfoGlobals) (compat : Bool) (used : ℕ) (bytes : List UInt8)

def headerAt (off : ℕ) : Cmsghdr := decodeCmsghdr compat (slice bytes off (cmsgHeaderLen compat))

/-- There is room for the header, and its length covers it, fits and can be rounded up. -/
structure WellFormedCmsg (off : ℕ) : Prop where
  room : off + cmsgHeaderLen compat ≤ used
  covers : cmsgHeaderLen compat ≤ (headerAt compat bytes off).cmsgLen
  fits : off + (headerAt compat bytes off).cmsgLen ≤ used
  rounds : (headerAt compat bytes off).cmsgLen ≤ (headerAt compat bytes off).step compat

/-- From `start` on, `off` is the place of a message before the first malformed header. -/
inductive CmsgFrom : ℕ → ℕ → Prop
  | here {off : ℕ} (h : WellFormedCmsg compat used bytes off) : CmsgFrom off off
  | next {start off : ℕ} (h : WellFormedCmsg compat used bytes start)
      (hstep : start + (headerAt compat bytes start).step compat ≤ used)
      (hnext : CmsgFrom (start + (headerAt compat bytes start).step compat) off) : CmsgFrom start off

/-- The structure of a packet-info message whose interface is a VPN. -/
def vpnInfoAt (off : ℕ) : Option Pktinfo :=
  ((headerAt compat bytes off).pktinfo compat).filter fun kind => vpnAt g kind bytes (off + cmsgHeaderLen compat)

/-- Byte `j` belongs to the interface index of such a message or, for IPv6, to its address. -/
def InVpnField (off j : ℕ) : Prop :=
  ∃ kind ∈ vpnInfoAt g compat bytes off, ∃ i, kind.InField i ∧ j = off + cmsgHeaderLen compat + i

end Messages

section Framing
variable {g : PktinfoGlobals} {compat : Bool} {used : ℕ} {bytes bytes' : List UInt8} {start off j : ℕ}

theorem Cmsghdr.pktinfo_fits {h : Cmsghdr} {kind : Pktinfo} (hkind : kind ∈ h.pktinfo compat) :
    cmsgHeaderLen compat + kind.size ≤ h.cmsgLen := by
  have hpos : 0 < kind.size := by cases kind <;> decide
  unfold pktinfo at hkind
  split_ifs at hkind with h4 h6
  · obtain rfl := Option.some.inj hkind
    omega
  · obtain rfl := Option.some.inj hkind
    omega
  · cases hkind

theorem headerAt_congr (h : ∀ j, off ≤ j → j < off + cmsgHeaderLen compat → bytes[j]? = bytes'[j]?) :
    headerAt compat bytes off = headerAt compat bytes' off :=
  congrArg _ (slice_congr h)

theorem WellFormedCmsg.congr (h : WellFormedCmsg compat used bytes off)
    (heq : headerAt compat bytes off = headerAt compat bytes' off) : WellFormedCmsg compat used bytes' off :=
  ⟨h.room, heq ▸ h.covers, heq ▸ h.fits, heq ▸ h.rounds⟩

theorem vpnInfoAt_congr (hheader : headerAt compat bytes off = headerAt compat bytes' off)
    (hbytes : ∀ j, off ≤ j → j < off + (headerAt compat bytes off).cmsgLen → bytes[j]? = bytes'[j]?) :
    vpnInfoAt g compat bytes off = vpnInfoAt g compat bytes' off := by
  rw [vpnInfoAt, vpnInfoAt, ← hheader]
  cases hkind : (headerAt compat bytes off).pktinfo compat with
  | none => rfl
  | some kind =>
    have hfits := Cmsghdr.pktinfo_fits hkind
    have hslice :
        slice bytes (off + cmsgHeaderLen compat) kind.size = slice bytes' (off + cmsgHeaderLen compat) kind.size :=
      slice_congr fun j hle hlt => hbytes j (by omega) (by omega)
    rw [Option.filter_some, Option.filter_some, vpnAt, vpnAt, hslice]

theorem vpnInfoAt_of_behind (hbytes : ∀ j, start ≤ j → bytes'[j]? = bytes[j]?) (h : start ≤ off) :
    vpnInfoAt g compat bytes' off = vpnInfoAt g compat bytes off :=
  vpnInfoAt_congr (headerAt_congr fun j hj _ => hbytes j (h.trans hj)) fun j hj _ => hbytes j (h.trans hj)

theorem vpnInfoAt_of_front (h : WellFormedCmsg compat used bytes off)
    (hbytes : ∀ j, j < off + (headerAt compat bytes off).step compat → bytes'[j]? = bytes[j]?) :
    vpnInfoAt g compat bytes' off = vpnInfoAt g compat bytes off := by
  have hcovers := h.covers
  have hrounds := h.rounds
  have hheader : headerAt compat bytes' off = headerAt compat bytes off :=
    headerAt_congr fun j _ hj => hbytes j (by omega)
  refine vpnInfoAt_congr hheader fun j _ hj => hbytes j ?_
  rw [hheader] at hj
  omega

theorem InVpnField.bounds (h : InVpnField g compat bytes off j) :
    off + cmsgHeaderLen compat ≤ j ∧ j < off + (headerAt compat bytes off).cmsgLen := by
  obtain ⟨kind, hkind, i, hi, rfl⟩ := h
  have hfits := Cmsghdr.pktinfo_fits (Option.filter_eq_some_iff.1 hkind).1
  have hlt := hi.lt_size
  omega

theorem WellFormedCmsg.step_pos (h : WellFormedCmsg compat used bytes off) :
    0 < (headerAt compat bytes off).step compat := by
  have hheader : 0 < cmsgHeaderLen compat := by cases compat <;> decide
  exact hheader.trans_le (h.covers.trans h.rounds)

theorem WellFormedCmsg.progress (h : WellFormedCmsg compat used bytes off) {fuel : ℕ} (hfuel : used - off < fuel + 1) :
    used - (off + (headerAt compat bytes off).step compat) < fuel := by
  have hroom := h.room
  have hpos := h.step_pos
  have hheader : 0 < cmsgHeaderLen compat := by cases compat <;> decide
  omega

theorem CmsgFrom.le (h : CmsgFrom compat used bytes start off) : start ≤ off := by
  induction h with
  | here => exact le_rfl
  | next _ _ _ ih => omega

theorem CmsgFrom.first (h : CmsgFrom compat used bytes start off) : WellFormedCmsg compat used bytes start := by
  cases h with
  | here h => exact h
  | next h => exact h

theorem CmsgFrom.congr (h : CmsgFrom compat used bytes start off) (hbytes : ∀ j, start ≤ j → bytes[j]? = bytes'[j]?) :
    CmsgFrom compat used bytes' start off := by
  induction h with
  | here h => exact .here (h.congr (headerAt_congr fun j hj _ => hbytes j hj))
  | @next start off h hstep _ ih =>
    have hheader : headerAt compat bytes start = headerAt compat bytes' start :=
      headerAt_congr fun j hj _ => hbytes j hj
    refine .next (h.congr hheader) (hheader ▸ hstep) (hheader ▸ ih fun j hj => hbytes j ?_)
    omega

end Framing

/-! ### One round of the loop -/

section Visit
variable (g : PktinfoGlobals) (faults : CopyFaults) (uid : UInt32) (hook : HookIdx) {compat : Bool} {used offset : ℕ}
  (s : PktinfoState)

/-- Read the header of the message at `offset`, and do what is done about it. -/
def visit (compat : Bool) (offset : ℕ) : PktinfoState :=
  rewriteCmsg g faults uid hook compat offset (headerAt compat s.mem.bytes offset)
    { s with mem := (s.mem.copyFrom faults offset (cmsgHeaderLen compat)).2 }

variable {s}

theorem confined_visit (h : WellFormedCmsg compat used s.mem.bytes offset) :
    UserMemory.Confined used (InVpnField g compat s.mem.bytes offset) s.mem
      (visit g faults uid hook s compat offset).mem := by
  have hread := UserMemory.confined_copyFrom faults h.room (InVpnField g compat s.mem.bytes offset) s.mem
  have hfits := h.fits
  rw [visit, rewriteCmsg]
  cases hkind : (headerAt compat s.mem.bytes offset).pktinfo compat with
  | none => exact hread
  | some kind =>
    have hsize := Cmsghdr.pktinfo_fits hkind
    have hbound : offset + cmsgHeaderLen compat + kind.size ≤ used := by omega
    have hwrite := confined_rewritePktinfo g faults uid hook
      { s with mem := (s.mem.copyFrom faults offset (cmsgHeaderLen compat)).2 } hbound
    refine hread.trans (hwrite.mono ?_)
    rintro j ⟨hvpn, i, hi, rfl⟩
    exact ⟨kind, Option.filter_eq_some_iff.2 ⟨hkind, hvpn⟩, i, hi, rfl⟩

theorem bytes_visit_behind (h : WellFormedCmsg compat used s.mem.bytes offset) {j : ℕ}
    (hj : offset + (headerAt compat s.mem.bytes offset).step compat ≤ j) :
    (visit g faults uid hook s compat offset).mem.bytes[j]? = s.mem.bytes[j]? := by
  refine (confined_visit g faults uid hook h).bytes j fun hfield => ?_
  have hbounds := hfield.bounds
  have hrounds := h.rounds
  omega

theorem stats_visit (h : vpnInfoAt g compat s.mem.bytes offset = none) :
    (visit g faults uid hook s compat offset).stats = s.stats := by
  rw [visit, rewriteCmsg]
  cases hkind : (headerAt compat s.mem.bytes offset).pktinfo compat with
  | none => rfl
  | some kind =>
    refine rewritePktinfo_of_not fun hvpn => ?_
    exact Option.filter_eq_none_iff.1 h kind hkind hvpn

theorem headerAt_visit (h : WellFormedCmsg compat used s.mem.bytes offset) :
    headerAt compat (visit g faults uid hook s compat offset).mem.bytes offset = headerAt compat s.mem.bytes offset :=
  headerAt_congr fun j _ hlt => (confined_visit g faults uid hook h).bytes j fun hfield => by
    have hbounds := hfield.bounds
    omega

theorem vpnInfoAt_visit (h : WellFormedCmsg compat used s.mem.bytes offset) (hused : used ≤ s.mem.bytes.length)
    (hcovers : Covers g uid hook) (hcover : ¬ isActiveVpnIfindex g.vpns g.coverIfindex.toUInt32) :
    vpnInfoAt g compat (visit g .none uid hook s compat offset).mem.bytes offset = none := by
  rw [vpnInfoAt, headerAt_visit g .none uid hook h, Option.filter_eq_none_iff]
  intro kind hkind
  have hsize := Cmsghdr.pktinfo_fits hkind
  have hfits := h.fits
  rw [visit, rewriteCmsg, hkind]
  refine not_vpnAt_rewritePktinfo hcovers hcover ?_
  show offset + cmsgHeaderLen compat + kind.size ≤ s.mem.bytes.length
  omega

/-- The loop ends at a header that is malformed or cannot be read; otherwise the message is visited. -/
theorem rewriteLoop_cases (compat : Bool) (used fuel offset : ℕ) (s : PktinfoState) :
    (∃ mem, rewriteLoop g faults uid hook compat used (fuel + 1) offset s = some { s with mem := mem } ∧
      UserMemory.Confined used (fun _ => False) s.mem mem ∧
      (faults = .none → used ≤ s.mem.bytes.length → ¬ WellFormedCmsg compat used s.mem.bytes offset)) ∨
    WellFormedCmsg compat used s.mem.bytes offset ∧
      rewriteLoop g faults uid hook compat used (fuel + 1) offset s =
        if offset + (headerAt compat s.mem.bytes offset).step compat ≤ used then
          rewriteLoop g faults uid hook compat used fuel (offset + (headerAt compat s.mem.bytes offset).step compat)
            (visit g faults uid hook s compat offset)
        else some (visit g faults uid hook s compat offset) := by
  have hheader : 0 < cmsgHeaderLen compat := by cases compat <;> decide
  rw [rewriteLoop]
  by_cases hroom : offset + cmsgHeaderLen compat ≤ used
  · have hread := UserMemory.confined_copyFrom faults hroom (fun _ => False) s.mem
    rw [if_neg (by omega), if_neg (by omega)]
    by_cases hfault : faults.read offset ∨ s.mem.bytes.length < offset + cmsgHeaderLen compat
    · refine .inl ⟨_, by rw [UserMemory.copyFrom, if_pos hfault], hread, ?_⟩
      rintro rfl hused
      rcases hfault with hfault | hshort
      · exact absurd hfault Bool.false_ne_true
      · omega
    · rw [UserMemory.copyFrom, if_neg hfault]
      dsimp only
      by_cases hmalformed : (headerAt compat s.mem.bytes offset).cmsgLen < cmsgHeaderLen compat ∨
          (headerAt compat s.mem.bytes offset).cmsgLen > used - offset ∨
          (headerAt compat s.mem.bytes offset).step compat < (headerAt compat s.mem.bytes offset).cmsgLen
      · refine .inl ⟨_, if_pos hmalformed, hread, fun _ _ h => ?_⟩
        have hcovers := h.covers
        have hfits := h.fits
        have hrounds := h.rounds
        omega
      · refine .inr ⟨⟨hroom, by omega, by omega, by omega⟩, (if_neg hmalformed).trans ?_⟩
        by_cases hstep : offset + (headerAt compat s.mem.bytes offset).step compat ≤ used
        · rw [if_pos hstep]
          exact if_neg (by simp only [headerAt] at hmalformed hstep ⊢; omega)
        · rw [if_neg hstep]
          exact if_pos (by simp only [headerAt] at hmalformed hstep ⊢; omega)
  · refine .inl ⟨s.mem, ?_, .refl .., fun _ _ h => hroom h.room⟩
    split_ifs with hlt hshort
    · rfl
    · omega
    · rfl

end Visit

/-! ### The whole walk -/

section Walk
variable (g : PktinfoGlobals) (faults : CopyFaults) (uid : UInt32) (hook : HookIdx) {compat : Bool} {used : ℕ}

/-- Byte `j` may change on the walk from `start` on. -/
def InWalkField (compat : Bool) (used : ℕ) (bytes : List UInt8) (start j : ℕ) : Prop :=
  ∃ off, CmsgFrom compat used bytes start off ∧ InVpnField g compat bytes off j

variable {g} in
/-- Behind a message, the fields are those of the messages behind it, whatever was changed in the message. -/
theorem InWalkField.next {bytes bytes' : List UInt8} {start j : ℕ} (h : WellFormedCmsg compat used bytes start)
    (hstep : start + (headerAt compat bytes start).step compat ≤ used)
    (hbytes : ∀ j, start + (headerAt compat bytes start).step compat ≤ j → bytes'[j]? = bytes[j]?)
    (hj : InWalkField g compat used bytes' (start + (headerAt compat bytes start).step compat) j) :
    InWalkField g compat used bytes start j := by
  obtain ⟨off, hoff, kind, hkind, hfield⟩ := hj
  have heq : vpnInfoAt g compat bytes' off = vpnInfoAt g compat bytes off := vpnInfoAt_of_behind hbytes hoff.le
  exact ⟨off, .next h hstep (hoff.congr hbytes), kind, heq ▸ hkind, hfield⟩

theorem rewriteLoop_spec (compat : Bool) {fuel offset : ℕ} (hfuel : used - offset < fuel) (s : PktinfoState) :
    ∃ s', rewriteLoop g faults uid hook compat used fuel offset s = some s' ∧
      UserMemory.Confined used (InWalkField g compat used s.mem.bytes offset) s.mem s'.mem ∧
      ((∀ off, CmsgFrom compat used s.mem.bytes offset off → vpnInfoAt g compat s.mem.bytes off = none) →
        s'.stats = s.stats) := by
  induction fuel generalizing offset s with
  | zero => exact absurd hfuel (Nat.not_lt_zero _)
  | succ fuel ih =>
    rcases rewriteLoop_cases g faults uid hook compat used fuel offset s with ⟨mem, hend, hconfined, -⟩ | ⟨hwell, hloop⟩
    · exact ⟨_, hend, hconfined.mono fun _ => False.elim, fun _ => rfl⟩
    · have hvisit := confined_visit g faults uid hook hwell
      have hfirst := hvisit.mono fun j hj =>
        (⟨offset, .here hwell, hj⟩ : InWalkField g compat used s.mem.bytes offset j)
      rw [hloop]
      split_ifs with hstep
      · have hprogress := hwell.progress hfuel
        have hbehind := fun j hj => bytes_visit_behind g faults uid hook hwell (j := j) hj
        obtain ⟨s', hrun, hrest, hstats⟩ := ih hprogress (visit g faults uid hook s compat offset)
        refine ⟨s', hrun, hfirst.trans (hrest.mono fun j hj => hj.next hwell hstep hbehind), fun hclean => ?_⟩
        refine (hstats fun off hoff => ?_).trans (stats_visit g faults uid hook (hclean offset (.here hwell)))
        rw [vpnInfoAt_of_behind hbehind hoff.le]
        exact hclean off (.next hwell hstep (hoff.congr hbehind))
      · exact ⟨_, rfl, hfirst, fun hclean => stats_visit g faults uid hook (hclean offset (.here hwell))⟩

theorem rewriteLoop_clean (hcovers : Covers g uid hook) (hcover : ¬ isActiveVpnIfindex g.vpns g.coverIfindex.toUInt32)
    {fuel offset off : ℕ} (hfuel : used - offset < fuel) {s s' : PktinfoState} (hused : used ≤ s.mem.bytes.length)
    (hrun : rewriteLoop g .none uid hook compat used fuel offset s = some s')
    (hoff : CmsgFrom compat used s.mem.bytes offset off) : vpnInfoAt g compat s'.mem.bytes off = none := by
  induction fuel generalizing offset s with
  | zero => exact absurd hfuel (Nat.not_lt_zero _)
  | succ fuel ih =>
    rcases rewriteLoop_cases g .none uid hook compat used fuel offset s with ⟨mem, -, -, hmalformed⟩ | ⟨hwell, hloop⟩
    · exact absurd hoff.first (hmalformed rfl hused)
    · have hvisit := vpnInfoAt_visit g uid hook hwell hused hcovers hcover
      rw [hloop] at hrun
      by_cases hstep : offset + (headerAt compat s.mem.bytes offset).step compat ≤ used
      · rw [if_pos hstep] at hrun
        have hprogress := hwell.progress hfuel
        cases hoff with
        | here =>
          -- the messages behind are rewritten without a change to this one
          obtain ⟨s'', hrun', hrest, -⟩ := rewriteLoop_spec g .none uid hook compat hprogress
            (visit g .none uid hook s compat off)
          obtain rfl := Option.some.inj (hrun.symm.trans hrun')
          have hheader := headerAt_visit g .none uid hook hwell
          rw [← hvisit]
          refine vpnInfoAt_of_front (hwell.congr hheader.symm) fun j hj => hrest.bytes j fun ⟨_, hbehind, hfield⟩ => ?_
          have hle := hbehind.le
          have hbounds := hfield.bounds
          rw [hheader] at hj
          omega
        | next _ _ hnext =>
          have hlength := (confined_visit g .none uid hook hwell).length_bytes
          refine ih hprogress (hlength ▸ hused) hrun (hnext.congr fun j hj => ?_)
          exact (bytes_visit_behind g .none uid hook hwell hj).symm
      · rw [if_neg hstep] at hrun
        obtain rfl := Option.some.inj hrun
        cases hoff with
        | here => exact hvisit
        | next _ hstep' => exact absurd hstep' hstep

/-- From `start` on, `bytes'` differs from `bytes` in the fields of the walk only. -/
def AgreesFrom (compat : Bool) (used : ℕ) (bytes bytes' : List UInt8) (start : ℕ) : Prop :=
  ∀ j, start ≤ j → ¬ InWalkField g compat used bytes start j → bytes'[j]? = bytes[j]?

section Agrees
variable {g} {bytes bytes' : List UInt8} {start off : ℕ}

theorem AgreesFrom.headerAt_eq (h : AgreesFrom g compat used bytes bytes' start) :
    headerAt compat bytes' start = headerAt compat bytes start := by
  refine headerAt_congr fun j hle hlt => h j hle fun ⟨off, hoff, hfield⟩ => ?_
  have hstart := hoff.le
  have hbounds := hfield.bounds
  omega

theorem AgreesFrom.next (h : AgreesFrom g compat used bytes bytes' start)
    (hwell : WellFormedCmsg compat used bytes start) :
    AgreesFrom g compat used bytes bytes' (start + (headerAt compat bytes start).step compat) := by
  intro j hj hfield
  refine h j (by omega) fun ⟨off, hoff, hin⟩ => ?_
  cases hoff with
  | here =>
    have hbounds := hin.bounds
    have hrounds := hwell.rounds
    omega
  | next _ _ hnext => exact hfield ⟨off, hnext, hin⟩

theorem AgreesFrom.cmsgFrom_iff (h : AgreesFrom g compat used bytes bytes' start) :
    CmsgFrom compat used bytes' start off ↔ CmsgFrom compat used bytes start off := by
  constructor
  · intro hwalk
    induction hwalk with
    | here hwell => exact .here (hwell.congr h.headerAt_eq)
    | next hwell hstep _ ih =>
      have hwell' := hwell.congr h.headerAt_eq
      rw [h.headerAt_eq] at hstep ih
      exact .next hwell' hstep (ih (h.next hwell'))
  · intro hwalk
    induction hwalk with
    | here hwell => exact .here (hwell.congr h.headerAt_eq.symm)
    | next hwell hstep _ ih =>
      refine .next (hwell.congr h.headerAt_eq.symm) (h.headerAt_eq.symm ▸ hstep) ?_
      rw [h.headerAt_eq]
      exact ih (h.next hwell)

end Agrees

theorem vhRewritePktinfoCmsgs_confined (compat : Bool) (used rest : ℕ) {fuel : ℕ} (hfuel : used < fuel)
    (s : PktinfoState) :
    let data : PktinfoRecvData := ⟨some ⟨rest, true, compat⟩, true, used + rest, uid, hook⟩
    ∃ s', vhRewritePktinfoCmsgs g faults fuel data s = some s' ∧
      (∀ a ∈ s'.mem.accesses, a ∈ s.mem.accesses ∨ a.1 + a.2 ≤ used) ∧
      s'.mem.bytes.length = s.mem.bytes.length ∧
      (∀ j, s'.mem.bytes[j]? ≠ s.mem.bytes[j]? →
        ∃ off, CmsgFrom compat used s.mem.bytes 0 off ∧ InVpnField g compat s.mem.bytes off j) ∧
      (∀ off, CmsgFrom compat used s'.mem.bytes 0 off ↔ CmsgFrom compat used s.mem.bytes 0 off) ∧
      (faults = .none → used ≤ s.mem.bytes.length → Covers g uid hook →
        ¬ isActiveVpnIfindex g.vpns g.coverIfindex.toUInt32 →
        (∀ off, CmsgFrom compat used s'.mem.bytes 0 off → vpnInfoAt g compat s'.mem.bytes off = none) ∧
        ∃ s'', vhRewritePktinfoCmsgs g .none fuel data s' = some s'' ∧ s''.mem.bytes = s'.mem.bytes ∧
          s''.stats = s'.stats) := by
  intro data
  have hrun (faults : CopyFaults) (s : PktinfoState) : vhRewritePktinfoCmsgs g faults fuel data s =
      rewriteLoop g faults uid hook compat used fuel 0 s := by
    show (if _ then _ else _) = _
    rw [if_neg (by simp [data]), Nat.add_sub_cancel]
  have hfuel' : used - 0 < fuel := hfuel
  obtain ⟨s', hloop, hconfined, -⟩ := rewriteLoop_spec g faults uid hook compat hfuel' s
  have hagrees : AgreesFrom g compat used s.mem.bytes s'.mem.bytes 0 := fun j _ hj => hconfined.bytes j hj
  have hwalk : ∀ off, CmsgFrom compat used s'.mem.bytes 0 off ↔ CmsgFrom compat used s.mem.bytes 0 off :=
    fun off => hagrees.cmsgFrom_iff
  refine ⟨s', (hrun faults s).trans hloop, hconfined.accesses, hconfined.length_bytes, fun j hj => ?_, hwalk, ?_⟩
  · exact not_not.1 fun hfield => hj (hconfined.bytes j hfield)
  · rintro rfl hused hcovers hcover
    have hclean : ∀ off, CmsgFrom compat used s'.mem.bytes 0 off → vpnInfoAt g compat s'.mem.bytes off = none :=
      fun off hoff => rewriteLoop_clean g uid hook hcovers hcover hfuel' hused hloop ((hwalk off).1 hoff)
    obtain ⟨s'', hagain, hsame, hstats⟩ := rewriteLoop_spec g .none uid hook compat hfuel' s'
    refine ⟨hclean, s'', (hrun .none s').trans hagain, hsame.bytes_eq ?_, hstats hclean⟩
    rintro j ⟨off, hoff, kind, hkind, -⟩
    rw [hclean off hoff] at hkind
    cases hkind

end Walk

/-- A message about `tun0`, whose index is 7. -/
def tunPktinfo : List UInt8 := leBytes 8 28 ++ leBytes 4 0 ++ leBytes 4 8 ++ (leBytes 4 7 ++ List.replicate 12 1)

theorem vhRewritePktinfoCmsgs_confined_sample :
    let g : PktinfoGlobals := ⟨some (oneTargetPolicy .getnameInet 10100), some [7], 3, none⟩
    ∃ s', vhRewritePktinfoCmsgs g .none 64 ⟨some ⟨8, true, false⟩, true, 40, 10100, .getnameInet⟩
        ⟨⟨tunPktinfo ++ List.replicate 8 0, []⟩, ⟨[], 0⟩⟩ = some s' ∧
      vpnInfoAt g false tunPktinfo 0 = some .v4 ∧ vpnInfoAt g false s'.mem.bytes 0 = none := by
  intro g
  have hcovers : Covers g 10100 .getnameInet := by
    unfold Covers
    decide +kernel
  obtain ⟨s', hrun, -, -, -, hwalk, hrest⟩ := vhRewritePktinfoCmsgs_confined g .none 10100 .getnameInet false 32 8
    (by decide : 32 < 64) ⟨⟨tunPktinfo ++ List.replicate 8 0, []⟩, ⟨[], 0⟩⟩
  obtain ⟨hclean, -⟩ := hrest rfl (by decide) hcovers (by decide)
  have hwell : WellFormedCmsg false 32 (tunPktinfo ++ List.replicate 8 0) 0 :=
    ⟨by decide, by decide +kernel, by decide +kernel, by decide +kernel⟩
  exact ⟨s', hrun, by decide +kernel, hclean 0 ((hwalk 0).2 (.here hwell))⟩

end VpnHide
