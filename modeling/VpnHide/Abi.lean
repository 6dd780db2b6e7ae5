import VpnHide.Lib.Codec
import Mathlib.Data.Nat.Notation

/-!
# The control ABI (`kmod/include/vpnhide.h`)

The packed structures that cross the `VH_SET_POLICY` boundary, each with its byte layout. The v3 and
v4 structures have no padding; the legacy v2 structures do, and their layouts spell it out.
-/

namespace VpnHide

inductive Errno where
  | eperm
  | enomem
  | eagain
  | efault
  | einval
  | eoverflow
  | eprotonosupport
  deriving DecidableEq, Repr

/-! ### Constants -/

def protoTcp : UInt8 := 0
def protoUdp : UInt8 := 1
def protoBoth : UInt8 := 2

def portPolicyRules : UInt8 := 0
def portPolicyUnrestricted : UInt8 := 1
def portPolicyDenyAll : UInt8 := 2

def matchInclude : UInt32 := 0
def matchExclude : UInt32 := 1

def policyAbiVersionV2 : UInt32 := 2
def policyAbiVersionV3 : UInt32 := 3
def policyAbiVersionV4 : UInt32 := 4

def maxIfacePrefixes : ℕ := 32
def maxIfaceLen : ℕ := 16
def ifNamSiz : ℕ := 16
def legacyTargetUids : ℕ := 512
def legacyPortRulesPerUid : ℕ := 16
def policyMaxBytes : ℕ := 16 * 1024 * 1024

/-- `SIZE_MAX` of the 64-bit targets. -/
def sizeMax : ℕ := 2 ^ 64 - 1

def uint32Max : ℕ := 2 ^ 32 - 1

/-- `enum vpnhide_hook_idx`, the indices shared by both kernels. -/
inductive HookIdx where
  | devIoctl | sockIoctl | rtnlFill | inet6Fill | inetFill | fibRoute | ipv6Route | fibDump
  | fibRuleFill | rt6Fill | rtFill | setsockopt | getsockopt | connect | getnameInet | getnameInet6
  | bind | bpf | getdents64 | faccessat | faccessat2 | newfstatat | openat | openat2 | readlinkat
  | udpSendmsg | devSeq | if6Seq | inet6BindLl | udpv6Sendmsg | fibTrie | tcFillQdisc
  deriving DecidableEq, Repr

def HookIdx.bit (h : HookIdx) : UInt32 := 1 <<< UInt32.ofNat h.ctorIdx

/-- `BIT(HOOK_CONNECT) | BIT(HOOK_BIND)`. -/
def portHookMask : UInt32 := HookIdx.connect.bit ||| HookIdx.bind.bit

/-! ### Variable-length policy (v3, v4) -/

structure PolicySectionV3 where
  offset : UInt32
  count : UInt32
  deriving DecidableEq, Repr

structure PortRuleV3 where
  startPort : UInt16
  endPort : UInt16
  protocol : UInt8
  reserved : Vector UInt8 3
  deriving DecidableEq, Repr

structure PortTargetV3 where
  uid : UInt32
  firstRule : UInt32
  ruleCount : UInt32
  mode : UInt8
  reserved : Vector UInt8 3
  deriving DecidableEq, Repr

structure AppHookMaskV3 where
  uid : UInt32
  kernelMask : UInt32
  javaMask : UInt32
  hasKernelOverride : UInt8
  hasJavaOverride : UInt8
  reserved : Vector UInt8 2
  deriving DecidableEq, Repr

/-- `char prefixes[MAX_IFACE_PREFIXES][MAX_IFACE_LEN]`. -/
abbrev IfacePrefixes := Vector (Vector UInt8 maxIfaceLen) maxIfacePrefixes

/-- `struct vpnhide_policy_payload_v3`, the header in front of the five sections. -/
structure PolicyPayloadV3 where
  totalSize : UInt32
  flags : UInt32
  activeHooksMask : UInt32
  javaHooksMask : UInt32
  debugEnabled : UInt32
  ifaceCount : UInt32
  ifacePrefixes : IfacePrefixes
  kmodUids : PolicySectionV3
  lsposedUids : PolicySectionV3
  portTargets : PolicySectionV3
  portRules : PolicySectionV3
  appHookMasks : PolicySectionV3

structure PolicyPayloadV4 where
  totalSize : UInt32
  flags : UInt32
  activeHooksMask : UInt32
  javaHooksMask : UInt32
  debugEnabled : UInt32
  ifaceCount : UInt32
  kmodMatchMode : UInt32
  lsposedMatchMode : UInt32
  portMatchMode : UInt32
  reserved : UInt32
  ifacePrefixes : IfacePrefixes
  kmodUids : PolicySectionV3
  lsposedUids : PolicySectionV3
  portTargets : PolicySectionV3
  portRules : PolicySectionV3
  appHookMasks : PolicySectionV3

namespace PolicySectionV3

def codec : Codec PolicySectionV3 :=
  (Codec.u32.prod Codec.u32).iso (fun (a, b) => ⟨a, b⟩) (fun s => (s.offset, s.count)) fun _ => rfl

@[simp] theorem codec_size : codec.size = 8 := rfl

end PolicySectionV3

namespace PortRuleV3

def codec : Codec PortRuleV3 :=
  (Codec.u16.prod (Codec.u16.prod (Codec.u8.prod (Codec.u8.vector 3)))).iso
    (fun (a, b, c, d) => ⟨a, b, c, d⟩)
    (fun r => (r.startPort, r.endPort, r.protocol, r.reserved)) fun _ => rfl

@[simp] theorem codec_size : codec.size = 8 := rfl

end PortRuleV3

namespace PortTargetV3

def codec : Codec PortTargetV3 :=
  (Codec.u32.prod (Codec.u32.prod (Codec.u32.prod (Codec.u8.prod (Codec.u8.vector 3))))).iso
    (fun (a, b, c, d, e) => ⟨a, b, c, d, e⟩)
    (fun t => (t.uid, t.firstRule, t.ruleCount, t.mode, t.reserved)) fun _ => rfl

@[simp] theorem codec_size : codec.size = 16 := rfl

end PortTargetV3

namespace AppHookMaskV3

def codec : Codec AppHookMaskV3 :=
  (Codec.u32.prod (Codec.u32.prod (Codec.u32.prod (Codec.u8.prod (Codec.u8.prod
    (Codec.u8.vector 2)))))).iso
    (fun (a, b, c, d, e, f) => ⟨a, b, c, d, e, f⟩)
    (fun m => (m.uid, m.kernelMask, m.javaMask, m.hasKernelOverride, m.hasJavaOverride, m.reserved))
    fun _ => rfl

@[simp] theorem codec_size : codec.size = 16 := rfl

end AppHookMaskV3

def ifacePrefixesCodec : Codec IfacePrefixes := (Codec.u8.vector maxIfaceLen).vector maxIfacePrefixes

/-- The five section descriptors that end both headers. -/
def sectionsCodec : Codec (PolicySectionV3 × PolicySectionV3 × PolicySectionV3 × PolicySectionV3 ×
    PolicySectionV3) :=
  let s := PolicySectionV3.codec
  s.prod (s.prod (s.prod (s.prod s)))

namespace PolicyPayloadV3

def codec : Codec PolicyPayloadV3 :=
  (Codec.u32.prod (Codec.u32.prod (Codec.u32.prod (Codec.u32.prod (Codec.u32.prod (Codec.u32.prod
    (ifacePrefixesCodec.prod sectionsCodec))))))).iso
    (fun (a, b, c, d, e, f, p, k, l, t, r, m) => ⟨a, b, c, d, e, f, p, k, l, t, r, m⟩)
    (fun h => (h.totalSize, h.flags, h.activeHooksMask, h.javaHooksMask, h.debugEnabled, h.ifaceCount,
      h.ifacePrefixes, h.kmodUids, h.lsposedUids, h.portTargets, h.portRules, h.appHookMasks))
    fun _ => rfl

@[simp] theorem codec_size : codec.size = 576 := rfl

end PolicyPayloadV3

namespace PolicyPayloadV4

def codec : Codec PolicyPayloadV4 :=
  (Codec.u32.prod (Codec.u32.prod (Codec.u32.prod (Codec.u32.prod (Codec.u32.prod (Codec.u32.prod
    (Codec.u32.prod (Codec.u32.prod (Codec.u32.prod (Codec.u32.prod
      (ifacePrefixesCodec.prod sectionsCodec))))))))))).iso
    (fun (a, b, c, d, e, f, km, lm, pm, z, p, k, l, t, r, m) =>
      ⟨a, b, c, d, e, f, km, lm, pm, z, p, k, l, t, r, m⟩)
    (fun h => (h.totalSize, h.flags, h.activeHooksMask, h.javaHooksMask, h.debugEnabled, h.ifaceCount,
      h.kmodMatchMode, h.lsposedMatchMode, h.portMatchMode, h.reserved, h.ifacePrefixes, h.kmodUids,
      h.lsposedUids, h.portTargets, h.portRules, h.appHookMasks))
    fun _ => rfl

@[simp] theorem codec_size : codec.size = 592 := rfl

end PolicyPayloadV4

-- The headers are used through `decode_encode` and `codec_size` only.
attribute [irreducible] PolicyPayloadV3.codec PolicyPayloadV4.codec

/-! ### Legacy fixed-size policy (v2) -/

/-- `int`, two's complement. -/
def Codec.i32 : Codec Int32 :=
  Codec.u32.iso UInt32.toInt32 Int32.toUInt32 fun _ => rfl

/-- `struct vpnhide_port_rule`, used by the v2 ABI and by the controller. -/
structure PortRule where
  startPort : UInt16
  endPort : UInt16
  protocol : UInt8
  deriving DecidableEq, Repr

structure UidPortRules where
  uid : UInt32
  ruleCount : Int32
  mode : UInt8
  rules : Vector PortRule legacyPortRulesPerUid

structure PortIoctlData where
  count : Int32
  targets : Vector UidPortRules legacyTargetUids

structure TargetBundle where
  kmodCount : Int32
  kmodUids : Vector UInt32 legacyTargetUids
  lsposedCount : Int32
  lsposedUids : Vector UInt32 legacyTargetUids

structure IfaceIoctlData where
  count : Int32
  prefixes : IfacePrefixes
  deriving DecidableEq

structure AppHookMask where
  uid : UInt32
  kernelMask : UInt32
  javaMask : UInt32
  hasKernelOverride : UInt8
  hasJavaOverride : UInt8

structure AppHookIoctlData where
  count : Int32
  masks : Vector AppHookMask legacyTargetUids

structure PolicyPayload where
  targets : TargetBundle
  ports : PortIoctlData
  ifacePrefixes : IfaceIoctlData
  appHookMasks : AppHookIoctlData
  activeHooksMask : UInt32
  javaHooksMask : UInt32
  debugEnabled : UInt32
  flags : UInt32

/-- Two-byte alignment: one byte of padding after `protocol`. -/
def PortRule.codec : Codec PortRule :=
  (Codec.u16.prod (Codec.u16.prod (Codec.u8.prod (Codec.pad 1)))).iso
    (fun (a, b, c, _) => ⟨a, b, c⟩) (fun r => (r.startPort, r.endPort, r.protocol, ())) fun _ => rfl

/-- One byte of padding before the rules and two after them. -/
def UidPortRules.codec : Codec UidPortRules :=
  (Codec.u32.prod (Codec.i32.prod (Codec.u8.prod ((Codec.pad 1).prod
    ((PortRule.codec.vector legacyPortRulesPerUid).prod (Codec.pad 2)))))).iso
    (fun (a, b, c, _, d, _) => ⟨a, b, c, d⟩)
    (fun t => (t.uid, t.ruleCount, t.mode, (), t.rules, ())) fun _ => rfl

def PortIoctlData.codec : Codec PortIoctlData :=
  (Codec.i32.prod (UidPortRules.codec.vector legacyTargetUids)).iso (fun (a, b) => ⟨a, b⟩)
    (fun d => (d.count, d.targets)) fun _ => rfl

def TargetBundle.codec : Codec TargetBundle :=
  (Codec.i32.prod ((Codec.u32.vector legacyTargetUids).prod
    (Codec.i32.prod (Codec.u32.vector legacyTargetUids)))).iso
    (fun (a, b, c, d) => ⟨a, b, c, d⟩)
    (fun t => (t.kmodCount, t.kmodUids, t.lsposedCount, t.lsposedUids)) fun _ => rfl

def IfaceIoctlData.codec : Codec IfaceIoctlData :=
  (Codec.i32.prod ifacePrefixesCodec).iso (fun (a, b) => ⟨a, b⟩) (fun d => (d.count, d.prefixes))
    fun _ => rfl

/-- Two bytes of trailing padding. -/
def AppHookMask.codec : Codec AppHookMask :=
  (Codec.u32.prod (Codec.u32.prod (Codec.u32.prod (Codec.u8.prod (Codec.u8.prod
    (Codec.pad 2)))))).iso
    (fun (a, b, c, d, e, _) => ⟨a, b, c, d, e⟩)
    (fun m => (m.uid, m.kernelMask, m.javaMask, m.hasKernelOverride, m.hasJavaOverride, ()))
    fun _ => rfl

def AppHookIoctlData.codec : Codec AppHookIoctlData :=
  (Codec.i32.prod (AppHookMask.codec.vector legacyTargetUids)).iso (fun (a, b) => ⟨a, b⟩)
    (fun d => (d.count, d.masks)) fun _ => rfl

def PolicyPayload.codec : Codec PolicyPayload :=
  (TargetBundle.codec.prod (PortIoctlData.codec.prod (IfaceIoctlData.codec.prod
    (AppHookIoctlData.codec.prod (Codec.u32.prod (Codec.u32.prod (Codec.u32.prod
      Codec.u32))))))).iso
    (fun (a, b, c, d, e, f, g, h) => ⟨a, b, c, d, e, f, g, h⟩)
    (fun p => (p.targets, p.ports, p.ifacePrefixes, p.appHookMasks, p.activeHooksMask,
      p.javaHooksMask, p.debugEnabled, p.flags)) fun _ => rfl

@[simp] theorem PolicyPayload.codec_size : PolicyPayload.codec.size = 68132 := rfl

/-! ### Requests -/

/-- A user-space pointer: null, or the bytes mapped from that address on. -/
inductive UserPtr where
  | null
  | mapped (mem : List UInt8)

/-- `copy_from_user` of `n` bytes; `none` when the range is not mapped. -/
def copyFromUser (p : UserPtr) (n : ℕ) : Option (List UInt8) :=
  match p with
  | .null => none
  | .mapped mem => if n ≤ mem.length then some (mem.take n) else none

structure PolicyIoctl where
  abiVersion : UInt32
  payloadSize : UInt32
  payloadPtr : UserPtr
  expectedGeneration : UInt64

end VpnHide
