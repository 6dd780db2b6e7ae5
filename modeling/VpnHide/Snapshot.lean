import VpnHide.Abi
import VpnHide.Lib.Sorted
import VpnHide.Lib.Result

/-!
# Building a policy snapshot (`kmod/main.c`)

`policySnapshotFromV3` and `policySnapshotFromV4` turn the bytes of a `VH_SET_POLICY` payload into
the immutable snapshot the hooks read. The payload is the byte buffer the ioctl copied in, so its
length is `payload_size` and it is never null. The count fields of the C snapshot are the lengths of
the lists here. `kvzalloc` says whether the allocation of that name succeeds.
-/

namespace VpnHide

structure PolicySnapshot where
  activeHooksMask : UInt32
  javaHooksMask : UInt32
  debugEnabled : UInt32
  flags : UInt32
  kmodMatchMode : UInt32
  lsposedMatchMode : UInt32
  portMatchMode : UInt32
  ifacePrefixes : IfaceIoctlData
  kmodUids : List UInt32
  lsposedUids : List UInt32
  portTargets : List PortTargetV3
  portRules : List PortRuleV3
  appHookMasks : List AppHookMaskV3

/-- `sizeof(struct vpnhide_policy_snapshot)` without the trailing data. -/
def sizeofPolicySnapshot : ℕ := 624

/-! ### Comparisons passed to `sort` -/

/-- `(a > b) - (a < b)`. -/
def cmpU32 (a b : UInt32) : Int := (if a > b then 1 else 0) - (if a < b then 1 else 0)

/-- Targets and masks are ordered and looked up by uid. -/
def targetKey (t : PortTargetV3) : ℕ := t.uid.toNat

def maskKey (m : AppHookMaskV3) : ℕ := m.uid.toNat

def policyUidCmp (a b : UInt32) : Int := cmpU32 a b

def policyPortTargetCmp (a b : PortTargetV3) : Int := cmpU32 a.uid b.uid

def policyAppMaskCmp (a b : AppHookMaskV3) : Int := cmpU32 a.uid b.uid

def policyPortRuleCmp (a b : PortRuleV3) : Int :=
  if a.startPort ≠ b.startPort then (a.startPort.toNat : Int) - b.startPort.toNat
  else if a.endPort ≠ b.endPort then (a.endPort.toNat : Int) - b.endPort.toNat
  else (a.protocol.toNat : Int) - b.protocol.toNat

/-! ### Section bounds -/

def checkMulOverflow (a b : ℕ) : Option ℕ := if a * b ≤ sizeMax then some (a * b) else none

def checkAddOverflow (a b : ℕ) : Option ℕ := if a + b ≤ sizeMax then some (a + b) else none

/-- `policy_section_validate`: the cursor after the section. -/
def policySectionValidate (section_ : PolicySectionV3) (elementSize cursor totalSize : ℕ) :
    Except Errno ℕ :=
  if section_.offset.toNat ≠ cursor then .error .einval
  else match checkMulOverflow section_.count.toNat elementSize with
    | none => .error .einval
    | some bytes => match checkAddOverflow cursor bytes with
      | none => .error .einval
      | some cursor => if cursor > totalSize then .error .einval else .ok cursor

/-! ### Section contents -/

def readSection {α : Type} (c : Codec α) (section_ : PolicySectionV3) (payload : List UInt8) : List α :=
  c.decodeArray section_.count.toNat (payload.drop section_.offset.toNat)

def reservedSet {n : ℕ} (v : Vector UInt8 n) : Bool := v.toList.any (· ≠ 0)

/-- `sort(rules + first, count, ...)` in place. -/
def sortSlice (rules : List PortRuleV3) (first count : ℕ) : List PortRuleV3 :=
  rules.take first ++ sortCmp policyPortRuleCmp ((rules.drop first).take count) ++
    rules.drop (first + count)

/-- The loop over the port targets: each is checked, its rule slice is sorted in place, and
`next_rule` moves past the slice. -/
def validatePortTargets (portRuleCount : UInt32) :
    List PortTargetV3 → UInt32 → List PortRuleV3 → Except Errno (UInt32 × List PortRuleV3)
  | [], nextRule, rules => .ok (nextRule, rules)
  | target :: rest, nextRule, rules =>
    if target.uid = 0 ∨ target.mode > portPolicyDenyAll ∨ reservedSet target.reserved ∨
        target.firstRule ≠ nextRule ∨ target.ruleCount > portRuleCount - nextRule then
      .error .einval
    else
      let rules := if target.ruleCount > 1 then
          sortSlice rules target.firstRule.toNat target.ruleCount.toNat
        else rules
      validatePortTargets portRuleCount rest (nextRule + target.ruleCount) rules

def portRuleInvalid (rule : PortRuleV3) : Bool :=
  rule.startPort > rule.endPort || rule.protocol > protoBoth || reservedSet rule.reserved

def appMaskInvalid (mask : AppHookMaskV3) : Bool :=
  mask.uid == 0 || mask.hasKernelOverride > 1 || mask.hasJavaOverride > 1 || reservedSet mask.reserved

/-- An overriding kernel mask always keeps the two port hooks. -/
def forcePortHooks (mask : AppHookMaskV3) : AppHookMaskV3 :=
  if mask.hasKernelOverride ≠ 0 then { mask with kernelMask := mask.kernelMask ||| portHookMask }
  else mask

def validateAppMasks : List AppHookMaskV3 → Except Errno (List AppHookMaskV3)
  | [] => .ok []
  | mask :: rest =>
    if appMaskInvalid mask then .error .einval
    else do
      let rest ← validateAppMasks rest
      return forcePortHooks mask :: rest

/-- `count && !uids[0]` on a sorted list. -/
def firstIsZero (uids : List UInt32) : Bool := uids.head? == some 0

/-! ### The two parsers -/

def policySnapshotFromV3 (kvzalloc : Bool) (payload : List UInt8) : Except Errno PolicySnapshot := do
  let payloadSize := payload.length
  let header := PolicyPayloadV3.codec.decode payload
  rejectIf (payloadSize < PolicyPayloadV3.codec.size ∨ payloadSize > policyMaxBytes ∨
    header.totalSize.toNat ≠ payloadSize ∨ header.ifaceCount.toNat > maxIfacePrefixes) .einval
  let cursor := PolicyPayloadV3.codec.size
  let cursor ← policySectionValidate header.kmodUids Codec.u32.size cursor payloadSize
  let cursor ← policySectionValidate header.lsposedUids Codec.u32.size cursor payloadSize
  let cursor ← policySectionValidate header.portTargets PortTargetV3.codec.size cursor payloadSize
  let cursor ← policySectionValidate header.portRules PortRuleV3.codec.size cursor payloadSize
  let cursor ← policySectionValidate header.appHookMasks AppHookMaskV3.codec.size cursor payloadSize
  rejectIf (cursor ≠ payloadSize) .einval
  rejectIf (checkAddOverflow sizeofPolicySnapshot (payloadSize - PolicyPayloadV3.codec.size) = none)
    .eoverflow
  rejectIf (!kvzalloc) .enomem
  let kmodUids := readSection Codec.u32 header.kmodUids payload
  let lsposedUids := readSection Codec.u32 header.lsposedUids payload
  let portTargets := readSection PortTargetV3.codec header.portTargets payload
  let portRules := readSection PortRuleV3.codec header.portRules payload
  let appHookMasks := readSection AppHookMaskV3.codec header.appHookMasks payload
  let (nextRule, portRules) ← validatePortTargets header.portRules.count portTargets 0 portRules
  rejectIf (nextRule ≠ header.portRules.count) .einval
  rejectIf (portRules.any portRuleInvalid) .einval
  let appHookMasks ← validateAppMasks appHookMasks
  let kmodUids := sortCmp policyUidCmp kmodUids
  let lsposedUids := sortCmp policyUidCmp lsposedUids
  let portTargets := sortCmp policyPortTargetCmp portTargets
  let appHookMasks := sortCmp policyAppMaskCmp appHookMasks
  rejectIf (firstIsZero kmodUids || firstIsZero lsposedUids) .einval
  rejectIf (adjacentEq UInt32.toNat kmodUids) .einval
  rejectIf (adjacentEq UInt32.toNat lsposedUids) .einval
  rejectIf (adjacentEq targetKey portTargets) .einval
  rejectIf (adjacentEq maskKey appHookMasks) .einval
  return {
    activeHooksMask := header.activeHooksMask ||| portHookMask
    javaHooksMask := header.javaHooksMask
    debugEnabled := if header.debugEnabled ≠ 0 then 1 else 0
    flags := header.flags
    kmodMatchMode := 0
    lsposedMatchMode := 0
    portMatchMode := 0
    ifacePrefixes := ⟨header.ifaceCount.toInt32, header.ifacePrefixes⟩
    kmodUids, lsposedUids, portTargets, portRules, appHookMasks }

/-- `sizeof(struct vpnhide_policy_payload_v4) - sizeof(struct vpnhide_policy_payload_v3)`. -/
def v4Delta : ℕ := PolicyPayloadV4.codec.size - PolicyPayloadV3.codec.size

/-- `V4_SECTION`: the section moved down by the difference of the header sizes. -/
def v4Section (section_ : PolicySectionV3) : PolicySectionV3 :=
  { section_ with offset := section_.offset - UInt32.ofNat v4Delta }

/-- The v3 buffer `policy_snapshot_from_v4` builds from an accepted v4 header. -/
def v4ToV3 (payload : List UInt8) : List UInt8 :=
  let header := PolicyPayloadV4.codec.decode payload
  PolicyPayloadV3.codec.encode {
    totalSize := UInt32.ofNat (payload.length - v4Delta)
    flags := header.flags
    activeHooksMask := header.activeHooksMask
    javaHooksMask := header.javaHooksMask
    debugEnabled := header.debugEnabled
    ifaceCount := header.ifaceCount
    ifacePrefixes := header.ifacePrefixes
    kmodUids := v4Section header.kmodUids
    lsposedUids := v4Section header.lsposedUids
    portTargets := v4Section header.portTargets
    portRules := v4Section header.portRules
    appHookMasks := v4Section header.appHookMasks } ++
  payload.drop PolicyPayloadV4.codec.size

def policySnapshotFromV4 (kvzallocV3 kvzalloc : Bool) (payload : List UInt8) :
    Except Errno PolicySnapshot := do
  let payloadSize := payload.length
  let header := PolicyPayloadV4.codec.decode payload
  rejectIf (payloadSize < PolicyPayloadV4.codec.size ∨ header.totalSize.toNat ≠ payloadSize ∨
    header.reserved ≠ 0 ∨ header.kmodMatchMode > matchExclude ∨
    header.lsposedMatchMode > matchExclude ∨ header.portMatchMode > matchExclude) .einval
  rejectIf (header.kmodUids.offset.toNat < PolicyPayloadV4.codec.size ∨
    header.lsposedUids.offset.toNat < PolicyPayloadV4.codec.size ∨
    header.portTargets.offset.toNat < PolicyPayloadV4.codec.size ∨
    header.portRules.offset.toNat < PolicyPayloadV4.codec.size ∨
    header.appHookMasks.offset.toNat < PolicyPayloadV4.codec.size) .einval
  rejectIf (!kvzallocV3) .enomem
  let snapshot ← policySnapshotFromV3 kvzalloc (v4ToV3 payload)
  return { snapshot with
    kmodMatchMode := header.kmodMatchMode
    lsposedMatchMode := header.lsposedMatchMode
    portMatchMode := header.portMatchMode }

end VpnHide
