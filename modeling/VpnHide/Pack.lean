import VpnHide.ReadBack

/-!
# Packing a policy in user space (`kmod/vpnhide_ctl.c`)

`packPolicyV4` sizes the buffer with overflow checks and fills it. It succeeds exactly when the payload
fits (`packPolicyV4_eq_ok`), and the kernel reads back the policy that was packed
(`policySnapshotFromV4_packPolicyV4`).
-/

namespace VpnHide

/-- The arguments of `pack_policy_v4`. -/
structure PolicyInput extends PolicyLists where
  ifaces : IfaceIoctlData
  activeMask : UInt32
  javaMask : UInt32
  debugEnabled : Int32
  matchMode : UInt32

/-! ### The code -/

/-- `policy_add_size`; failure is the return value `-1`. -/
def policyAddSize (total count elementSize : ℕ) : Except Unit ℕ := do
  rejectIf (count ≠ 0 ∧ elementSize > sizeMax / count) ()
  let bytes := count * elementSize
  rejectIf (total > sizeMax - bytes) ()
  return total + bytes

def countRules : List PortTarget → ℕ → Except Unit ℕ
  | [], totalRules => .ok totalRules
  | t :: rest, totalRules => do
    rejectIf (totalRules > sizeMax - t.rules.length) ()
    countRules rest (totalRules + t.rules.length)

def packSection {α : Type} (c : Codec α) (xs : List α) (cursor : ℕ) (payload : List UInt8) : List UInt8 :=
  if xs.length ≠ 0 then memcpy payload cursor (c.encodeArray xs) else payload

/-- `pack_policy_v4`. The header fields are assigned one by one along the way; they share no byte with
the sections, so they are written here in one piece at the end. -/
def packPolicyV4 (calloc : Bool) (a : PolicyInput) : Except Unit (List UInt8) := do
  let totalRules ← countRules a.ports 0
  rejectIf (a.kmod.length > uint32Max ∨ a.lsposed.length > uint32Max ∨ a.ports.length > uint32Max ∨
    totalRules > uint32Max ∨ a.masks.length > uint32Max) ()
  let total ← policyAddSize PolicyPayloadV4.codec.size a.kmod.length Codec.u32.size
  let total ← policyAddSize total a.lsposed.length Codec.u32.size
  let total ← policyAddSize total a.ports.length PortTargetV3.codec.size
  let total ← policyAddSize total totalRules PortRuleV3.codec.size
  let total ← policyAddSize total a.masks.length AppHookMaskV3.codec.size
  rejectIf (total > uint32Max ∨ total > policyMaxBytes) ()
  rejectIf (!calloc) ()
  let payload := zeros total
  let kmodCursor := PolicyPayloadV4.codec.size
  let payload := packSection Codec.u32 a.kmod kmodCursor payload
  let lsposedCursor := kmodCursor + a.kmod.length * Codec.u32.size
  let payload := packSection Codec.u32 a.lsposed lsposedCursor payload
  let targetsCursor := lsposedCursor + a.lsposed.length * Codec.u32.size
  let rulesCursor := targetsCursor + a.ports.length * PortTargetV3.codec.size
  let payload := packPorts targetsCursor rulesCursor a.ports 0 0 payload
  let masksCursor := rulesCursor + totalRules * PortRuleV3.codec.size
  let payload := packSection AppHookMaskV3.codec a.masks masksCursor payload
  return memcpy payload 0 (PolicyPayloadV4.codec.encode {
    totalSize := UInt32.ofNat total
    flags := 0
    activeHooksMask := a.activeMask
    javaHooksMask := a.javaMask
    debugEnabled := if a.debugEnabled ≠ 0 then 1 else 0
    ifaceCount := a.ifaces.count.toUInt32
    kmodMatchMode := a.matchMode
    lsposedMatchMode := a.matchMode
    portMatchMode := a.matchMode
    reserved := 0
    ifacePrefixes := a.ifaces.prefixes
    kmodUids := ⟨UInt32.ofNat kmodCursor, UInt32.ofNat a.kmod.length⟩
    lsposedUids := ⟨UInt32.ofNat lsposedCursor, UInt32.ofNat a.lsposed.length⟩
    portTargets := ⟨UInt32.ofNat targetsCursor, UInt32.ofNat a.ports.length⟩
    portRules := ⟨UInt32.ofNat rulesCursor, UInt32.ofNat totalRules⟩
    appHookMasks := ⟨UInt32.ofNat masksCursor, UInt32.ofNat a.masks.length⟩ })

/-! ### Sizes -/

theorem policyAddSize_eq_ok {total count elementSize total' : ℕ} :
    policyAddSize total count elementSize = .ok total' ↔
      total + count * elementSize ≤ sizeMax ∧ total + count * elementSize = total' := by
  simp only [policyAddSize, bind_eq_ok, rejectIf_eq_ok, exists_const, pure, Except.pure, Except.ok.injEq]
  rcases Nat.eq_zero_or_pos count with rfl | hpos
  · simp
  · rw [gt_iff_lt, Nat.div_lt_iff_lt_mul hpos, Nat.mul_comm elementSize]
    omega

theorem countRules_ok {ports : List PortTarget} {n m : ℕ} (h : countRules ports n = .ok m) :
    n + (allRules ports).length = m := by
  induction ports generalizing n with
  | nil => simpa [countRules, allRules] using h
  | cons t rest ih =>
    obtain ⟨_, -, h⟩ := bind_eq_ok.1 h
    rw [length_allRules_cons, ← Nat.add_assoc]
    exact ih h

theorem countRules_of_le {ports : List PortTarget} {n : ℕ} (h : n + (allRules ports).length ≤ sizeMax) :
    countRules ports n = .ok (n + (allRules ports).length) := by
  induction ports generalizing n with
  | nil => simp [countRules, allRules]
  | cons t rest ih =>
    rw [length_allRules_cons] at h ⊢
    rw [countRules, rejectIf_false _ (by omega), ← Nat.add_assoc]
    exact ih (by omega)

/-- Copying nothing changes nothing, so the guard of `PACK_SECTION` can be dropped. -/
theorem packSection_eq {α : Type} (c : Codec α) (xs : List α) (cursor : ℕ) (payload : List UInt8) :
    packSection c xs cursor payload = memcpy payload cursor (c.encodeArray xs) := by
  cases xs with
  | nil => simp [packSection, memcpy]
  | cons x rest => simp [packSection]

namespace PolicyInput
variable {a : PolicyInput}

def header (a : PolicyInput) : PolicyPayloadV4 where
  totalSize := UInt32.ofNat (a.totalSize 592)
  flags := 0
  activeHooksMask := a.activeMask
  javaHooksMask := a.javaMask
  debugEnabled := if a.debugEnabled ≠ 0 then 1 else 0
  ifaceCount := a.ifaces.count.toUInt32
  kmodMatchMode := a.matchMode
  lsposedMatchMode := a.matchMode
  portMatchMode := a.matchMode
  reserved := 0
  ifacePrefixes := a.ifaces.prefixes
  kmodUids := ⟨UInt32.ofNat 592, UInt32.ofNat a.kmod.length⟩
  lsposedUids := ⟨UInt32.ofNat (a.kmodEnd 592), UInt32.ofNat a.lsposed.length⟩
  portTargets := ⟨UInt32.ofNat (a.lsposedEnd 592), UInt32.ofNat a.ports.length⟩
  portRules := ⟨UInt32.ofNat (a.targetsEnd 592), UInt32.ofNat (allRules a.ports).length⟩
  appHookMasks := ⟨UInt32.ofNat (a.rulesEnd 592), UInt32.ofNat a.masks.length⟩

theorem header_base (a : PolicyInput) : a.header.base = a.withSections 592 a.header.base := rfl

def bytes (a : PolicyInput) : List UInt8 := PolicyPayloadV4.codec.encode a.header ++ a.sections

theorem length_header (a : PolicyInput) : (PolicyPayloadV4.codec.encode a.header).length = 592 := by
  simp

theorem length_bytes (a : PolicyInput) : a.bytes.length = a.totalSize 592 := by
  rw [bytes, List.length_append, length_header, PolicyLists.length_sections]

end PolicyInput

theorem PolicyInput.fill_eq (a : PolicyInput) :
    memcpy (memcpy (packPorts (a.lsposedEnd 592) (a.targetsEnd 592) a.ports 0 0
      (memcpy (memcpy (zeros (a.totalSize 592)) 592 (Codec.u32.encodeArray a.kmod)) (a.kmodEnd 592)
        (Codec.u32.encodeArray a.lsposed))) (a.rulesEnd 592) (AppHookMaskV3.codec.encodeArray a.masks)) 0
      (PolicyPayloadV4.codec.encode a.header) = a.bytes := by
  have hmasks := memcpy_gap _ (zeros (a.masks.length * 16)) [] (AppHookMaskV3.codec.encodeArray a.masks)
    (a.length_front 592).symm (by simp)
  simp only [List.append_assoc, List.append_nil] at hmasks
  rw [a.fill_ports, hmasks]
  exact a.fill_header _ a.length_header

/-- Packing succeeds exactly when the payload fits, and returns it. -/
theorem packPolicyV4_eq_ok {a : PolicyInput} {bytes : List UInt8} :
    packPolicyV4 true a = .ok bytes ↔ a.totalSize 592 ≤ policyMaxBytes ∧ a.bytes = bytes := by
  simp only [packPolicyV4, bind_eq_ok, rejectIf_eq_ok, exists_const, pure, Except.pure, packSection_eq]
  rw [PolicyPayloadV4.codec_size]
  have hfill := a.fill_eq
  constructor
  · rintro ⟨rules, hrules, -, t₁, h₁, t₂, h₂, t₃, h₃, t₄, h₄, t₅, h₅, hmax, -, hbytes⟩
    obtain rfl : (allRules a.ports).length = rules := by simpa using countRules_ok hrules
    obtain ⟨-, rfl⟩ := policyAddSize_eq_ok.1 h₁
    obtain ⟨-, rfl⟩ := policyAddSize_eq_ok.1 h₂
    obtain ⟨-, rfl⟩ := policyAddSize_eq_ok.1 h₃
    obtain ⟨-, rfl⟩ := policyAddSize_eq_ok.1 h₄
    obtain ⟨-, rfl⟩ := policyAddSize_eq_ok.1 h₅
    exact ⟨not_lt.1 (not_or.1 hmax).2, hfill.symm.trans (Except.ok.inj hbytes)⟩
  · rintro ⟨hfit, rfl⟩
    have hmax : policyMaxBytes < uint32Max := by decide
    have hsize : policyMaxBytes < sizeMax := by decide
    have htotal : 592 + a.kmod.length * 4 + a.lsposed.length * 4 + a.ports.length * 16 +
        (allRules a.ports).length * 8 + a.masks.length * 16 = a.totalSize 592 := rfl
    have hrules : countRules a.ports 0 = .ok (allRules a.ports).length := by
      have h : 0 + (allRules a.ports).length ≤ sizeMax := by omega
      simpa using countRules_of_le h
    refine ⟨_, hrules, ?_, _, policyAddSize_eq_ok.2 ⟨?_, rfl⟩, _, policyAddSize_eq_ok.2 ⟨?_, rfl⟩,
      _, policyAddSize_eq_ok.2 ⟨?_, rfl⟩, _, policyAddSize_eq_ok.2 ⟨?_, rfl⟩,
      _, policyAddSize_eq_ok.2 ⟨?_, rfl⟩, ?_, by simp, congrArg Except.ok hfill⟩
    · omega
    all_goals
      simp only [Codec.u32_size, PortTargetV3.codec_size, PortRuleV3.codec_size, AppHookMaskV3.codec_size]
      omega

/-! ### The round trip -/

namespace PolicyInput
variable {a : PolicyInput}

/-- The input the controller builds. -/
structure Shape (a : PolicyInput) : Prop extends a.toPolicyLists.Shape where
  ifaces : a.ifaces.count.toUInt32.toNat ≤ maxIfacePrefixes
  matchMode : a.matchMode ≤ matchExclude

/-- What the input says, with the port hooks forced into the masks. -/
def policy (a : PolicyInput) : Policy where
  kmod := { uid | uid ∈ a.kmod }
  lsposed := { uid | uid ∈ a.lsposed }
  ports uid := (lookupBy PortTarget.key a.ports uid.toNat).map fun t => (t.mode, ↑t.rules)
  overrides uid := (lookupBy maskKey a.masks uid.toNat).map forcePortHooks
  activeHooks := a.activeMask ||| portHookMask
  javaHooks := a.javaMask
  debug := if a.debugEnabled ≠ 0 then 1 else 0
  ifaces := a.ifaces
  kmodMode := a.matchMode
  lsposedMode := a.matchMode
  portMode := a.matchMode

theorem lt_of_fit (hfit : a.totalSize 592 ≤ policyMaxBytes) : a.totalSize 592 < 2 ^ 32 :=
  Nat.lt_of_le_of_lt hfit (by decide)

theorem decode_bytes (a : PolicyInput) : PolicyPayloadV4.codec.decode a.bytes = a.header := by
  rw [bytes, Codec.decode_encode]

theorem contents_bytes (hfit : a.totalSize 592 ≤ policyMaxBytes) :
    a.header.base.contents a.bytes = a.contents := by
  rw [header_base]
  exact PolicyLists.contents_withSections _ a.length_header (lt_of_fit hfit)

theorem policy_contents (hfit : a.totalSize 592 ≤ policyMaxBytes) :
    a.contents.policy a.header.base a.header.kmodMatchMode a.header.lsposedMatchMode
      a.header.portMatchMode = a.policy := by
  have hdebug : (if a.header.base.debugEnabled ≠ 0 then (1 : UInt32) else 0) =
      if a.debugEnabled ≠ 0 then 1 else 0 := by
    by_cases h : a.debugEnabled = 0 <;> simp [header, PolicyPayloadV4.base, h]
  have hlen := (PolicyLists.bounds (lt_of_fit hfit)).2.2.2.2.1
  simp only [PolicyContents.policy, policy, PolicyContents.ports_targets,
    PolicyLists.targets_contents hlen, hdebug]
  rfl

theorem Shape.v4Grammar (h : a.Shape) (hfit : a.totalSize 592 ≤ policyMaxBytes) :
    V4Grammar a.bytes a.header where
  size_ge := by rw [bytes, List.length_append, length_header]; omega
  size_le := by rw [length_bytes]; omega
  total := by rw [length_bytes]; exact toNat_ofNat_of_lt (lt_of_fit hfit)
  reserved := rfl
  kmodMode := h.matchMode
  lsposedMode := h.matchMode
  portMode := h.matchMode
  ifaces := h.ifaces
  sections := by
    rw [length_bytes, header_base]
    exact PolicyLists.tiles_withSections (lt_of_fit hfit)
  contents := by
    rw [contents_bytes hfit]
    exact h.toShape.contents_valid (PolicyLists.bounds (lt_of_fit hfit)).2.2.2.2.1

/-- Parsing the packed bytes installs the packed policy. -/
theorem Shape.parse_bytes (h : a.Shape) (hfit : a.totalSize 592 ≤ policyMaxBytes) :
    ∃ s, policySnapshotFromV4 true true a.bytes = .ok s ∧ s.policy = a.policy := by
  have hg := h.v4Grammar hfit
  have hparse := policySnapshotFromV4_eq_ok.2 ⟨a.decode_bytes ▸ hg, rfl⟩
  refine ⟨_, hparse, ?_⟩
  have hvalid := hg.contents
  rw [contents_bytes hfit] at hvalid
  rw [a.decode_bytes, contents_bytes hfit, PolicyContents.policy_installV4 hvalid, policy_contents hfit]

end PolicyInput

/-- Packing a policy of the controller's shape succeeds, the kernel accepts the bytes, and the snapshot
is the same policy. -/
theorem policySnapshotFromV4_packPolicyV4 (a : PolicyInput) (h : a.Shape)
    (hfit : a.totalSize 592 ≤ policyMaxBytes) :
    ∃ bytes s, packPolicyV4 true a = .ok bytes ∧ policySnapshotFromV4 true true bytes = .ok s ∧
      s.policy = a.policy := by
  obtain ⟨s, hs, hp⟩ := h.parse_bytes hfit
  exact ⟨a.bytes, s, packPolicyV4_eq_ok.2 ⟨hfit, rfl⟩, hs, hp⟩

/-- An allowlist with one entry in every list. -/
def samplePolicy : PolicyInput where
  kmod := [10200, 10123]
  lsposed := [10123]
  ports := [⟨10123, portPolicyRules, [⟨8000, 9000, protoBoth⟩, ⟨53, 53, protoUdp⟩]⟩, ⟨10007, 2, []⟩]
  masks := [⟨10123, 0, 0, 1, 0, Vector.replicate 2 0⟩]
  ifaces := ⟨1, Vector.replicate 32 (Vector.replicate 16 0)⟩
  activeMask := 0
  javaMask := 0
  debugEnabled := 1
  matchMode := matchExclude

theorem samplePolicy_shape : samplePolicy.Shape where
  kmod_ne := by decide
  kmod_nodup := by decide
  lsposed_ne := by decide
  lsposed_nodup := by decide
  ports_ne := by decide
  ports_nodup := by decide
  modes := by decide
  rules := by decide
  masks := by
    rintro m (_ | ⟨_, ⟨⟩⟩)
    exact ⟨by decide, by decide, by decide, zeroed_replicate 2⟩
  masks_nodup := by decide
  ifaces := by decide
  matchMode := by decide

theorem policySnapshotFromV4_packPolicyV4_sample :
    ∃ bytes s, packPolicyV4 true samplePolicy = .ok bytes ∧ policySnapshotFromV4 true true bytes = .ok s ∧
      s.policy = samplePolicy.policy :=
  policySnapshotFromV4_packPolicyV4 samplePolicy samplePolicy_shape (by decide)

end VpnHide
