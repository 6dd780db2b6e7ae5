import VpnHide.ReadBack

/-!
# The legacy v2 payload (`vpnhide_apply_policy`)

A v2 payload has fixed arrays with signed counts. `vpnhide_apply_policy` checks the counts and the rules
and converts the payload into a v3 buffer; `policyV3FromV2_eq_ok` says which payloads pass and what the
buffer holds.
-/

namespace VpnHide

/-- The entries of a fixed array that its count covers. -/
def usedEntries {α : Type} {n : ℕ} (entries : Vector α n) (count : Int32) : List α :=
  entries.toList.take count.toInt.toNat

/-- A count below zero or above the array size. -/
def CountInvalid (count : Int32) (max : ℕ) : Prop := count.toInt < 0 ∨ count.toInt > max

instance (count : Int32) (max : ℕ) : Decidable (CountInvalid count max) := inferInstanceAs (Decidable (_ ∨ _))

def legacyRuleInvalid (rule : PortRule) : Bool := rule.startPort > rule.endPort || rule.protocol > protoBoth

/-- The loop that checks the port targets and adds up their rules. -/
def countLegacyRules : List UidPortRules → ℕ → Except Errno ℕ
  | [], ruleCount => .ok ruleCount
  | target :: rest, ruleCount => do
    rejectIf (CountInvalid target.ruleCount legacyPortRulesPerUid) .einval
    rejectIf ((usedEntries target.rules target.ruleCount).any legacyRuleInvalid) .einval
    countLegacyRules rest (ruleCount + target.ruleCount.toInt.toNat)

def UidPortRules.toTarget (source : UidPortRules) : PortTarget :=
  ⟨source.uid, source.mode, usedEntries source.rules source.ruleCount⟩

def AppHookMask.toV3 (m : AppHookMask) : AppHookMaskV3 :=
  ⟨m.uid, m.kernelMask, m.javaMask, m.hasKernelOverride, m.hasJavaOverride, Vector.replicate 2 0⟩

def PolicyPayload.lists (p : PolicyPayload) : PolicyLists where
  kmod := usedEntries p.targets.kmodUids p.targets.kmodCount
  lsposed := usedEntries p.targets.lsposedUids p.targets.lsposedCount
  ports := (usedEntries p.ports.targets p.ports.count).map UidPortRules.toTarget
  masks := (usedEntries p.appHookMasks.masks p.appHookMasks.count).map AppHookMask.toV3

/-- `vpnhide_apply_policy` up to the call of `vpnhide_apply_policy_v3`. As in `pack_policy_v4` the header
is written in one piece at the end. -/
def policyV3FromV2 (kvzalloc : Bool) (payload : PolicyPayload) : Except Errno (List UInt8) := do
  rejectIf (CountInvalid payload.targets.kmodCount legacyTargetUids ∨
    CountInvalid payload.targets.lsposedCount legacyTargetUids ∨
    CountInvalid payload.ports.count legacyTargetUids ∨
    CountInvalid payload.ifacePrefixes.count maxIfacePrefixes ∨
    CountInvalid payload.appHookMasks.count legacyTargetUids) .einval
  let ruleCount ← countLegacyRules (usedEntries payload.ports.targets payload.ports.count) 0
  let kmodCount := payload.targets.kmodCount.toInt.toNat
  let lsposedCount := payload.targets.lsposedCount.toInt.toNat
  let portCount := payload.ports.count.toInt.toNat
  let maskCount := payload.appHookMasks.count.toInt.toNat
  let size := PolicyPayloadV3.codec.size + kmodCount * Codec.u32.size + lsposedCount * Codec.u32.size +
    portCount * PortTargetV3.codec.size + ruleCount * PortRuleV3.codec.size +
    maskCount * AppHookMaskV3.codec.size
  rejectIf (!kvzalloc) .enomem
  let v3 := zeros size
  let kmodCursor := PolicyPayloadV3.codec.size
  let v3 := memcpy v3 kmodCursor (Codec.u32.encodeArray payload.lists.kmod)
  let lsposedCursor := kmodCursor + kmodCount * Codec.u32.size
  let v3 := memcpy v3 lsposedCursor (Codec.u32.encodeArray payload.lists.lsposed)
  let targetsCursor := lsposedCursor + lsposedCount * Codec.u32.size
  let rulesCursor := targetsCursor + portCount * PortTargetV3.codec.size
  let v3 := packPorts targetsCursor rulesCursor payload.lists.ports 0 0 v3
  let masksCursor := rulesCursor + ruleCount * PortRuleV3.codec.size
  let v3 := AppHookMaskV3.codec.store masksCursor payload.lists.masks 0 v3
  return memcpy v3 0 (PolicyPayloadV3.codec.encode {
    totalSize := UInt32.ofNat size
    flags := payload.flags
    activeHooksMask := payload.activeHooksMask
    javaHooksMask := payload.javaHooksMask
    debugEnabled := payload.debugEnabled
    ifaceCount := payload.ifacePrefixes.count.toUInt32
    ifacePrefixes := payload.ifacePrefixes.prefixes
    kmodUids := ⟨UInt32.ofNat kmodCursor, UInt32.ofNat kmodCount⟩
    lsposedUids := ⟨UInt32.ofNat lsposedCursor, UInt32.ofNat lsposedCount⟩
    portTargets := ⟨UInt32.ofNat targetsCursor, UInt32.ofNat portCount⟩
    portRules := ⟨UInt32.ofNat rulesCursor, UInt32.ofNat ruleCount⟩
    appHookMasks := ⟨UInt32.ofNat masksCursor, UInt32.ofNat maskCount⟩ })

/-! ### What the conversion builds -/

theorem length_usedEntries {α : Type} {n : ℕ} (entries : Vector α n) {count : Int32}
    (h : ¬ CountInvalid count n) : (usedEntries entries count).length = count.toInt.toNat := by
  unfold CountInvalid at h
  rw [usedEntries, List.length_take, Vector.length_toList]
  omega

def UidPortRules.Valid (t : UidPortRules) : Prop :=
  ¬ CountInvalid t.ruleCount legacyPortRulesPerUid ∧
    ∀ r ∈ usedEntries t.rules t.ruleCount, r.startPort ≤ r.endPort ∧ r.protocol ≤ protoBoth

theorem legacyRuleInvalid_eq_false {r : PortRule} :
    legacyRuleInvalid r = false ↔ r.startPort ≤ r.endPort ∧ r.protocol ≤ protoBoth := by
  simp [legacyRuleInvalid]

theorem countLegacyRules_eq_ok {targets : List UidPortRules} {n m : ℕ} :
    countLegacyRules targets n = .ok m ↔
      (∀ t ∈ targets, t.Valid) ∧ n + (allRules (targets.map UidPortRules.toTarget)).length = m := by
  induction targets generalizing n with
  | nil => simp [countLegacyRules, allRules]
  | cons t rest ih =>
    have hrules : (usedEntries t.rules t.ruleCount).any legacyRuleInvalid = true ↔
        ¬ ∀ r ∈ usedEntries t.rules t.ruleCount, r.startPort ≤ r.endPort ∧ r.protocol ≤ protoBoth := by
      simp only [← legacyRuleInvalid_eq_false, List.any_eq_true, not_forall, Bool.not_eq_false,
        exists_prop]
    simp only [countLegacyRules, bind_eq_ok, rejectIf_eq_ok, exists_const, ih, List.forall_mem_cons,
      UidPortRules.Valid, hrules, not_not, List.map_cons, length_allRules_cons, and_assoc]
    constructor
    · rintro ⟨hc, hr, hrest, hsum⟩
      refine ⟨hc, hr, hrest, ?_⟩
      rw [UidPortRules.toTarget, length_usedEntries _ hc]
      omega
    · rintro ⟨hc, hr, hrest, hsum⟩
      rw [UidPortRules.toTarget, length_usedEntries _ hc] at hsum
      exact ⟨hc, hr, hrest, by omega⟩

namespace PolicyPayload

/-- The v2 payloads that pass the checks of `vpnhide_apply_policy`. -/
structure Valid (p : PolicyPayload) : Prop where
  kmod : ¬ CountInvalid p.targets.kmodCount legacyTargetUids
  lsposed : ¬ CountInvalid p.targets.lsposedCount legacyTargetUids
  ports : ¬ CountInvalid p.ports.count legacyTargetUids
  ifaces : ¬ CountInvalid p.ifacePrefixes.count maxIfacePrefixes
  masks : ¬ CountInvalid p.appHookMasks.count legacyTargetUids
  targets : ∀ t ∈ usedEntries p.ports.targets p.ports.count, t.Valid

def v3Header (p : PolicyPayload) : PolicyPayloadV3 :=
  p.lists.withSections 576 {
    totalSize := 0
    flags := p.flags
    activeHooksMask := p.activeHooksMask
    javaHooksMask := p.javaHooksMask
    debugEnabled := p.debugEnabled
    ifaceCount := p.ifacePrefixes.count.toUInt32
    ifacePrefixes := p.ifacePrefixes.prefixes
    kmodUids := ⟨0, 0⟩
    lsposedUids := ⟨0, 0⟩
    portTargets := ⟨0, 0⟩
    portRules := ⟨0, 0⟩
    appHookMasks := ⟨0, 0⟩ }

def v3Bytes (p : PolicyPayload) : List UInt8 := PolicyPayloadV3.codec.encode p.v3Header ++ p.lists.sections

theorem length_v3Header (p : PolicyPayload) : (PolicyPayloadV3.codec.encode p.v3Header).length = 576 := by
  simp

/-- The writes of `vpnhide_apply_policy` produce the converted payload. -/
theorem fill_eq (p : PolicyPayload) :
    memcpy (AppHookMaskV3.codec.store (p.lists.rulesEnd 576) p.lists.masks 0
      (packPorts (p.lists.lsposedEnd 576) (p.lists.targetsEnd 576) p.lists.ports 0 0
        (memcpy (memcpy (zeros (p.lists.totalSize 576)) 576 (Codec.u32.encodeArray p.lists.kmod))
          (p.lists.kmodEnd 576) (Codec.u32.encodeArray p.lists.lsposed)))) 0
      (PolicyPayloadV3.codec.encode p.v3Header) = p.v3Bytes := by
  have hmasks := AppHookMaskV3.codec.store_gap (p.lists.rulesEnd 576) p.lists.masks _
    (zeros (p.lists.masks.length * 16)) [] (i := 0) (p.lists.length_front 576) (by simp)
  simp only [List.append_assoc, List.append_nil] at hmasks
  rw [p.lists.fill_ports, hmasks]
  exact p.lists.fill_header _ p.length_v3Header

end PolicyPayload

/-- The conversion succeeds exactly on the payloads that pass the checks. -/
theorem policyV3FromV2_eq_ok {p : PolicyPayload} {v3 : List UInt8} :
    policyV3FromV2 true p = .ok v3 ↔ p.Valid ∧ p.v3Bytes = v3 := by
  simp only [policyV3FromV2, bind_eq_ok, rejectIf_eq_ok, exists_const, pure, Except.pure,
    countLegacyRules_eq_ok, Nat.zero_add, not_or, Bool.not_true, Bool.false_eq_true,
    not_false_eq_true, true_and]
  rw [PolicyPayloadV3.codec_size]
  have hlist : p.lists.ports = (usedEntries p.ports.targets p.ports.count).map UidPortRules.toTarget := rfl
  have hk (h : p.Valid) : p.targets.kmodCount.toInt.toNat = p.lists.kmod.length :=
    (length_usedEntries _ h.kmod).symm
  have hl (h : p.Valid) : p.targets.lsposedCount.toInt.toNat = p.lists.lsposed.length :=
    (length_usedEntries _ h.lsposed).symm
  have hp (h : p.Valid) : p.ports.count.toInt.toNat = p.lists.ports.length := by
    rw [hlist, List.length_map, length_usedEntries _ h.ports]
  have hm (h : p.Valid) : p.appHookMasks.count.toInt.toNat = p.lists.masks.length := by
    rw [PolicyPayload.lists, List.length_map, length_usedEntries _ h.masks]
  constructor
  · rintro ⟨⟨h₁, h₂, h₃, h₄, h₅⟩, rules, ⟨htargets, rfl⟩, hv3⟩
    have h : p.Valid := ⟨h₁, h₂, h₃, h₄, h₅, htargets⟩
    refine ⟨h, ?_⟩
    rw [hk h, hl h, hp h, hm h, ← hlist] at hv3
    exact p.fill_eq.symm.trans (Except.ok.inj hv3)
  · rintro ⟨h, rfl⟩
    refine ⟨⟨h.kmod, h.lsposed, h.ports, h.ifaces, h.masks⟩, _, ⟨h.targets, rfl⟩, ?_⟩
    rw [hk h, hl h, hp h, hm h, ← hlist]
    exact congrArg Except.ok p.fill_eq

end VpnHide
