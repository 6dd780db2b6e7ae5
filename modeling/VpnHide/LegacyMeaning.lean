import VpnHide.Kernel

/-!
# The meaning of a legacy payload

What a v2 payload says, read directly off its fixed arrays, and that the conversion keeps it: the v3 buffer
is laid out without gap or overlap, the v3 parser accepts its sections, and the snapshot published from it
answers as the v2 arrays do (`legacy_conversion_preserves`).
-/

namespace VpnHide
open TxnM

namespace PolicyPayload
variable (p : PolicyPayload)

def usedTargets : List UidPortRules := usedEntries p.ports.targets p.ports.count

def usedMasks : List AppHookMask := usedEntries p.appHookMasks.masks p.appHookMasks.count

/-- The hooks for `uid`: the mask of its entry if that overrides the global one, with the port hooks added. -/
def hookMask (uid : UInt32) : UInt32 :=
  (match p.usedMasks.find? fun m => m.uid = uid with
    | some m => if m.hasKernelOverride ≠ 0 then m.kernelMask else p.activeHooksMask
    | none => p.activeHooksMask) ||| portHookMask

/-- Some entry for `uid` refuses the port: it denies everything, or one of its rules covers the port. -/
def Blocks (uid : UInt32) (port : UInt16) (proto : UInt8) : Prop :=
  ∃ t ∈ p.usedTargets, t.uid = uid ∧ t.mode ≠ portPolicyUnrestricted ∧
    (t.mode = portPolicyDenyAll ∨ ∃ r ∈ usedEntries t.rules t.ruleCount, r.Covers port proto)

/-- The size that `vpnhide_apply_policy` allocates. -/
def v3Size : ℕ :=
  576 + p.targets.kmodCount.toInt.toNat * 4 + p.targets.lsposedCount.toInt.toNat * 4 +
    p.ports.count.toInt.toNat * 16 + (p.usedTargets.map fun t => t.ruleCount.toInt.toNat).sum * 8 +
    p.appHookMasks.count.toInt.toNat * 16

end PolicyPayload

/-! ### The buffer -/

namespace PolicyPayload
variable {p : PolicyPayload}

theorem length_allRules_lists (h : p.Valid) :
    (allRules p.lists.ports).length = (p.usedTargets.map fun t => t.ruleCount.toInt.toNat).sum := by
  have hlen : ∀ t ∈ p.usedTargets, t.toTarget.rules.length = t.ruleCount.toInt.toNat :=
    fun t ht => length_usedEntries _ (h.targets t ht).1
  show (allRules (p.usedTargets.map UidPortRules.toTarget)).length = _
  generalize p.usedTargets = targets at hlen
  induction targets with
  | nil => rfl
  | cons t rest ih =>
    obtain ⟨ht, hrest⟩ := List.forall_mem_cons.1 hlen
    rw [List.map_cons, length_allRules_cons, ht, ih hrest, List.map_cons, List.sum_cons]

theorem totalSize_lists (h : p.Valid) : p.lists.totalSize 576 = p.v3Size := by
  have hk : p.lists.kmod.length = _ := length_usedEntries _ h.kmod
  have hl : p.lists.lsposed.length = _ := length_usedEntries _ h.lsposed
  have hp : p.lists.ports.length = _ := (List.length_map _).trans (length_usedEntries _ h.ports)
  have hm : p.lists.masks.length = _ := (List.length_map _).trans (length_usedEntries _ h.masks)
  simp only [PolicyLists.totalSize, PolicyLists.rulesEnd, PolicyLists.targetsEnd, PolicyLists.lsposedEnd,
    PolicyLists.kmodEnd, hk, hl, hp, hm, length_allRules_lists h, v3Size]

theorem decode_v3Bytes (p : PolicyPayload) : PolicyPayloadV3.codec.decode p.v3Bytes = p.v3Header := by
  rw [v3Bytes, Codec.decode_encode]

theorem length_v3Bytes (p : PolicyPayload) : p.v3Bytes.length = p.lists.totalSize 576 := by
  rw [v3Bytes, List.length_append, p.length_v3Header, p.lists.length_sections]

/-! ### The answers -/

/-- The policy of a published conversion is the one the v2 arrays state. -/
theorem policy_of_v3Bytes (p : PolicyPayload) {s : PolicySnapshot}
    (h : policySnapshotFromV3 true p.v3Bytes = .ok s) :
    s.WF ∧ s.policy = p.lists.contents.policy p.v3Header 0 0 0 ∧ p.lists.contents.Valid := by
  have hwf := policySnapshotFromV3_wf h
  obtain ⟨hg, rfl⟩ := policySnapshotFromV3_eq_ok.1 h
  have hvalid := hg.contents
  rw [p.contents_v3Bytes] at hvalid
  rw [p.contents_v3Bytes, p.decode_v3Bytes] at hwf ⊢
  exact ⟨hwf, PolicyContents.policy_install hvalid, hvalid⟩

theorem lookupBy_masks (p : PolicyPayload) (uid : UInt32) :
    lookupBy maskKey p.lists.masks uid.toNat = (p.usedMasks.find? fun m => m.uid = uid).map AppHookMask.toV3 := by
  have hkey : (fun m : AppHookMask => m.uid.toNat == uid.toNat) = fun m => decide (m.uid = uid) := by
    funext m
    rw [Bool.eq_iff_iff, beq_iff_eq, decide_eq_true_eq, UInt32.toNat_inj]
  rw [← hkey]
  exact lookupBy_map AppHookMask.toV3 (fun _ => rfl) ..

theorem hookMask_policy (p : PolicyPayload) (uid : UInt32) :
    (p.lists.contents.policy p.v3Header 0 0 0).hookMask uid = p.hookMask uid := by
  have hover : (p.lists.contents.policy p.v3Header 0 0 0).overrides uid =
      (lookupBy maskKey p.lists.masks uid.toNat).map forcePortHooks := rfl
  rw [Policy.hookMask, hover, p.lookupBy_masks, hookMask]
  cases p.usedMasks.find? fun m => m.uid = uid with
  | none => rfl
  | some m =>
    have hflag : (forcePortHooks m.toV3).hasKernelOverride = m.hasKernelOverride :=
      forcePortHooks_hasKernelOverride _
    show (if (forcePortHooks m.toV3).hasKernelOverride ≠ 0 then (forcePortHooks m.toV3).kernelMask
      else p.activeHooksMask ||| portHookMask) = (if m.hasKernelOverride ≠ 0 then m.kernelMask
      else p.activeHooksMask) ||| portHookMask
    by_cases hm : m.hasKernelOverride ≠ 0
    · rw [hflag, if_pos hm, if_pos hm]
      exact forcePortHooks_kernelMask hm
    · rw [hflag, if_neg hm, if_neg hm]

theorem blocks_iff_lists (p : PolicyPayload) (uid : UInt32) (port : UInt16) (proto : UInt8) :
    p.Blocks uid port proto ↔ ∃ t ∈ p.lists.ports, t.key = uid.toNat ∧ t.Blocks port proto := by
  have hports : p.lists.ports = p.usedTargets.map UidPortRules.toTarget := rfl
  rw [hports]
  constructor
  · rintro ⟨t, ht, rfl, hblocks⟩
    exact ⟨t.toTarget, List.mem_map_of_mem ht, rfl, hblocks⟩
  · rintro ⟨_, hmem, hkey, hblocks⟩
    obtain ⟨t, ht, rfl⟩ := List.mem_map.1 hmem
    exact ⟨t, ht, UInt32.toNat_inj.1 hkey, hblocks⟩

theorem blocks_policy (h : p.lists.contents.Valid) (uid : UInt32) (port : UInt16) (proto : UInt8) :
    (p.lists.contents.policy p.v3Header 0 0 0).Blocks uid port proto ↔ p.Blocks uid port proto := by
  have hrules : (allRules p.lists.ports).length < 2 ^ 32 := (PolicyLists.bounds p.totalSize_lt).2.2.2.2.1
  have hports : (p.lists.contents.policy p.v3Header 0 0 0).ports uid =
      (lookupBy PortTarget.key p.lists.ports uid.toNat).map fun t => (t.mode, (↑t.rules : Multiset PortRule)) := by
    rw [← PolicyLists.targets_contents hrules]
    exact p.lists.contents.ports_targets uid
  have hnodup : (p.lists.ports.map PortTarget.key).Nodup := by
    have huids := h.targets_nodup
    rw [PolicyLists.contents, map_uid_packTargets] at huids
    have hkeys := nodup_map_toNat.2 huids
    rwa [List.map_map] at hkeys
  rw [Policy.Blocks, hports, blocks_iff_lists]
  constructor
  · intro hblocks
    cases hl : lookupBy PortTarget.key p.lists.ports uid.toNat with
    | none =>
      rw [hl] at hblocks
      have hmode : (0 : UInt32) = matchExclude := hblocks.1
      exact absurd hmode (by decide)
    | some t =>
      rw [hl] at hblocks
      obtain ⟨hmem, hkey⟩ := mem_of_lookupBy hl
      exact ⟨t, hmem, hkey, hblocks⟩
  · rintro ⟨t, hmem, hkey, hblocks⟩
    rw [(lookupBy_eq_some hnodup).2 ⟨hmem, hkey⟩]
    exact hblocks

end PolicyPayload

/-- The conversion of every v2 payload that passes the checks: the buffer has the allocated size and is the
header followed by the five sections in order, the section table tiles it to its end, and
`policy_section_validate` accepts each section. Whenever the result is published, targets, hooks and blocked
ports are those the v2 arrays state. -/
theorem legacy_conversion_preserves {kvzalloc : Bool} {p : PolicyPayload} {v3 : List UInt8}
    (h : policyV3FromV2 kvzalloc p = .ok v3) :
    let header := PolicyPayloadV3.codec.decode v3
    v3.length = p.v3Size ∧ header.totalSize.toNat = v3.length ∧
    v3 = PolicyPayloadV3.codec.encode header ++ (Codec.u32.encodeArray p.lists.kmod ++
      (Codec.u32.encodeArray p.lists.lsposed ++ (PortTargetV3.codec.encodeArray (packTargets p.lists.ports 0) ++
        (PortRuleV3.codec.encodeArray (allRules p.lists.ports) ++
          AppHookMaskV3.codec.encodeArray p.lists.masks)))) ∧
    Tiles header.spans 576 v3.length ∧
    (∃ c₁ c₂ c₃ c₄, policySectionValidate header.kmodUids Codec.u32.size 576 v3.length = .ok c₁ ∧
      policySectionValidate header.lsposedUids Codec.u32.size c₁ v3.length = .ok c₂ ∧
      policySectionValidate header.portTargets PortTargetV3.codec.size c₂ v3.length = .ok c₃ ∧
      policySectionValidate header.portRules PortRuleV3.codec.size c₃ v3.length = .ok c₄ ∧
      policySectionValidate header.appHookMasks AppHookMaskV3.codec.size c₄ v3.length = .ok v3.length) ∧
    ∀ (alloc : AllocOutcomes) (expected : UInt64) (k k' : KernelState),
      exec (vpnhideApplyPolicy alloc p expected) k = (.ok (), k') →
      ∃ s, k'.policy = some s ∧ ∀ uid, UidEligible uid →
        (isTargetUidVal (some s) uid ↔ uid ∈ usedEntries p.targets.kmodUids p.targets.kmodCount) ∧
        (∀ index, isHookActive (some s) index uid ↔ p.hookMask uid &&& index.bit ≠ 0) ∧
        ∀ port proto, portBlocked s uid port proto ↔ p.Blocks uid port proto := by
  rw [policyV3FromV2_alloc h] at h
  obtain ⟨hvalid, rfl⟩ := policyV3FromV2_eq_ok.1 h
  intro header
  have hheader : header = p.v3Header := p.decode_v3Bytes
  have hlen := p.length_v3Bytes
  have htiles : Tiles header.spans 576 p.v3Bytes.length := by
    rw [hlen, hheader]
    exact PolicyLists.tiles_withSections p.totalSize_lt
  have hmax : p.v3Bytes.length ≤ sizeMax := by
    rw [hlen]
    exact Nat.le_trans (Nat.le_of_lt p.totalSize_lt) (by decide)
  refine ⟨hlen.trans (PolicyPayload.totalSize_lists hvalid), ?_, ?_, htiles,
    (policySectionValidate_tiles hmax).2 htiles, ?_⟩
  · rw [hheader, hlen]
    exact toNat_ofNat_of_lt p.totalSize_lt
  · rw [hheader]
    rfl
  · intro alloc expected k k' hrun
    obtain ⟨v3, hv3, s, hs, hpublish⟩ : ∃ v3, policyV3FromV2 alloc.conversion p = .ok v3 ∧
        ∃ s, policySnapshotFromV3 alloc.snapshot v3 = .ok s ∧
          exec (publishPolicySnapshot alloc s expected) k = (.ok (), k') := by
      simpa only [vpnhideApplyPolicy, vpnhideApplyPolicyV3, exec_attempt_bind_eq_ok] using hrun
    rw [policyV3FromV2_alloc hv3] at hv3
    obtain ⟨-, rfl⟩ := policyV3FromV2_eq_ok.1 hv3
    rw [policySnapshotFromV3_alloc hs] at hs
    obtain ⟨hwf, hpolicy, hcontents⟩ := p.policy_of_v3Bytes hs
    obtain ⟨-, stats, -, rfl⟩ := publishPolicySnapshot_eq_ok.1 hpublish
    refine ⟨s, rfl, fun uid huid => ⟨?_, fun index => ?_, fun port proto => ?_⟩⟩
    · rw [hwf.isTargetUidVal_iff, hpolicy]
      exact and_iff_right huid
    · rw [hwf.isHookActive_iff, hpolicy, p.hookMask_policy]
    · rw [hwf.portBlocked_iff, hpolicy, PolicyPayload.blocks_policy hcontents]

/-- One hidden uid with its own hook mask, which may not reach ports 8000 to 9000 over TCP. -/
def sampleLegacy : PolicyPayload where
  targets := ⟨1, Vector.replicate 512 10123, 0, Vector.replicate 512 0⟩
  ports := ⟨1, Vector.replicate 512 ⟨10123, 1, 0, Vector.replicate 16 ⟨8000, 9000, protoTcp⟩⟩⟩
  ifacePrefixes := ⟨0, Vector.replicate 32 (Vector.replicate 16 0)⟩
  appHookMasks := ⟨1, Vector.replicate 512 ⟨10123, 1, 0, 1, 0⟩⟩
  activeHooksMask := 0
  javaHooksMask := 0
  debugEnabled := 0
  flags := 0

theorem legacy_conversion_preserves_sample :
    ∃ v3 k' s, policyV3FromV2 true sampleLegacy = .ok v3 ∧ v3.length = 576 + 4 + 16 + 8 + 16 ∧
      exec (vpnhideApplyPolicy ⟨true, true, true, true⟩ sampleLegacy 0) .init = (.ok (), k') ∧
      k'.policy = some s ∧ isTargetUidVal (some s) 10123 ∧ isHookActive (some s) .connect 10123 ∧
      portBlocked s 10123 8080 protoTcp := by
  have hrun : (exec (vpnhideApplyPolicy ⟨true, true, true, true⟩ sampleLegacy 0) .init).1.toBool = true := by
    decide +kernel
  cases hconv : policyV3FromV2 true sampleLegacy with
  | error e =>
    simp only [vpnhideApplyPolicy, exec_bind, exec_attempt, hconv] at hrun
    cases hrun
  | ok v3 =>
    obtain ⟨k', hk'⟩ := ok_of_toBool _ hrun
    obtain ⟨hsize, -, -, -, -, hpublished⟩ := legacy_conversion_preserves hconv
    obtain ⟨s, hs, hanswers⟩ := hpublished _ _ _ _ hk'
    obtain ⟨htarget, hhook, hblocked⟩ := hanswers 10123 (by decide)
    refine ⟨v3, k', s, rfl, hsize.trans (by decide +kernel), hk', hs, htarget.2 (by decide +kernel),
      (hhook _).2 (by decide +kernel), (hblocked _ _).2 ?_⟩
    exact ⟨_, List.mem_cons_self, rfl, by decide, .inr ⟨_, List.mem_cons_self, by decide⟩⟩

end VpnHide
