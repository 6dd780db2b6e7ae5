import VpnHide.Grammar

/-!
# The invariant of a published snapshot

`PolicySnapshot.WF` is what the readers of a snapshot rely on: strictly sorted arrays that are short
enough for `int` bounds, rule slices inside the rule array and sorted by start port, and the two port
hooks forced into every mask. Valid contents install a well-formed snapshot (`PolicyContents.install_wf`),
and the lists of that snapshot say the same as the contents.
-/

namespace VpnHide

def PolicySnapshot.slice (s : PolicySnapshot) (t : PortTargetV3) : List PortRuleV3 :=
  VpnHide.slice s.portRules t.firstRule.toNat t.ruleCount.toNat

def PolicyContents.slice (c : PolicyContents) (t : PortTargetV3) : List PortRuleV3 :=
  VpnHide.slice c.portRules t.firstRule.toNat t.ruleCount.toNat

def KeepsPortHooks (mask : UInt32) : Prop := mask &&& portHookMask = portHookMask

structure PolicySnapshot.WF (s : PolicySnapshot) : Prop where
  kmod : StrictBy UInt32.toNat s.kmodUids
  lsposed : StrictBy UInt32.toNat s.lsposedUids
  targets : StrictBy targetKey s.portTargets
  masks : StrictBy maskKey s.appHookMasks
  slice_le : ∀ t ∈ s.portTargets, t.firstRule.toNat + t.ruleCount.toNat ≤ s.portRules.length
  slice_sorted : ∀ t ∈ s.portTargets, (s.slice t).Pairwise fun a b => a.startPort ≤ b.startPort
  globalHooks : KeepsPortHooks s.activeHooksMask
  maskHooks : ∀ m ∈ s.appHookMasks, m.hasKernelOverride ≠ 0 → KeepsPortHooks m.kernelMask
  kmod_small : s.kmodUids.length < 2 ^ 30
  lsposed_small : s.lsposedUids.length < 2 ^ 30
  targets_small : s.portTargets.length < 2 ^ 30
  masks_small : s.appHookMasks.length < 2 ^ 30

theorem keepsPortHooks_or (mask : UInt32) : KeepsPortHooks (mask ||| portHookMask) := by
  unfold KeepsPortHooks
  apply UInt32.toBitVec_inj.1
  simp only [UInt32.toBitVec_and, UInt32.toBitVec_or]
  ext i
  simp only [BitVec.getElem_and, BitVec.getElem_or]
  cases (portHookMask.toBitVec)[i] <;> simp

theorem forcePortHooks_kernelMask {m : AppHookMaskV3} (h : m.hasKernelOverride ≠ 0) :
    (forcePortHooks m).kernelMask = m.kernelMask ||| portHookMask := by
  simp [forcePortHooks, h]

@[simp] theorem forcePortHooks_hasKernelOverride (m : AppHookMaskV3) :
    (forcePortHooks m).hasKernelOverride = m.hasKernelOverride := by
  unfold forcePortHooks; split <;> rfl

theorem sortCmp_rules_sorted (rules : List PortRuleV3) :
    (sortCmp policyPortRuleCmp rules).Pairwise fun a b => a.startPort ≤ b.startPort := by
  refine (sortCmp_sorted cmpKey_rule rules).imp fun {a b} h => ?_
  have hb₁ := b.endPort.toNat_lt
  have hb₂ := b.protocol.toNat_lt
  simp only [ruleKey] at h
  rw [UInt16.le_iff_toNat_le]
  omega

namespace PolicyContents
variable {c : PolicyContents} {header : PolicyPayloadV3}

structure Small (c : PolicyContents) : Prop where
  kmod : c.kmodUids.length < 2 ^ 30
  lsposed : c.lsposedUids.length < 2 ^ 30
  targets : c.portTargets.length < 2 ^ 30
  masks : c.appHookMasks.length < 2 ^ 30

/-- Installing sorts every slice and keeps its place. -/
theorem slice_install (h : c.Valid) {t : PortTargetV3} (ht : t ∈ c.portTargets) :
    (c.install header).slice t = sortCmp policyPortRuleCmp (c.slice t) := by
  have hspan : t.span ∈ c.portTargets.map PortTargetV3.span := List.mem_map_of_mem ht
  have key := slice_mapTiles (fun l => @length_sortCmp _ policyPortRuleCmp l) h.slices
    (Nat.zero_add _) hspan
  rw [List.map_map] at key
  exact key

/-- `s` says what `c` says, in another order. -/
structure InstalledAs (c : PolicyContents) (s : PolicySnapshot) : Prop where
  kmod : s.kmodUids.Perm c.kmodUids
  lsposed : s.lsposedUids.Perm c.lsposedUids
  targets : s.portTargets.Perm c.portTargets
  slices : ∀ t ∈ s.portTargets, (s.slice t).Perm (c.slice t)
  masks : s.appHookMasks.Perm (c.appHookMasks.map forcePortHooks)

theorem install_installedAs (h : c.Valid) : c.InstalledAs (c.install header) where
  kmod := sortCmp_perm ..
  lsposed := sortCmp_perm ..
  targets := sortCmp_perm ..
  slices t ht := by
    rw [slice_install h (mem_sortCmp.1 ht)]
    exact sortCmp_perm ..
  masks := sortCmp_perm ..

theorem slice_le (h : c.Valid) {t : PortTargetV3} (ht : t ∈ c.portTargets) :
    t.firstRule.toNat + t.ruleCount.toNat ≤ c.portRules.length :=
  (h.slices.mem_bounds (List.mem_map_of_mem (f := PortTargetV3.span) ht)).2

theorem install_wf (h : c.Valid) (hsmall : c.Small) : (c.install header).WF where
  kmod := (strictBy_sortCmp_iff cmpKey_uid _).2 (nodup_map_toNat.2 h.kmod_nodup)
  lsposed := (strictBy_sortCmp_iff cmpKey_uid _).2 (nodup_map_toNat.2 h.lsposed_nodup)
  targets := (strictBy_sortCmp_iff cmpKey_target _).2 (nodup_map_targetKey.2 h.targets_nodup)
  masks := by
    refine (strictBy_sortCmp_iff cmpKey_mask _).2 (nodup_map_maskKey.2 ?_)
    simpa [List.map_map, Function.comp_def] using h.masks_nodup
  slice_le t ht := by
    have hlen : (c.install header).portRules.length = c.portRules.length := c.sortedRules_perm.length_eq
    rw [hlen]
    exact slice_le h (mem_sortCmp.1 ht)
  slice_sorted t ht := by
    rw [slice_install h (mem_sortCmp.1 ht)]
    exact sortCmp_rules_sorted _
  globalHooks := keepsPortHooks_or _
  maskHooks m hm hover := by
    obtain ⟨m', -, rfl⟩ := List.mem_map.1 (mem_sortCmp.1 hm)
    rw [forcePortHooks_hasKernelOverride] at hover
    rw [forcePortHooks_kernelMask hover]
    exact keepsPortHooks_or _
  kmod_small := by simpa [install] using hsmall.kmod
  lsposed_small := by simpa [install] using hsmall.lsposed
  targets_small := by simpa [install] using hsmall.targets
  masks_small := by simpa [install] using hsmall.masks

end PolicyContents

theorem PolicyPayloadV3.contents_small {header : PolicyPayloadV3} {payload : List UInt8} {start : ℕ}
    (h : Tiles header.spans start payload.length) (hlen : payload.length < 2 ^ 30) :
    (header.contents payload).Small := by
  have hbound {s : ℕ × ℕ} (hs : s ∈ header.spans) : s.2 < 2 ^ 30 :=
    Nat.lt_of_le_of_lt (Nat.le_trans (Nat.le_add_left ..) (h.mem_bounds hs).2) hlen
  have h₁ := hbound (s := header.kmodUids.span 4) (by simp [spans])
  have h₂ := hbound (s := header.lsposedUids.span 4) (by simp [spans])
  have h₃ := hbound (s := header.portTargets.span 16) (by simp [spans])
  have h₄ := hbound (s := header.appHookMasks.span 16) (by simp [spans])
  simp only [PolicySectionV3.span] at h₁ h₂ h₃ h₄
  constructor <;> simp only [contents, length_readSection] <;> omega

theorem V3Grammar.contents_small {payload : List UInt8} (h : V3Grammar payload) :
    ((PolicyPayloadV3.codec.decode payload).contents payload).Small :=
  PolicyPayloadV3.contents_small h.sections (Nat.lt_of_le_of_lt h.size_le (by decide))

end VpnHide
