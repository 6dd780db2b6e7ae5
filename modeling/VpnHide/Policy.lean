import VpnHide.Parsers
import Mathlib.Data.Multiset.MapFold

/-!
# The policy a snapshot stands for

`Policy` forgets layout and order: uid sets, a map from uids to a port mode with a multiset of rules,
and a map of hook overrides. `PolicySnapshot.policy` reads it off a snapshot, `PolicyContents.policy` off
a payload; installing a payload preserves it, and on a well-formed snapshot the kernel's decisions are
decisions about it.
-/

namespace VpnHide

def PortRuleV3.toRule (r : PortRuleV3) : PortRule := ⟨r.startPort, r.endPort, r.protocol⟩

/-- The rule speaks about the port under the protocol. -/
def PortRule.Covers (r : PortRule) (port : UInt16) (proto : UInt8) : Prop :=
  r.startPort ≤ port ∧ port ≤ r.endPort ∧ (r.protocol = protoBoth ∨ r.protocol = proto)

instance (r : PortRule) (port : UInt16) (proto : UInt8) : Decidable (r.Covers port proto) :=
  inferInstanceAs (Decidable (_ ∧ _ ∧ _))

@[ext] structure Policy where
  kmod : Set UInt32
  lsposed : Set UInt32
  ports : UInt32 → Option (UInt8 × Multiset PortRule)
  overrides : UInt32 → Option AppHookMaskV3
  activeHooks : UInt32
  javaHooks : UInt32
  debug : UInt32
  ifaces : IfaceIoctlData
  kmodMode : UInt32
  lsposedMode : UInt32
  portMode : UInt32

namespace Policy

/-- Listed under `INCLUDE`, not listed under `EXCLUDE`; never an ineligible uid. -/
def Selects (uids : Set UInt32) (mode uid : UInt32) : Prop :=
  UidEligible uid ∧ if mode = matchExclude then uid ∉ uids else uid ∈ uids

def Targets (p : Policy) (uid : UInt32) : Prop := Selects p.kmod p.kmodMode uid

/-- `uid` may not connect to the local port. -/
def Blocks (p : Policy) (uid : UInt32) (port : UInt16) (proto : UInt8) : Prop :=
  match p.ports uid with
  | some (mode, rules) =>
    mode ≠ portPolicyUnrestricted ∧ (mode = portPolicyDenyAll ∨ ∃ r ∈ rules, r.Covers port proto)
  | none => p.portMode = matchExclude ∧ UidEligible uid

/-- The hooks that run for `uid`. -/
def hookMask (p : Policy) (uid : UInt32) : UInt32 :=
  match p.overrides uid with
  | some override => if override.hasKernelOverride ≠ 0 then override.kernelMask else p.activeHooks
  | none => p.activeHooks

end Policy

/-! ### Reading the policy off a snapshot -/

def PolicySnapshot.policy (s : PolicySnapshot) : Policy where
  kmod := { uid | uid ∈ s.kmodUids }
  lsposed := { uid | uid ∈ s.lsposedUids }
  ports uid := (lookupBy targetKey s.portTargets uid.toNat).map fun t =>
    (t.mode, ↑((s.slice t).map PortRuleV3.toRule))
  overrides uid := lookupBy maskKey s.appHookMasks uid.toNat
  activeHooks := s.activeHooksMask
  javaHooks := s.javaHooksMask
  debug := s.debugEnabled
  ifaces := s.ifacePrefixes
  kmodMode := s.kmodMatchMode
  lsposedMode := s.lsposedMatchMode
  portMode := s.portMatchMode

theorem PortRuleV3.covers_iff (r : PortRuleV3) (port : UInt16) (proto : UInt8) :
    r.covers port proto ↔ r.toRule.Covers port proto := by
  simp [covers, PortRule.Covers, toRule, and_assoc]

namespace PolicySnapshot.WF
variable {s : PolicySnapshot}

theorem isTargetUidVal_iff (h : s.WF) (uid : UInt32) :
    isTargetUidVal (some s) uid ↔ s.policy.Targets uid :=
  vpnhideUidMatchesMode_iff h.kmod h.kmod_small s.kmodMatchMode uid

theorem isHookActive_iff (h : s.WF) (index : HookIdx) (uid : UInt32) :
    isHookActive (some s) index uid ↔ s.policy.hookMask uid &&& index.bit ≠ 0 := by
  simp only [isHookActive, searchElem_eq_lookupBy midOffset_ok h.masks h.masks_small, decide_eq_true_eq]
  rfl

theorem portBlocked_iff (h : s.WF) (uid : UInt32) (port : UInt16) (proto : UInt8) :
    portBlocked s uid port proto ↔ s.policy.Blocks uid port proto := by
  rw [h.portBlocked_eq]
  simp only [Policy.Blocks, PolicySnapshot.policy]
  cases lookupBy targetKey s.portTargets uid.toNat with
  | none => simp only [decide_eq_true_eq, Option.map_none]
  | some t =>
    have hany : ((s.slice t).any fun r => r.covers port proto) ↔
        ∃ r ∈ (s.slice t).map PortRuleV3.toRule, r.Covers port proto := by
      simp [List.any_eq_true, PortRuleV3.covers_iff]
    simp only [Option.map_some, Multiset.mem_coe, ← hany]
    by_cases hu : t.mode = portPolicyUnrestricted <;> by_cases hd : t.mode = portPolicyDenyAll <;>
      simp [hu, hd]

end PolicySnapshot.WF

/-! ### Reading the policy off a payload -/

namespace PolicyContents
variable {c : PolicyContents}

/-- What the contents say, with the port hooks forced into the masks. -/
def policy (c : PolicyContents) (header : PolicyPayloadV3) (kmodMode lsposedMode portMode : UInt32) :
    Policy where
  kmod := { uid | uid ∈ c.kmodUids }
  lsposed := { uid | uid ∈ c.lsposedUids }
  ports uid := (lookupBy targetKey c.portTargets uid.toNat).map fun t =>
    (t.mode, ↑((c.slice t).map PortRuleV3.toRule))
  overrides uid := (lookupBy maskKey c.appHookMasks uid.toNat).map forcePortHooks
  activeHooks := header.activeHooksMask ||| portHookMask
  javaHooks := header.javaHooksMask
  debug := if header.debugEnabled ≠ 0 then 1 else 0
  ifaces := ⟨header.ifaceCount.toInt32, header.ifacePrefixes⟩
  kmodMode := kmodMode
  lsposedMode := lsposedMode
  portMode := portMode

theorem InstalledAs.ports {s : PolicySnapshot} (hi : c.InstalledAs s) (h : c.Valid) (uid : UInt32) :
    (lookupBy targetKey s.portTargets uid.toNat).map
        (fun t => (t.mode, (↑((s.slice t).map PortRuleV3.toRule) : Multiset PortRule))) =
      (lookupBy targetKey c.portTargets uid.toNat).map
        (fun t => (t.mode, (↑((c.slice t).map PortRuleV3.toRule) : Multiset PortRule))) := by
  have hn := nodup_map_targetKey.2 h.targets_nodup
  rw [← lookupBy_perm hn hi.targets.symm]
  cases hl : lookupBy targetKey c.portTargets uid.toNat with
  | none => rfl
  | some t =>
    have ht : t ∈ s.portTargets := hi.targets.mem_iff.2 (mem_of_lookupBy hl).1
    have hperm := ((hi.slices t ht).map PortRuleV3.toRule)
    simp only [Option.map_some, Multiset.coe_eq_coe.2 hperm]

theorem InstalledAs.overrides {s : PolicySnapshot} (hi : c.InstalledAs s) (h : c.Valid) (uid : UInt32) :
    lookupBy maskKey s.appHookMasks uid.toNat =
      (lookupBy maskKey c.appHookMasks uid.toNat).map forcePortHooks := by
  have hkey (m : AppHookMaskV3) : maskKey (forcePortHooks m) = maskKey m := by simp [maskKey]
  have hn : ((c.appHookMasks.map forcePortHooks).map maskKey).Nodup := by
    simpa [List.map_map, Function.comp_def, hkey] using nodup_map_maskKey.2 h.masks_nodup
  rw [← lookupBy_perm hn hi.masks.symm, lookupBy_map forcePortHooks hkey]

theorem policy_install {header : PolicyPayloadV3} (h : c.Valid) :
    (c.install header).policy = c.policy header 0 0 0 := by
  have hi : c.InstalledAs (c.install header) := install_installedAs h
  ext uid
  · exact hi.kmod.mem_iff
  · exact hi.lsposed.mem_iff
  · simp only [PolicySnapshot.policy, policy, hi.ports h]
  · simp only [PolicySnapshot.policy, policy, hi.overrides h]
  all_goals rfl

theorem policy_installV4 {header : PolicyPayloadV4} (h : c.Valid) :
    (c.installV4 header).policy =
      c.policy header.base header.kmodMatchMode header.lsposedMatchMode header.portMatchMode := by
  have hmodes : (c.installV4 header).policy = { (c.install header.base).policy with
    kmodMode := header.kmodMatchMode
    lsposedMode := header.lsposedMatchMode
    portMode := header.portMatchMode } := rfl
  rw [hmodes, policy_install h]
  rfl

end PolicyContents

end VpnHide
