import VpnHide.WellFormed
import VpnHide.Lib.BinarySearch

/-!
# Reading a snapshot (`kmod/main.c`, `kmod/hooks_socket.c`)

The questions the hooks ask of the published snapshot. Every array is searched by the same binary
search with `int` bounds; on a well-formed snapshot each question is answered by plain lookup.
-/

namespace VpnHide

/-- A uid the policy may act on: not root, not `system`, and an app id of 10000 or more. -/
def UidEligible (uid : UInt32) : Prop := ¬ (uid = 0 ∨ uid = 1000 ∨ uid % 100000 < 10000)

instance (uid : UInt32) : Decidable (UidEligible uid) := inferInstanceAs (Decidable (¬ _))

/-! ### The searches -/

def vpnhideUidMatchesMode (uids : List UInt32) (mode uid : UInt32) : Bool :=
  if ¬ UidEligible uid then false
  else
    let found := (searchElem midOffset UInt32.toNat uids uid.toNat).isSome
    if mode = matchExclude then !found else found

def isTargetUidVal (snapshot : Option PolicySnapshot) (uid : UInt32) : Bool :=
  match snapshot with
  | none => false
  | some s => vpnhideUidMatchesMode s.kmodUids s.kmodMatchMode uid

def isHookActive (snapshot : Option PolicySnapshot) (index : HookIdx) (uid : UInt32) : Bool :=
  match snapshot with
  | none => false
  | some s =>
    let mask := match searchElem midOffset maskKey s.appHookMasks uid.toNat with
      | some override => if override.hasKernelOverride ≠ 0 then override.kernelMask else s.activeHooksMask
      | none => s.activeHooksMask
    mask &&& index.bit ≠ 0

def policyHasInvertedStatsLayer (s : PolicySnapshot) : Bool :=
  s.kmodMatchMode = matchExclude || s.lsposedMatchMode = matchExclude || s.portMatchMode = matchExclude

def policyUidHasStats (s : PolicySnapshot) (uid : UInt32) : Bool :=
  if vpnhideUidMatchesMode s.kmodUids s.kmodMatchMode uid ||
      vpnhideUidMatchesMode s.lsposedUids s.lsposedMatchMode uid then true
  else match searchElem midOffset targetKey s.portTargets uid.toNat with
    | some target => target.mode ≠ portPolicyUnrestricted
    | none => s.portMatchMode = matchExclude && vpnhideUidMatchesMode [] matchExclude uid

def denyAll : PortTargetV3 where
  uid := 0
  firstRule := 0
  ruleCount := 0
  mode := portPolicyDenyAll
  reserved := Vector.replicate 3 0

def vpnhideFindPortTarget (snapshot : Option PolicySnapshot) (uid : UInt32) : Option PortTargetV3 :=
  match snapshot with
  | none => none
  | some s => match searchElem midOffset targetKey s.portTargets uid.toNat with
    | some target => some target
    | none =>
      if s.portMatchMode = matchExclude ∧ vpnhideUidMatchesMode [] matchExclude uid then some denyAll
      else none

/-- The loop over the rules of a target, which stops after the first rule that starts past the
port. -/
def scanRules (port : UInt16) (proto : UInt8) : List PortRuleV3 → Bool
  | [] => false
  | r :: rest =>
    if port ≥ r.startPort ∧ port ≤ r.endPort ∧ (r.protocol = protoBoth ∨ r.protocol = proto) then true
    else if r.startPort > port then false
    else scanRules port proto rest

def shouldBlockPort (s : PolicySnapshot) (urules : PortTargetV3) (port : UInt16) (proto : UInt8) : Bool :=
  if urules.mode = portPolicyUnrestricted then false
  else if urules.mode = portPolicyDenyAll then true
  else scanRules port proto (s.slice urules)

/-- Whether the port policy refuses a connection of `uid` to a local port. -/
def portBlocked (s : PolicySnapshot) (uid : UInt32) (port : UInt16) (proto : UInt8) : Bool :=
  match vpnhideFindPortTarget (some s) uid with
  | none => false
  | some target => shouldBlockPort s target port proto

/-! ### On a well-formed snapshot -/

def PortRuleV3.covers (r : PortRuleV3) (port : UInt16) (proto : UInt8) : Bool :=
  r.startPort ≤ port && port ≤ r.endPort && (r.protocol == protoBoth || r.protocol == proto)

/-- Stopping early loses nothing when the rules are sorted by start port. -/
theorem scanRules_eq_any {port : UInt16} {proto : UInt8} {rules : List PortRuleV3}
    (h : rules.Pairwise fun a b => a.startPort ≤ b.startPort) :
    scanRules port proto rules = rules.any fun r => r.covers port proto := by
  induction rules with
  | nil => rfl
  | cons r rest ih =>
    obtain ⟨hle, hrest⟩ := List.pairwise_cons.1 h
    have hcov : (port ≥ r.startPort ∧ port ≤ r.endPort ∧ (r.protocol = protoBoth ∨ r.protocol = proto)) ↔
        r.covers port proto = true := by
      simp [PortRuleV3.covers, and_assoc]
    rw [scanRules, List.any_cons, ih hrest]
    by_cases hr : r.covers port proto = true
    · rw [if_pos (hcov.2 hr), hr, Bool.true_or]
    · rw [if_neg (mt hcov.1 hr), eq_false_of_ne_true hr, Bool.false_or]
      split
      · -- every later rule starts past the port too
        rename_i hgt
        symm
        rw [List.any_eq_false]
        intro r' hr' hcov'
        have hstart : r'.startPort ≤ port := by
          simp only [PortRuleV3.covers, Bool.and_eq_true, decide_eq_true_eq] at hcov'
          exact hcov'.1.1
        have := hle r' hr'
        simp only [GT.gt, UInt16.lt_iff_toNat_lt, UInt16.le_iff_toNat_le] at hgt hstart this
        omega
      · rfl

theorem lookupBy_uid (uids : List UInt32) (uid : UInt32) :
    (lookupBy UInt32.toNat uids uid.toNat).isSome ↔ uid ∈ uids := by
  simp [lookupBy, UInt32.toNat_inj]

/-- Membership in a strictly sorted uid list, or non-membership, for eligible uids only. -/
theorem vpnhideUidMatchesMode_iff {uids : List UInt32} (hs : StrictBy UInt32.toNat uids)
    (hlen : uids.length < 2 ^ 30) (mode uid : UInt32) :
    vpnhideUidMatchesMode uids mode uid ↔
      UidEligible uid ∧ if mode = matchExclude then uid ∉ uids else uid ∈ uids := by
  unfold vpnhideUidMatchesMode
  by_cases he : UidEligible uid
  · have hfound := lookupBy_uid uids uid
    rw [searchElem_eq_lookupBy midOffset_ok hs hlen]
    simp only [he, not_true_eq_false, if_false, true_and]
    split
    · rw [Bool.not_eq_true', ← hfound, Bool.not_eq_true]
    · exact hfound
  · simp [he]

theorem vpnhideUidMatchesMode_nil (uid : UInt32) :
    vpnhideUidMatchesMode [] matchExclude uid ↔ UidEligible uid := by
  simpa using vpnhideUidMatchesMode_iff StrictBy.nil (by simp) matchExclude uid

theorem vpnhideUidMatchesMode_ineligible {uid : UInt32} (h : ¬ UidEligible uid) (uids : List UInt32)
    (mode : UInt32) : vpnhideUidMatchesMode uids mode uid = false := by
  simp [vpnhideUidMatchesMode, h]

theorem KeepsPortHooks.and_bit_ne {mask : UInt32} (h : KeepsPortHooks mask) {index : HookIdx}
    (hi : index = .connect ∨ index = .bind) : mask &&& index.bit ≠ 0 := by
  intro h0
  have : mask &&& portHookMask &&& index.bit = 0 := by
    rw [UInt32.and_assoc, UInt32.and_comm portHookMask, ← UInt32.and_assoc, h0, UInt32.zero_and]
  rw [h] at this
  rcases hi with rfl | rfl <;> exact absurd this (by decide)

namespace PolicySnapshot.WF
variable {s : PolicySnapshot}

theorem findPortTarget (h : s.WF) (uid : UInt32) :
    vpnhideFindPortTarget (some s) uid =
      match lookupBy targetKey s.portTargets uid.toNat with
      | some target => some target
      | none => if s.portMatchMode = matchExclude ∧ UidEligible uid then some denyAll else none := by
  simp only [vpnhideFindPortTarget, searchElem_eq_lookupBy midOffset_ok h.targets h.targets_small]
  cases lookupBy targetKey s.portTargets uid.toNat with
  | some t => rfl
  | none => exact if_congr (and_congr_right fun _ => vpnhideUidMatchesMode_nil uid) rfl rfl

theorem shouldBlockPort_eq (h : s.WF) {t : PortTargetV3} (ht : t ∈ s.portTargets) (port : UInt16)
    (proto : UInt8) :
    shouldBlockPort s t port proto =
      if t.mode = portPolicyUnrestricted then false
      else if t.mode = portPolicyDenyAll then true
      else (s.slice t).any fun r => r.covers port proto := by
  rw [shouldBlockPort, scanRules_eq_any (h.slice_sorted t ht)]

theorem portBlocked_eq (h : s.WF) (uid : UInt32) (port : UInt16) (proto : UInt8) :
    portBlocked s uid port proto =
      match lookupBy targetKey s.portTargets uid.toNat with
      | some t =>
        if t.mode = portPolicyUnrestricted then false
        else if t.mode = portPolicyDenyAll then true
        else (s.slice t).any fun r => r.covers port proto
      | none => decide (s.portMatchMode = matchExclude ∧ UidEligible uid) := by
  rw [portBlocked, h.findPortTarget]
  cases hl : lookupBy targetKey s.portTargets uid.toNat with
  | some t => exact h.shouldBlockPort_eq (mem_of_lookupBy hl).1 port proto
  | none =>
    by_cases he : s.portMatchMode = matchExclude ∧ UidEligible uid
    · simp only [if_pos he, decide_eq_true he]
      rfl
    · simp only [if_neg he, decide_eq_false he]

/-- The port hooks are active for every uid: no override can switch them off. -/
theorem isHookActive_port (h : s.WF) {index : HookIdx} (hi : index = .connect ∨ index = .bind)
    (uid : UInt32) : isHookActive (some s) index uid = true := by
  simp only [isHookActive, searchElem_eq_lookupBy midOffset_ok h.masks h.masks_small, ne_eq,
    decide_eq_true_eq]
  cases hl : lookupBy maskKey s.appHookMasks uid.toNat with
  | none => exact h.globalHooks.and_bit_ne hi
  | some m =>
    by_cases hm : m.hasKernelOverride = 0
    · simpa [hm] using h.globalHooks.and_bit_ne hi
    · simpa [hm] using (h.maskHooks m (mem_of_lookupBy hl).1 hm).and_bit_ne hi

end PolicySnapshot.WF

/-! ### On what a payload says -/

namespace PolicyContents
variable {c : PolicyContents}

theorem findPortTarget_install (h : c.Valid) (hsmall : c.Small) (header : PolicyPayloadV3) (uid : UInt32)
    (t : PortTargetV3) :
    vpnhideFindPortTarget (some (c.install header)) uid = some t ↔ t ∈ c.portTargets ∧ t.uid = uid := by
  have hwf : (c.install header).WF := install_wf h hsmall
  have hmode : ¬ ((c.install header).portMatchMode = matchExclude ∧ UidEligible uid) := by
    rintro ⟨hm, -⟩
    exact absurd hm (by decide : (0 : UInt32) ≠ matchExclude)
  have hmem : t ∈ (c.install header).portTargets ↔ t ∈ c.portTargets := mem_sortCmp
  rw [hwf.findPortTarget, if_neg hmode, ← hmem, ← UInt32.toNat_inj]
  rw [← targetKey, ← lookupBy_eq_some hwf.targets.nodup]
  cases lookupBy targetKey (c.install header).portTargets uid.toNat <;> rfl

/-- The early exit is exact on the slice as the payload has it, in any order. -/
theorem InstalledAs.shouldBlockPort_iff {s : PolicySnapshot} (hi : c.InstalledAs s) (h : c.Valid)
    (hwf : s.WF) {t : PortTargetV3} (ht : t ∈ c.portTargets) (port : UInt16) (proto : UInt8) :
    shouldBlockPort s t port proto ↔
      t.mode = portPolicyDenyAll ∨ t.mode = portPolicyRules ∧ ∃ r ∈ c.slice t, r.covers port proto := by
  have hs : t ∈ s.portTargets := hi.targets.mem_iff.2 ht
  have hany : ((s.slice t).any fun r => r.covers port proto) ↔ ∃ r ∈ c.slice t, r.covers port proto := by
    simp only [List.any_eq_true, (hi.slices t hs).mem_iff]
  rw [hwf.shouldBlockPort_eq hs]
  -- a valid target has one of three modes
  rcases (h.targets t ht).mode_cases with hm | hm | hm
  · simp [hm, hany, portPolicyRules, portPolicyUnrestricted, portPolicyDenyAll]
  · simp [hm, portPolicyRules, portPolicyUnrestricted, portPolicyDenyAll]
  · simp [hm, portPolicyRules, portPolicyUnrestricted, portPolicyDenyAll]

end PolicyContents

/-! ### A policy for one app

The modules on the single hooks evaluate their handlers under it. -/

def oneTargetPolicy (hook : HookIdx) (uid : UInt32) : PolicySnapshot where
  activeHooksMask := hook.bit
  javaHooksMask := 0
  debugEnabled := 0
  flags := 0
  kmodMatchMode := matchInclude
  lsposedMatchMode := matchInclude
  portMatchMode := matchInclude
  ifacePrefixes := ⟨0, Vector.replicate _ (Vector.replicate _ 0)⟩
  kmodUids := [uid]
  lsposedUids := []
  portTargets := []
  portRules := []
  appHookMasks := []

end VpnHide
