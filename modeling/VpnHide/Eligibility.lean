import VpnHide.Kernel

/-!
# Eligibility of uids

Root, `system` and every uid with an app id below 10000 are outside any policy. The hook targets respect
that whatever the lists say: `vpnhide_uid_matches_mode` tests the uid first. `vpnhide_find_port_target`
tests it only behind its search, for the synthetic deny-all target, and the parsers test the uids of port
targets against zero only. An explicit target of an ineligible uid is therefore found and enforced;
`vhSetPolicy_ineligible_iff` says which payloads do no harm.
-/

namespace VpnHide
open TxnM

/-! ### Port targets one by one -/

/-- Nothing to refuse: no restriction, or rules without a rule. -/
def PortTarget.Inert (t : PortTarget) : Prop :=
  t.mode = portPolicyUnrestricted ∨ t.mode = portPolicyRules ∧ t.rules = []

theorem eq_of_le_two {b : UInt8} (h : b ≤ 2) : b = 0 ∨ b = 1 ∨ b = 2 := by
  simp only [UInt8.le_iff_toNat_le, ← UInt8.toNat_inj, UInt8.toNat_ofNat] at h ⊢
  omega

theorem PortRule.exists_covers {r : PortRule} (hports : r.startPort ≤ r.endPort)
    (hproto : r.protocol ≤ protoBoth) :
    ∃ proto, (proto = protoTcp ∨ proto = protoUdp) ∧ r.Covers r.startPort proto := by
  have hself : r.startPort ≤ r.startPort := UInt16.le_refl _
  rcases eq_of_le_two hproto with h | h | h
  · exact ⟨protoTcp, .inl rfl, hself, hports, .inr h⟩
  · exact ⟨protoUdp, .inr rfl, hself, hports, .inr h⟩
  · exact ⟨protoTcp, .inl rfl, hself, hports, .inl h⟩

/-- A valid target that refuses nothing has nothing to refuse. -/
theorem PortTarget.Valid.inert_iff {t : PortTarget} (h : t.Valid) :
    t.Inert ↔ ∀ port proto, (proto = protoTcp ∨ proto = protoUdp) → ¬ t.Blocks port proto := by
  constructor
  · rintro (hmode | ⟨hmode, hrules⟩) port proto - ⟨hne, hblock⟩
    · exact hne hmode
    · rcases hblock with hdeny | ⟨r, hr, -⟩
      · rw [hmode] at hdeny
        exact absurd hdeny (by decide)
      · simp [hrules] at hr
  · intro hnever
    rcases eq_of_le_two h.mode with hmode | hmode | hmode
    · refine .inr ⟨hmode, List.eq_nil_iff_forall_not_mem.2 fun r hr => ?_⟩
      obtain ⟨hports, hproto⟩ := h.rules r hr
      obtain ⟨proto, hp, hcovers⟩ := PortRule.exists_covers hports hproto
      exact hnever r.startPort proto hp ⟨by rw [hmode]; decide, .inr ⟨r, hr, hcovers⟩⟩
    · exact .inl hmode
    · exact absurd ⟨by rw [hmode]; decide, .inl hmode⟩ (hnever 0 protoTcp (.inl rfl))

/-! ### In a snapshot -/

namespace PolicyContents
variable {c : PolicyContents} {s : PolicySnapshot} {uid : UInt32}

theorem Valid.targets_valid (h : c.Valid) : ∀ t ∈ c.targets, t.Valid := by
  intro t ht
  obtain ⟨t', ht', rfl⟩ := List.mem_map.1 ht
  refine ⟨(h.targets t' ht').mode_le, fun r hr => ?_⟩
  obtain ⟨r', hr', rfl⟩ := List.mem_map.1 hr
  have hvalid := h.rules r' (mem_of_mem_slice hr')
  exact ⟨hvalid.start_le, hvalid.protocol_le⟩

theorem Valid.nodup_targets (h : c.Valid) : (c.targets.map PortTarget.key).Nodup := by
  rw [PolicyContents.targets, List.map_map]
  exact nodup_map_targetKey.2 h.targets_nodup

/-- Without the synthetic target, a connection is refused exactly by an explicit target. -/
theorem InstalledAs.blocks_iff (hi : c.InstalledAs s) (h : c.Valid) (huid : ¬ UidEligible uid)
    (port : UInt16) (proto : UInt8) :
    s.policy.Blocks uid port proto ↔ ∃ t ∈ c.targets, t.uid = uid ∧ t.Blocks port proto := by
  have hports : s.policy.ports uid = (lookupBy PortTarget.key c.targets uid.toNat).map
      fun t => (t.mode, (↑t.rules : Multiset PortRule)) := (hi.ports h uid).trans (c.ports_targets uid)
  have hkey (t : PortTarget) : t.key = uid.toNat ↔ t.uid = uid := UInt32.toNat_inj
  rw [Policy.Blocks, hports]
  cases hl : lookupBy PortTarget.key c.targets uid.toNat with
  | none =>
    rw [lookupBy_eq_none] at hl
    simp only [Option.map_none, huid, and_false, false_iff, not_exists, not_and]
    exact fun t ht htuid => absurd ((hkey t).2 htuid) (hl t ht)
  | some t =>
    rw [lookupBy_eq_some h.nodup_targets] at hl
    simp only [Option.map_some, Multiset.mem_coe]
    constructor
    · exact fun hblock => ⟨t, hl.1, (hkey t).1 hl.2, hblock⟩
    · rintro ⟨t', ht', htuid, hblock⟩
      have heq : t' = t := Option.some.inj <| ((lookupBy_eq_some h.nodup_targets).2
        ⟨ht', (hkey t').2 htuid⟩).symm.trans ((lookupBy_eq_some h.nodup_targets).2 hl)
      rw [← heq]
      exact hblock

end PolicyContents

/-! ### After a publish -/

/-- For an ineligible uid, a published payload keeps the hooks and the port policy away from it exactly
when every port target the payload lists for the uid is inert. -/
theorem vhSetPolicy_ineligible_iff (alloc : AllocOutcomes) (capable : Bool) (r : PolicyIoctl)
    (payload : List UInt8) (k k' : KernelState)
    (hcopy : copyFromUser r.payloadPtr r.payloadSize.toNat = some payload)
    (hok : exec (vhSetPolicy alloc capable (some r)) k = (.ok (), k'))
    (uid : UInt32) (huid : uid = 0 ∨ uid = 1000 ∨ uid % 100000 < 10000) :
    ∃ s, k'.policy = some s ∧
      ((isTargetUidVal (some s) uid = false ∧
          ∀ port proto, (proto = protoTcp ∨ proto = protoUdp) → portBlocked s uid port proto = false) ↔
        ∀ t ∈ wireTargets r.abiVersion payload, t.uid = uid → t.Inert) := by
  obtain ⟨r', payload', s, stats, hread, hparse, -, -, rfl⟩ := vhSetPolicy_eq_ok.1 hok
  obtain ⟨-, hr, -, -, hcopy'⟩ := readPayload_eq_ok.1 hread
  obtain rfl := Option.some.inj hr
  obtain rfl := Option.some.inj (hcopy.symm.trans hcopy')
  obtain ⟨hwf, c, hvalid, hi, htargets⟩ := parsePayload_installs hparse
  have hne : ¬ UidEligible uid := not_not.2 huid
  have hhooks : isTargetUidVal (some s) uid = false := vpnhideUidMatchesMode_ineligible hne _ _
  refine ⟨s, rfl, ?_⟩
  rw [← htargets, eq_true hhooks, true_and]
  have hblocked (port : UInt16) (proto : UInt8) : portBlocked s uid port proto = false ↔
      ∀ t ∈ c.targets, t.uid = uid → ¬ t.Blocks port proto := by
    rw [← Bool.not_eq_true, hwf.portBlocked_iff, hi.blocks_iff hvalid hne]
    simp only [not_exists, not_and]
  simp only [hblocked]
  constructor
  · exact fun h t ht htuid => (hvalid.targets_valid t ht).inert_iff.2 fun port proto hp =>
      h port proto hp t ht htuid
  · exact fun h port proto hp t ht htuid =>
      (hvalid.targets_valid t ht).inert_iff.1 (h t ht htuid) port proto hp

theorem vhSetPolicy_ineligible_sample :
    ∃ k' s, exec (vhSetPolicy ⟨true, true, true, true⟩ true (some sampleRequest)) .init = (.ok (), k') ∧
      k'.policy = some s ∧ isTargetUidVal (some s) 1000 = false ∧ portBlocked s 1000 53 protoUdp = false := by
  obtain ⟨k', hrun⟩ := ok_of_toBool
    (exec (vhSetPolicy ⟨true, true, true, true⟩ true (some sampleRequest)) .init) (by decide +kernel)
  obtain ⟨s, hs, hiff⟩ := vhSetPolicy_ineligible_iff _ _ sampleRequest samplePayloadV3 _ _
    (by decide +kernel) hrun 1000 (by decide)
  have hnone : ∀ t ∈ wireTargets sampleRequest.abiVersion samplePayloadV3, t.uid ≠ 1000 := by decide +kernel
  obtain ⟨htarget, hports⟩ := hiff.2 fun t ht htuid => absurd htuid (hnone t ht)
  exact ⟨k', s, hrun, hs, htarget, hports 53 protoUdp (.inr rfl)⟩

/-- A v3 payload that denies every local port to `system`. -/
def systemPayload : List UInt8 :=
  PolicyPayloadV3.codec.encode {
    totalSize := 592, flags := 0, activeHooksMask := 0, javaHooksMask := 0, debugEnabled := 0,
    ifaceCount := 0, ifacePrefixes := Vector.replicate 32 (Vector.replicate 16 0),
    kmodUids := ⟨576, 0⟩, lsposedUids := ⟨576, 0⟩, portTargets := ⟨576, 1⟩, portRules := ⟨592, 0⟩,
    appHookMasks := ⟨592, 0⟩ } ++
  PortTargetV3.codec.encodeArray [⟨1000, 0, 0, portPolicyDenyAll, Vector.replicate 3 0⟩]

def systemRequest : PolicyIoctl := ⟨policyAbiVersionV3, 592, .mapped systemPayload, 0⟩

/-- The kernel publishes it, and `system` is cut off. -/
theorem vhSetPolicy_blocks_system :
    ¬ UidEligible 1000 ∧
    ∃ k' s, exec (vhSetPolicy ⟨true, true, true, true⟩ true (some systemRequest)) .init = (.ok (), k') ∧
      k'.policy = some s ∧ portBlocked s 1000 5555 protoTcp = true := by
  refine ⟨by decide, ?_⟩
  obtain ⟨k', hrun⟩ := ok_of_toBool
    (exec (vhSetPolicy ⟨true, true, true, true⟩ true (some systemRequest)) .init) (by decide +kernel)
  have hblocked : (exec (vhSetPolicy ⟨true, true, true, true⟩ true (some systemRequest)) .init).2.policy.any
      (fun s => portBlocked s 1000 5555 protoTcp) = true := by decide +kernel
  rw [hrun] at hblocked
  obtain ⟨s, hs, hb⟩ := (Option.any_eq_true _ _).1 hblocked
  exact ⟨k', s, hrun, hs, hb⟩

end VpnHide
