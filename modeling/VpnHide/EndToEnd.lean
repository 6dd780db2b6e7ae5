import VpnHide.Load
import VpnHide.Kernel

/-!
# From the configuration to the decision

The whole path: `load` resolves the configuration and packs it, the ioctl parses the payload into a
snapshot and publishes it, the hooks search that snapshot. At the end the kernel decides what the
configuration asks for (`load_enforced`).
-/

namespace VpnHide
open JsonObject TxnM

/-! ### Eligible uids -/

theorem configuredUid_of_le {uid : UInt32} (h : 10000 ≤ uid % 100000) : ConfiguredUid uid := by
  rintro (rfl | hlt)
  · exact absurd h (by decide)
  · exact absurd hlt (UInt32.not_lt.2 h)

theorem uidEligible_of_le {uid : UInt32} (h : 10000 ≤ uid % 100000) : UidEligible uid := by
  rintro (rfl | rfl | hlt)
  · exact absurd h (by decide)
  · exact absurd h (by decide)
  · exact absurd hlt (UInt32.not_lt.2 h)

/-! ### The policy of a load -/

namespace LoadedFrom
variable {root : JsonObject} {a : PolicyInput} {uid : UInt32}

theorem matchMode_eq_exclude (h : LoadedFrom root a) : a.matchMode = matchExclude ↔ readMode root = .allowlist := by
  rw [h.matchMode]
  split <;> rename_i hmode <;> simp [hmode, show matchInclude ≠ matchExclude by decide]

theorem targets_iff (h : LoadedFrom root a) (huid : 10000 ≤ uid % 100000) :
    a.policy.Targets uid ↔ root.WantsTarget uid := by
  have hmem : uid ∈ a.policy.kmod ↔ ∃ app ∈ root.objects "apps", app.HasUid uid ∧ app.Sets "kmod" :=
    (h.kmod.mem uid).trans (and_iff_right (configuredUid_of_le huid))
  have hmode : a.policy.kmodMode = matchExclude ↔ readMode root = .allowlist := h.matchMode_eq_exclude
  rw [Policy.Targets, Policy.Selects, and_iff_right (uidEligible_of_le huid), WantsTarget]
  cases hroot : readMode root with
  | blacklist =>
    rw [if_neg (by rw [hmode, hroot]; nofun)]
    exact hmem
  | allowlist =>
    rw [if_pos (hmode.2 hroot)]
    exact not_congr hmem

theorem blocks_iff (h : LoadedFrom root a) (huid : 10000 ≤ uid % 100000) {port : UInt16} {proto : UInt8}
    (hproto : Transport proto) : a.policy.Blocks uid port proto ↔ root.WantsBlocked uid port proto := by
  have hconf := configuredUid_of_le huid
  have hmode : a.policy.portMode = matchExclude ↔ readMode root = .allowlist := h.matchMode_eq_exclude
  have hports : a.policy.ports uid = (lookupBy PortTarget.key a.ports uid.toNat).map
      fun t => (t.mode, (↑t.rules : Multiset PortRule)) := rfl
  have happ : root.hidingApp uid = (root.objects "apps").find? (HidesFor uid) := rfl
  rw [Policy.Blocks, WantsBlocked, hports, happ]
  cases hfind : (root.objects "apps").find? (HidesFor uid) with
  | none =>
    rw [h.ports.missing uid hconf hfind]
    exact (and_iff_left (uidEligible_of_le huid)).trans hmode
  | some app =>
    obtain ⟨t, ht, hfor⟩ := h.ports.found uid app hconf hfind
    rw [ht]
    exact hfor.blocks hproto

end LoadedFrom

/-! ### The payload of a load -/

theorem packPolicyV4_calloc {calloc : Bool} {a : PolicyInput} {bytes : List UInt8}
    (h : packPolicyV4 calloc a = .ok bytes) : calloc = true := by
  simp only [packPolicyV4, bind_eq_ok, rejectIf_eq_ok, exists_const] at h
  obtain ⟨_, -, -, _, -, _, -, _, -, _, -, _, -, -, hcalloc, -⟩ := h
  simpa using hcalloc

/-- Publishing the request of a load publishes the packed policy. -/
theorem vhSetPolicy_loadRequest {alloc : AllocOutcomes} {capable : Bool} {a : PolicyInput} (hshape : a.Shape)
    (hfit : a.totalSize 592 ≤ policyMaxBytes) {k k' : KernelState}
    (h : exec (vhSetPolicy alloc capable (some (loadRequest a.bytes))) k = (.ok (), k')) :
    ∃ s, k'.policy = some s ∧ s.WF ∧ s.policy = a.policy := by
  obtain ⟨r, payload, s, stats, hread, hparse, -, -, rfl⟩ := vhSetPolicy_eq_ok.1 h
  obtain ⟨-, hr, -, -, hcopy⟩ := readPayload_eq_ok.1 hread
  obtain rfl := Option.some.inj hr
  have hsize : (UInt32.ofNat a.bytes.length).toNat = a.bytes.length :=
    toNat_ofNat_of_lt (a.length_bytes ▸ PolicyInput.lt_of_fit hfit)
  have hpayload : payload = a.bytes := by
    simpa [loadRequest, copyFromUser, hsize] using hcopy.symm
  have hwf := (parsePayload_installs hparse).1
  rw [hpayload, parsePayload, loadRequest, if_pos rfl] at hparse
  obtain ⟨hconv, hsnap⟩ := policySnapshotFromV4_alloc hparse
  rw [hconv, hsnap] at hparse
  obtain ⟨s', hs', hpolicy⟩ := hshape.parse_bytes hfit
  obtain rfl : s = s' := Except.ok.inj (hparse.symm.trans hs')
  exact ⟨s, rfl, hwf, hpolicy⟩

/-- For every in-range configuration that the controller resolves and packs and the kernel publishes, and
every eligible uid, port and protocol: the hooks target the uid exactly if the configuration asks for
it, and the port policy refuses the port exactly if the configuration asks for that. -/
theorem load_enforced (root : JsonObject) (hrange : root.InRange) (grow : ℕ → Except Errno Unit)
    (calloc : Bool) (a : PolicyInput) (bytes : List UInt8) (hload : loadInput grow root = .ok a)
    (hpack : packPolicyV4 calloc a = .ok bytes) (alloc : AllocOutcomes) (capable : Bool) (k k' : KernelState)
    (hpublish : exec (vhSetPolicy alloc capable (some (loadRequest bytes))) k = (.ok (), k'))
    (uid : UInt32) (huid : 10000 ≤ uid % 100000) (port : UInt16) (proto : UInt8) (hproto : Transport proto) :
    ∃ s, k'.policy = some s ∧ (isTargetUidVal (some s) uid ↔ root.WantsTarget uid) ∧
      (portBlocked s uid port proto ↔ root.WantsBlocked uid port proto) := by
  have hloaded := loadInput_ok hrange hload
  rw [packPolicyV4_calloc hpack] at hpack
  obtain ⟨hfit, rfl⟩ := packPolicyV4_eq_ok.1 hpack
  obtain ⟨s, hs, hwf, hpolicy⟩ := vhSetPolicy_loadRequest hloaded.shape hfit hpublish
  refine ⟨s, hs, ?_, ?_⟩
  · rw [hwf.isTargetUidVal_iff, hpolicy]
    exact hloaded.targets_iff huid
  · rw [hwf.portBlocked_iff, hpolicy]
    exact hloaded.blocks_iff huid hproto

/-- A blacklist with one hidden app, which may not reach ports 8000 to 9000. -/
def sampleConfig : JsonObject :=
  [("globalConfig", .object [("listMode", .string "BLACKLIST"), ("kernelHookMask", .number 255)]),
   ("apps", .array [
      .object [("uid", .number 10123), ("packageName", .string "com.example.keep"), ("kmod", .boolean true),
        ("portHiding", .boolean true)],
      .object [("uid", .number 10200), ("kmod", .boolean false), ("kernelHookMask", .number 3)]]),
   ("portRules", .array [
      .object [("packageName", .string "com.example.keep"), ("startPort", .number 8000), ("endPort", .number 9000),
        ("protocol", .string "TCP")]]),
   ("ifacePrefixes", .array [.string "tun"])]

theorem load_enforced_sample :
    ∃ a bytes k' s, loadInput (fun _ => .ok ()) sampleConfig = .ok a ∧ packPolicyV4 true a = .ok bytes ∧
      exec (vhSetPolicy ⟨true, true, true, true⟩ true (some (loadRequest bytes))) .init = (.ok (), k') ∧
      k'.policy = some s ∧ isTargetUidVal (some s) 10123 ∧ portBlocked s 10123 8080 protoTcp := by
  have hrun : (match loadInput (fun _ => .ok ()) sampleConfig with
      | .error _ => false
      | .ok a => match packPolicyV4 true a with
        | .error _ => false
        | .ok bytes =>
          (exec (vhSetPolicy ⟨true, true, true, true⟩ true (some (loadRequest bytes))) .init).1.toBool : Bool) =
      true := by
    decide +kernel
  cases hload : loadInput (fun _ => .ok ()) sampleConfig with
  | error e => simp [hload] at hrun
  | ok a =>
    cases hpack : packPolicyV4 true a with
    | error e => simp [hload, hpack] at hrun
    | ok bytes =>
      simp only [hload, hpack] at hrun
      obtain ⟨k', hk'⟩ := ok_of_toBool _ hrun
      obtain ⟨s, hs, htarget, hblocked⟩ := load_enforced sampleConfig (by decide +kernel) (fun _ => .ok ()) true a
        bytes hload hpack ⟨true, true, true, true⟩ true .init k' hk' 10123 (by decide) 8080 protoTcp (.inl rfl)
      exact ⟨a, bytes, k', s, rfl, hpack, hk', hs, htarget.2 (by decide +kernel), hblocked.2 (by decide +kernel)⟩

end VpnHide
