import VpnHide.Payload
import VpnHide.OwnedPorts
import VpnHide.StatsTable
import VpnHide.Lib.Transaction

/-!
# Publishing a policy (`VH_SET_POLICY`)

The state a policy publish changes, and the ioctl from the request down to
`publish_policy_snapshot`, one call at a time. All checks and allocations come before the first change
of the state, and no change after it can fail.
-/

namespace VpnHide

structure UdpUidRate where
  uid : UInt32
  lastTimeNs : UInt64
  tokens : UInt32

/-- The kernel state that `VH_SET_POLICY` may change. -/
structure KernelState where
  policy : Option PolicySnapshot
  stats : StatsTable
  pendingPorts : PendingPorts
  ownedPorts : Option OwnedPortsSnapshot
  udpRates : List UdpUidRate
  /-- `vpnhide_config_generation`, the bits of an `atomic_t` -/
  generation : UInt32

def KernelState.init : KernelState where
  policy := none
  stats := ⟨[], 0⟩
  pendingPorts := pendingPortsZero
  ownedPorts := none
  udpRates := []
  generation := 1

abbrev KernelM := TxnM Errno KernelState

open TxnM

/-- `(u64)atomic_read(&vpnhide_config_generation)`: a signed `int`, sign-extended. -/
def generationU64 (generation : UInt32) : UInt64 := generation.toInt32.toInt64.toUInt64

def vpnhideUdpRatesPrune (s : PolicySnapshot) (rates : List UdpUidRate) : List UdpUidRate :=
  rates.filter fun rate => vpnhideUidMatchesMode s.kmodUids s.kmodMatchMode rate.uid

/-- `publish_policy_snapshot`, run without interruption. -/
def publishPolicySnapshot (alloc : AllocOutcomes) (snapshot : PolicySnapshot)
    (expectedGeneration : UInt64) : KernelM Unit := do
  let k ← get
  attempt (rejectIf (expectedGeneration ≠ 0 ∧ expectedGeneration ≠ generationU64 k.generation) .eagain)
  let stats ← attempt (kmodStatsReconcile alloc.stats snapshot k.stats)
  update fun k => { k with stats := stats }
  update fun k => { k with policy := some snapshot }
  update fun k => { k with pendingPorts := pendingPortsZero }
  update fun k => { k with ownedPorts := none }
  update fun k => { k with udpRates := vpnhideUdpRatesPrune snapshot k.udpRates }
  update fun k => { k with generation := k.generation + 1 }

def vpnhideApplyPolicyV3 (alloc : AllocOutcomes) (payload : List UInt8) (expectedGeneration : UInt64) :
    KernelM Unit := do
  let snapshot ← attempt (policySnapshotFromV3 alloc.snapshot payload)
  publishPolicySnapshot alloc snapshot expectedGeneration

def vpnhideApplyPolicyV4 (alloc : AllocOutcomes) (payload : List UInt8) (expectedGeneration : UInt64) :
    KernelM Unit := do
  let snapshot ← attempt (policySnapshotFromV4 alloc.conversion alloc.snapshot payload)
  publishPolicySnapshot alloc snapshot expectedGeneration

def vpnhideApplyPolicy (alloc : AllocOutcomes) (payload : PolicyPayload) (expectedGeneration : UInt64) :
    KernelM Unit := do
  let v3 ← attempt (policyV3FromV2 alloc.conversion payload)
  vpnhideApplyPolicyV3 alloc v3 expectedGeneration

def checkPayloadSize (abiVersion : UInt32) (payloadSize : ℕ) : Except Errno Unit :=
  if abiVersion = policyAbiVersionV2 then rejectIf (payloadSize ≠ PolicyPayload.codec.size) .einval
  else if abiVersion = policyAbiVersionV3 then
    rejectIf (payloadSize < PolicyPayloadV3.codec.size ∨ payloadSize > policyMaxBytes) .einval
  else if abiVersion = policyAbiVersionV4 then
    rejectIf (payloadSize < PolicyPayloadV4.codec.size ∨ payloadSize > policyMaxBytes) .einval
  else .error .eprotonosupport

/-- The part of the ioctl before any policy code: the payload copied from user space. `request` is `none`
when the request structure itself cannot be copied. -/
def readPayload (alloc : AllocOutcomes) (capable : Bool) (request : Option PolicyIoctl) :
    Except Errno (PolicyIoctl × List UInt8) := do
  rejectIf (!capable) .eperm
  match request with
  | none => .error .efault
  | some request =>
    match request.payloadPtr with
    | .null => .error .einval
    | .mapped mem =>
      checkPayloadSize request.abiVersion request.payloadSize.toNat
      rejectIf (!alloc.payload) .enomem
      match copyFromUser (.mapped mem) request.payloadSize.toNat with
      | none => .error .efault
      | some payload => .ok (request, payload)

/-- The `VH_SET_POLICY` case of `handle_vpnhide_ioctl`. -/
def vhSetPolicy (alloc : AllocOutcomes) (capable : Bool) (request : Option PolicyIoctl) : KernelM Unit := do
  let (request, payload) ← attempt (readPayload alloc capable request)
  if request.abiVersion = policyAbiVersionV4 then
    vpnhideApplyPolicyV4 alloc payload request.expectedGeneration
  else if request.abiVersion = policyAbiVersionV3 then
    vpnhideApplyPolicyV3 alloc payload request.expectedGeneration
  else vpnhideApplyPolicy alloc (PolicyPayload.codec.decode payload) request.expectedGeneration

/-! ### Atomicity -/

/-- All checks precede the first change, and no change fails. -/
theorem publishPolicySnapshot_atomic (alloc : AllocOutcomes) (snapshot : PolicySnapshot) (expected : UInt64) :
    Atomic (publishPolicySnapshot alloc snapshot expected) := by
  refine Atomic.readOnly_bind readOnly_get fun k => ?_
  refine Atomic.readOnly_bind (readOnly_attempt _) fun _ => ?_
  refine Atomic.readOnly_bind (readOnly_attempt _) fun stats => Total.atomic ?_
  exact (total_update _).bind fun _ => (total_update _).bind fun _ => (total_update _).bind fun _ =>
    (total_update _).bind fun _ => (total_update _).bind fun _ => total_update _

theorem vhSetPolicy_atomic (alloc : AllocOutcomes) (capable : Bool) (request : Option PolicyIoctl) :
    Atomic (vhSetPolicy alloc capable request) := by
  refine Atomic.readOnly_bind (readOnly_attempt _) fun ⟨request, payload⟩ => ?_
  dsimp only
  split
  · exact Atomic.readOnly_bind (readOnly_attempt _) fun _ => publishPolicySnapshot_atomic _ _ _
  split
  · exact Atomic.readOnly_bind (readOnly_attempt _) fun _ => publishPolicySnapshot_atomic _ _ _
  · exact Atomic.readOnly_bind (readOnly_attempt _) fun _ =>
      Atomic.readOnly_bind (readOnly_attempt _) fun _ => publishPolicySnapshot_atomic _ _ _

/-! ### Success -/

def KernelState.publish (k : KernelState) (s : PolicySnapshot) (stats : StatsTable) : KernelState where
  policy := some s
  stats := stats
  pendingPorts := pendingPortsZero
  ownedPorts := none
  udpRates := vpnhideUdpRatesPrune s k.udpRates
  generation := k.generation + 1

/-- Everything a publish does: the generation check, the reconciliation, the new state. -/
theorem exec_publishPolicySnapshot (alloc : AllocOutcomes) (s : PolicySnapshot) (expected : UInt64)
    (k : KernelState) :
    exec (publishPolicySnapshot alloc s expected) k =
      if expected ≠ 0 ∧ expected ≠ generationU64 k.generation then (.error .eagain, k)
      else match kmodStatsReconcile alloc.stats s k.stats with
        | .error e => (.error e, k)
        | .ok stats => (.ok (), k.publish s stats) := by
  by_cases hgen : expected ≠ 0 ∧ expected ≠ generationU64 k.generation
  · rw [if_pos hgen, publishPolicySnapshot, exec_get_bind, exec_bind, exec_attempt, rejectIf_true _ hgen]
  · rw [if_neg hgen, publishPolicySnapshot, exec_get_bind, exec_bind, exec_attempt, rejectIf_false _ hgen]
    dsimp only
    rw [exec_bind, exec_attempt]
    cases kmodStatsReconcile alloc.stats s k.stats <;> rfl

theorem publishPolicySnapshot_eq_ok {alloc : AllocOutcomes} {s : PolicySnapshot} {expected : UInt64}
    {k k' : KernelState} :
    exec (publishPolicySnapshot alloc s expected) k = (.ok (), k') ↔
      (expected = 0 ∨ expected = generationU64 k.generation) ∧
      ∃ stats, kmodStatsReconcile alloc.stats s k.stats = .ok stats ∧ k.publish s stats = k' := by
  have hcheck : ¬ (expected ≠ 0 ∧ expected ≠ generationU64 k.generation) ↔
      expected = 0 ∨ expected = generationU64 k.generation := by
    rw [not_and_or, not_not, not_not]
  rw [exec_publishPolicySnapshot, ← hcheck]
  by_cases hgen : expected ≠ 0 ∧ expected ≠ generationU64 k.generation
  · simp [hgen]
  · rw [if_neg hgen]
    cases kmodStatsReconcile alloc.stats s k.stats <;> simp [hgen]

theorem readPayload_eq_ok {alloc : AllocOutcomes} {capable : Bool} {request : Option PolicyIoctl}
    {r : PolicyIoctl} {payload : List UInt8} :
    readPayload alloc capable request = .ok (r, payload) ↔
      capable = true ∧ request = some r ∧ alloc.payload = true ∧
      checkPayloadSize r.abiVersion r.payloadSize.toNat = .ok () ∧
      copyFromUser r.payloadPtr r.payloadSize.toNat = some payload := by
  unfold readPayload
  simp only [bind_eq_ok, rejectIf_eq_ok, exists_const, Bool.not_eq_true', Bool.not_eq_false]
  refine and_congr_right fun _ => ?_
  rcases request with _ | ⟨abiVersion, size, _ | mem, expected⟩
  · simp
  · refine ⟨fun h => (by cases h), ?_⟩
    rintro ⟨hr, -, -, hcopy⟩
    obtain rfl := Option.some.inj hr
    simp [copyFromUser] at hcopy
  · simp only [bind_eq_ok, rejectIf_eq_ok, exists_const, Bool.not_eq_false, Option.some.injEq]
    cases hcopy : copyFromUser (.mapped mem) size.toNat <;> aesop

theorem vhSetPolicy_eq_ok {alloc : AllocOutcomes} {capable : Bool} {request : Option PolicyIoctl}
    {k k' : KernelState} :
    exec (vhSetPolicy alloc capable request) k = (.ok (), k') ↔
      ∃ r payload s stats, readPayload alloc capable request = .ok (r, payload) ∧
        parsePayload alloc r.abiVersion payload = .ok s ∧
        (r.expectedGeneration = 0 ∨ r.expectedGeneration = generationU64 k.generation) ∧
        kmodStatsReconcile alloc.stats s k.stats = .ok stats ∧ k.publish s stats = k' := by
  simp only [vhSetPolicy, exec_attempt_bind_eq_ok, Prod.exists]
  refine exists_congr fun r => exists_congr fun payload => ?_
  simp only [exists_and_left]
  refine and_congr_right fun _ => ?_
  unfold parsePayload
  split_ifs
  · simp only [vpnhideApplyPolicyV4, exec_attempt_bind_eq_ok, publishPolicySnapshot_eq_ok]
  · simp only [vpnhideApplyPolicyV3, exec_attempt_bind_eq_ok, publishPolicySnapshot_eq_ok]
  · simp only [vpnhideApplyPolicy, vpnhideApplyPolicyV3, exec_attempt_bind_eq_ok, bind_eq_ok,
      publishPolicySnapshot_eq_ok]
    constructor
    · rintro ⟨v, hv, s, hs, h⟩
      exact ⟨s, ⟨v, hv, hs⟩, h⟩
    · rintro ⟨s, ⟨v, hv, hs⟩, h⟩
      exact ⟨v, hv, s, hs, h⟩

/-- `VH_SET_POLICY` is all or nothing, whatever the state, the request and the allocations: a call that
fails leaves every piece of state as it was; a call that returns 0 has parsed its payload, published that
snapshot with the statistics reconciled to it, emptied both port tables and moved the generation by one. -/
theorem vhSetPolicy_all_or_nothing (alloc : AllocOutcomes) (capable : Bool) (request : Option PolicyIoctl)
    (k k' : KernelState) (result : Except Errno Unit)
    (h : exec (vhSetPolicy alloc capable request) k = (result, k')) :
    (result ≠ .ok () → k' = k) ∧
    (result = .ok () → ∃ r payload s stats, request = some r ∧
      copyFromUser r.payloadPtr r.payloadSize.toNat = some payload ∧
      parsePayload alloc r.abiVersion payload = .ok s ∧
      kmodStatsReconcile alloc.stats s k.stats = .ok stats ∧
      k'.policy = some s ∧ k'.stats = stats ∧ k'.pendingPorts = pendingPortsZero ∧ k'.ownedPorts = none ∧
      k'.udpRates = vpnhideUdpRatesPrune s k.udpRates ∧ k'.generation = k.generation + 1) := by
  refine ⟨fun hne => ?_, ?_⟩
  · rcases result with e | _
    · have hatomic := vhSetPolicy_atomic alloc capable request k e
      rw [h] at hatomic
      exact hatomic rfl
    · exact absurd rfl hne
  · rintro rfl
    obtain ⟨r, payload, s, stats, hread, hparse, -, hstats, rfl⟩ := vhSetPolicy_eq_ok.mp h
    obtain ⟨-, hr, -, -, hcopy⟩ := readPayload_eq_ok.mp hread
    exact ⟨r, payload, s, stats, hr, hcopy, hparse, hstats, rfl, rfl, rfl, rfl, rfl, rfl⟩

def sampleRequest : PolicyIoctl :=
  ⟨policyAbiVersionV3, UInt32.ofNat samplePayloadV3.length, .mapped samplePayloadV3, 1⟩

theorem vhSetPolicy_all_or_nothing_sample :
    (∃ k', exec (vhSetPolicy ⟨true, true, true, true⟩ true (some sampleRequest)) .init = (.ok (), k') ∧
      k'.policy.isSome ∧ k'.generation = 2) ∧
    ∃ e k', exec (vhSetPolicy ⟨true, true, true, false⟩ true (some sampleRequest)) .init = (.error e, k') ∧
      k' = .init := by
  constructor
  · obtain ⟨k', hrun⟩ := ok_of_toBool
      (exec (vhSetPolicy ⟨true, true, true, true⟩ true (some sampleRequest)) .init) (by decide +kernel)
    obtain ⟨-, h⟩ := vhSetPolicy_all_or_nothing _ _ _ _ _ _ hrun
    obtain ⟨_, _, s, _, -, -, -, -, hs, -, -, -, -, hgen⟩ := h rfl
    exact ⟨k', hrun, by rw [hs]; rfl, hgen⟩
  · have herr : ¬ (exec (vhSetPolicy ⟨true, true, true, false⟩ true (some sampleRequest)) .init).1.toBool := by
      decide +kernel
    rcases hrun : exec (vhSetPolicy ⟨true, true, true, false⟩ true (some sampleRequest)) .init with ⟨e | _, k'⟩
    · exact ⟨e, k', rfl, (vhSetPolicy_all_or_nothing _ _ _ _ _ _ hrun).1 (by simp)⟩
    · rw [hrun] at herr
      exact absurd rfl herr

end VpnHide
