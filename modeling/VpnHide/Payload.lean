import VpnHide.Legacy

/-!
# Payloads of every ABI version

What the kernel reads from the bytes of a request. Whatever the version, a successful parse has read
valid contents and installed them (`parsePayload_installs`), and the port targets among those contents
are the ones that `wireTargets` reads off the bytes directly.
-/

namespace VpnHide

/-- Which allocations of one call succeed: the copy of the payload, the v3 conversion buffer, the
snapshot and the statistics table. -/
structure AllocOutcomes where
  payload : Bool
  conversion : Bool
  snapshot : Bool
  stats : Bool

/-- The snapshot a payload is parsed into under an ABI version. -/
def parsePayload (alloc : AllocOutcomes) (abiVersion : UInt32) (payload : List UInt8) :
    Except Errno PolicySnapshot :=
  if abiVersion = policyAbiVersionV4 then policySnapshotFromV4 alloc.conversion alloc.snapshot payload
  else if abiVersion = policyAbiVersionV3 then policySnapshotFromV3 alloc.snapshot payload
  else do
    let v3 ← policyV3FromV2 alloc.conversion (PolicyPayload.codec.decode payload)
    policySnapshotFromV3 alloc.snapshot v3

/-- The port targets a payload lists, each with its rules. -/
def wireTargets (abiVersion : UInt32) (payload : List UInt8) : List PortTarget :=
  if abiVersion = policyAbiVersionV4 then
    ((PolicyPayloadV4.codec.decode payload).base.contents payload).targets
  else if abiVersion = policyAbiVersionV3 then
    ((PolicyPayloadV3.codec.decode payload).contents payload).targets
  else (PolicyPayload.codec.decode payload).lists.ports

/-! ### Allocation -/

theorem policySnapshotFromV4_alloc {kvzallocV3 kvzalloc : Bool} {payload : List UInt8} {s : PolicySnapshot}
    (h : policySnapshotFromV4 kvzallocV3 kvzalloc payload = .ok s) :
    kvzallocV3 = true ∧ kvzalloc = true := by
  simp only [policySnapshotFromV4, bind_eq_ok, rejectIf_eq_ok, exists_const] at h
  obtain ⟨-, -, halloc, _, hv3, -⟩ := h
  exact ⟨by simpa using halloc, policySnapshotFromV3_alloc hv3⟩

theorem policyV3FromV2_alloc {kvzalloc : Bool} {payload : PolicyPayload} {v3 : List UInt8}
    (h : policyV3FromV2 kvzalloc payload = .ok v3) : kvzalloc = true := by
  simp only [policyV3FromV2, bind_eq_ok, rejectIf_eq_ok, exists_const] at h
  obtain ⟨-, _, -, halloc, -⟩ := h
  simpa using halloc

/-! ### The size of a converted payload -/

theorem length_usedEntries_le {α : Type} {n : ℕ} (entries : Vector α n) (count : Int32) :
    (usedEntries entries count).length ≤ n := by
  simp [usedEntries]

theorem length_allRules_le {ports : List PortTarget} {n : ℕ} (h : ∀ t ∈ ports, t.rules.length ≤ n) :
    (allRules ports).length ≤ ports.length * n := by
  induction ports with
  | nil => simp [allRules]
  | cons t rest ih =>
    obtain ⟨ht, hrest⟩ := List.forall_mem_cons.1 h
    have := ih hrest
    rw [length_allRules_cons, List.length_cons, Nat.add_mul]
    omega

/-- A v2 payload is too small for any offset of its conversion to wrap. -/
theorem PolicyPayload.totalSize_lt (p : PolicyPayload) : p.lists.totalSize 576 < 2 ^ 32 := by
  have hk : p.lists.kmod.length ≤ 512 := length_usedEntries_le _ _
  have hl : p.lists.lsposed.length ≤ 512 := length_usedEntries_le _ _
  have hp : p.lists.ports.length ≤ 512 := by
    rw [lists, List.length_map]
    exact length_usedEntries_le _ _
  have hm : p.lists.masks.length ≤ 512 := by
    rw [lists, List.length_map]
    exact length_usedEntries_le _ _
  have hr : (allRules p.lists.ports).length ≤ p.lists.ports.length * 16 := by
    refine length_allRules_le fun t ht => ?_
    obtain ⟨source, -, rfl⟩ := List.mem_map.1 ht
    exact length_usedEntries_le _ _
  simp only [PolicyLists.totalSize, PolicyLists.rulesEnd, PolicyLists.targetsEnd, PolicyLists.lsposedEnd,
    PolicyLists.kmodEnd]
  omega

theorem PolicyPayload.contents_v3Bytes (p : PolicyPayload) :
    (PolicyPayloadV3.codec.decode p.v3Bytes).contents p.v3Bytes = p.lists.contents := by
  have hdecode : PolicyPayloadV3.codec.decode p.v3Bytes = p.v3Header := by
    rw [v3Bytes, Codec.decode_encode]
  rw [hdecode]
  exact PolicyLists.contents_withSections _ p.length_v3Header p.totalSize_lt

/-! ### A successful parse -/

theorem PolicyContents.installV4_installedAs {c : PolicyContents} {header : PolicyPayloadV4} (h : c.Valid) :
    c.InstalledAs (c.installV4 header) :=
  have hi : c.InstalledAs (c.install header.base) := install_installedAs h
  ⟨hi.kmod, hi.lsposed, hi.targets, hi.slices, hi.masks⟩

/-- Whatever its ABI version, a payload that parses has valid contents, and the snapshot installs them. -/
theorem parsePayload_installs {alloc : AllocOutcomes} {abiVersion : UInt32} {payload : List UInt8}
    {s : PolicySnapshot} (h : parsePayload alloc abiVersion payload = .ok s) :
    s.WF ∧ ∃ c : PolicyContents, c.Valid ∧ c.InstalledAs s ∧ c.targets = wireTargets abiVersion payload := by
  unfold parsePayload at h
  unfold wireTargets
  split_ifs at h ⊢
  · obtain ⟨hv3, hs⟩ := policySnapshotFromV4_alloc h
    rw [hv3, hs] at h
    have hwf := policySnapshotFromV4_wf h
    obtain ⟨hg, rfl⟩ := policySnapshotFromV4_eq_ok.1 h
    exact ⟨hwf, _, hg.contents, PolicyContents.installV4_installedAs hg.contents, rfl⟩
  · rw [policySnapshotFromV3_alloc h] at h
    have hwf := policySnapshotFromV3_wf h
    obtain ⟨hg, rfl⟩ := policySnapshotFromV3_eq_ok.1 h
    exact ⟨hwf, _, hg.contents, PolicyContents.install_installedAs hg.contents, rfl⟩
  · obtain ⟨v3, hv3, h⟩ := bind_eq_ok.1 h
    rw [policySnapshotFromV3_alloc h] at h
    rw [policyV3FromV2_alloc hv3] at hv3
    obtain ⟨-, rfl⟩ := policyV3FromV2_eq_ok.1 hv3
    have hwf := policySnapshotFromV3_wf h
    obtain ⟨hg, rfl⟩ := policySnapshotFromV3_eq_ok.1 h
    have hvalid := hg.contents
    rw [PolicyPayload.contents_v3Bytes] at hvalid hwf ⊢
    have hrules : (allRules (PolicyPayload.codec.decode payload).lists.ports).length < 2 ^ 32 :=
      (PolicyLists.bounds (PolicyPayload.totalSize_lt _)).2.2.2.2.1
    exact ⟨hwf, _, hvalid, PolicyContents.install_installedAs hvalid, PolicyLists.targets_contents hrules⟩

def PolicySnapshot.Accepted (s : PolicySnapshot) : Prop :=
  ∃ alloc abiVersion payload, parsePayload alloc abiVersion payload = .ok s

theorem PolicySnapshot.Accepted.wf {s : PolicySnapshot} (h : s.Accepted) : s.WF := by
  obtain ⟨_, _, _, hparse⟩ := h
  exact (parsePayload_installs hparse).1

end VpnHide
