import VpnHide.Payload

/-!
# The in-kernel patch (`kpatch/security/vpnhide/core.c`)

The patch carries its own copy of the policy code. It guards section sizes by division and subtraction
where the module uses checked arithmetic, and halves `lo + hi` in one of its searches. Neither shows: the
parsers are equal on all bytes, and on every snapshot they accept the lookups give equal answers without
leaving the range of `int`.
-/

namespace VpnHide

namespace Kpatch

/-- `a - b` on `size_t`. -/
def sizeSub (a b : ℕ) : ℕ := (a + (sizeMax + 1) - b) % (sizeMax + 1)

def policySectionValidate (section_ : PolicySectionV3) (elementSize cursor totalSize : ℕ) :
    Except Errno ℕ := do
  let count := section_.count.toNat
  rejectIf (section_.offset.toNat ≠ cursor ∨ (count ≠ 0 ∧ elementSize > sizeMax / count)) .einval
  let bytes := count * elementSize % (sizeMax + 1)
  rejectIf (bytes > sizeSub totalSize cursor) .einval
  return (cursor + bytes) % (sizeMax + 1)

def policySnapshotFromV3 (kvzalloc : Bool) (payload : List UInt8) : Except Errno PolicySnapshot := do
  let payloadSize := payload.length
  let header := PolicyPayloadV3.codec.decode payload
  rejectIf (payloadSize < PolicyPayloadV3.codec.size ∨ payloadSize > policyMaxBytes ∨
    header.totalSize.toNat ≠ payloadSize ∨ header.ifaceCount.toNat > maxIfacePrefixes) .einval
  let cursor := PolicyPayloadV3.codec.size
  let cursor ← policySectionValidate header.kmodUids Codec.u32.size cursor payloadSize
  let cursor ← policySectionValidate header.lsposedUids Codec.u32.size cursor payloadSize
  let cursor ← policySectionValidate header.portTargets PortTargetV3.codec.size cursor payloadSize
  let cursor ← policySectionValidate header.portRules PortRuleV3.codec.size cursor payloadSize
  let cursor ← policySectionValidate header.appHookMasks AppHookMaskV3.codec.size cursor payloadSize
  rejectIf (cursor ≠ payloadSize) .einval
  rejectIf (payloadSize - PolicyPayloadV3.codec.size > sizeMax - sizeofPolicySnapshot) .eoverflow
  rejectIf (!kvzalloc) .enomem
  let kmodUids := readSection Codec.u32 header.kmodUids payload
  let lsposedUids := readSection Codec.u32 header.lsposedUids payload
  let portTargets := readSection PortTargetV3.codec header.portTargets payload
  let portRules := readSection PortRuleV3.codec header.portRules payload
  let appHookMasks := readSection AppHookMaskV3.codec header.appHookMasks payload
  let (nextRule, portRules) ← validatePortTargets header.portRules.count portTargets 0 portRules
  rejectIf (nextRule ≠ header.portRules.count) .einval
  rejectIf (portRules.any portRuleInvalid) .einval
  let appHookMasks ← validateAppMasks appHookMasks
  let kmodUids := sortCmp policyUidCmp kmodUids
  let lsposedUids := sortCmp policyUidCmp lsposedUids
  let portTargets := sortCmp policyPortTargetCmp portTargets
  let appHookMasks := sortCmp policyAppMaskCmp appHookMasks
  rejectIf (firstIsZero kmodUids || firstIsZero lsposedUids) .einval
  rejectIf (adjacentEq UInt32.toNat kmodUids) .einval
  rejectIf (adjacentEq UInt32.toNat lsposedUids) .einval
  rejectIf (adjacentEq targetKey portTargets) .einval
  rejectIf (adjacentEq maskKey appHookMasks) .einval
  return {
    activeHooksMask := header.activeHooksMask ||| portHookMask
    javaHooksMask := header.javaHooksMask
    debugEnabled := if header.debugEnabled ≠ 0 then 1 else 0
    flags := header.flags
    kmodMatchMode := 0
    lsposedMatchMode := 0
    portMatchMode := 0
    ifacePrefixes := ⟨header.ifaceCount.toInt32, header.ifacePrefixes⟩
    kmodUids, lsposedUids, portTargets, portRules, appHookMasks }

def policySnapshotFromV4 (kvzallocV3 kvzalloc : Bool) (payload : List UInt8) :
    Except Errno PolicySnapshot := do
  let payloadSize := payload.length
  let header := PolicyPayloadV4.codec.decode payload
  rejectIf (payloadSize < PolicyPayloadV4.codec.size ∨ header.totalSize.toNat ≠ payloadSize ∨
    header.reserved ≠ 0 ∨ header.kmodMatchMode > matchExclude ∨
    header.lsposedMatchMode > matchExclude ∨ header.portMatchMode > matchExclude) .einval
  rejectIf (header.kmodUids.offset.toNat < PolicyPayloadV4.codec.size ∨
    header.lsposedUids.offset.toNat < PolicyPayloadV4.codec.size ∨
    header.portTargets.offset.toNat < PolicyPayloadV4.codec.size ∨
    header.portRules.offset.toNat < PolicyPayloadV4.codec.size ∨
    header.appHookMasks.offset.toNat < PolicyPayloadV4.codec.size) .einval
  rejectIf (!kvzallocV3) .enomem
  let snapshot ← policySnapshotFromV3 kvzalloc (v4ToV3 payload)
  return { snapshot with
    kmodMatchMode := header.kmodMatchMode
    lsposedMatchMode := header.lsposedMatchMode
    portMatchMode := header.portMatchMode }

/-- `vpnhide_uid_matches_mode`, whose search halves `lo + hi`. -/
def vpnhideUidMatchesMode (uids : List UInt32) (mode uid : UInt32) : Bool :=
  if ¬ UidEligible uid then false
  else
    let found := if uids.length > 0 then (searchElem midSum UInt32.toNat uids uid.toNat).isSome else false
    if mode = matchExclude then !found else found

def isHookActive (snapshot : Option PolicySnapshot) (index : HookIdx) (uid : UInt32) : Bool :=
  match snapshot with
  | none => false
  | some s =>
    let mask := match searchElem midOffset maskKey s.appHookMasks uid.toNat with
      | some override => if override.hasKernelOverride ≠ 0 then override.kernelMask else s.activeHooksMask
      | none => s.activeHooksMask
    mask &&& index.bit ≠ 0

def isTargetUidVal (snapshot : Option PolicySnapshot) (uid : UInt32) : Bool :=
  match snapshot with
  | none => false
  | some s => vpnhideUidMatchesMode s.kmodUids s.kmodMatchMode uid

def policyUidHasStats (s : PolicySnapshot) (uid : UInt32) : Bool :=
  if vpnhideUidMatchesMode s.kmodUids s.kmodMatchMode uid ||
      vpnhideUidMatchesMode s.lsposedUids s.lsposedMatchMode uid then true
  else match searchElem midOffset targetKey s.portTargets uid.toNat with
    | some target => target.mode ≠ portPolicyUnrestricted
    | none => s.portMatchMode = matchExclude && vpnhideUidMatchesMode [] matchExclude uid

def vpnhideFindPortTarget (snapshot : Option PolicySnapshot) (uid : UInt32) : Option PortTargetV3 :=
  match snapshot with
  | none => none
  | some s => match searchElem midOffset targetKey s.portTargets uid.toNat with
    | some target => some target
    | none =>
      if s.portMatchMode = matchExclude ∧ vpnhideUidMatchesMode [] matchExclude uid then some denyAll
      else none

/-! ### The parsers are equal -/

theorem sizeSub_eq {a b : ℕ} (hab : b ≤ a) (ha : a ≤ sizeMax) : sizeSub a b = a - b := by
  have hcomm : a + (sizeMax + 1) - b = a - b + (sizeMax + 1) := by omega
  rw [sizeSub, hcomm, Nat.add_mod_right, Nat.mod_eq_of_lt (by omega)]

/-- Inside the payload the two section checks agree. -/
theorem policySectionValidate_eq {section_ : PolicySectionV3} {elementSize cursor totalSize : ℕ}
    (hcursor : cursor ≤ totalSize) (htotal : totalSize ≤ sizeMax) :
    policySectionValidate section_ elementSize cursor totalSize =
      VpnHide.policySectionValidate section_ elementSize cursor totalSize := by
  have hdiv (count : ℕ) : (count ≠ 0 ∧ elementSize > sizeMax / count) ↔ sizeMax < count * elementSize := by
    rcases Nat.eq_zero_or_pos count with rfl | hpos
    · simp
    · rw [gt_iff_lt, Nat.div_lt_iff_lt_mul hpos, Nat.mul_comm]
      exact ⟨And.right, fun h => ⟨by omega, h⟩⟩
  unfold policySectionValidate VpnHide.policySectionValidate checkMulOverflow checkAddOverflow
  simp only [hdiv, sizeSub_eq hcursor htotal]
  by_cases hoff : section_.offset.toNat = cursor
  · by_cases hmul : section_.count.toNat * elementSize ≤ sizeMax
    · have hmod : section_.count.toNat * elementSize % (sizeMax + 1) = section_.count.toNat * elementSize :=
        Nat.mod_eq_of_lt (by omega)
      rw [hmod, rejectIf_false _ (by omega), if_neg (not_not.2 hoff), if_pos hmul]
      generalize section_.count.toNat * elementSize = bytes at *
      by_cases hroom : cursor + bytes ≤ totalSize
      · have hsum : (cursor + bytes) % (sizeMax + 1) = cursor + bytes := Nat.mod_eq_of_lt (by omega)
        rw [rejectIf_false _ (by omega), hsum]
        simp only [if_pos (Nat.le_trans hroom htotal), if_neg (not_lt.2 hroom)]
        rfl
      · rw [rejectIf_true _ (by omega)]
        by_cases hadd : cursor + bytes ≤ sizeMax
        · simp only [if_pos hadd, if_pos (not_le.1 hroom)]
          rfl
        · simp only [if_neg hadd]
          rfl
    · rw [rejectIf_true _ (by omega), if_neg (not_not.2 hoff), if_neg hmul]
      rfl
  · rw [rejectIf_true _ (.inl hoff), if_pos hoff]
    rfl

theorem le_of_policySectionValidate {section_ : PolicySectionV3} {elementSize cursor totalSize cursor' : ℕ}
    (h : VpnHide.policySectionValidate section_ elementSize cursor totalSize = .ok cursor') :
    cursor' ≤ totalSize := by
  unfold VpnHide.policySectionValidate at h
  split at h
  · cases h
  split at h
  · cases h
  split at h
  · cases h
  split at h
  · cases h
  · obtain rfl := Except.ok.inj h
    omega

theorem policySnapshotFromV3_eq (kvzalloc : Bool) (payload : List UInt8) :
    policySnapshotFromV3 kvzalloc payload = VpnHide.policySnapshotFromV3 kvzalloc payload := by
  unfold policySnapshotFromV3 VpnHide.policySnapshotFromV3
  refine bind_congr_ok fun _ hhead => ?_
  rw [rejectIf_eq_ok, not_or, not_or] at hhead
  obtain ⟨hge, hle, -⟩ := hhead
  have hsize : payload.length ≤ sizeMax := by
    have : policyMaxBytes < sizeMax := by decide
    omega
  -- the cursor stays inside the payload from section to section
  dsimp only
  rw [policySectionValidate_eq (by omega) hsize]
  refine bind_congr_ok fun c₁ h₁ => ?_
  rw [policySectionValidate_eq (le_of_policySectionValidate h₁) hsize]
  refine bind_congr_ok fun c₂ h₂ => ?_
  rw [policySectionValidate_eq (le_of_policySectionValidate h₂) hsize]
  refine bind_congr_ok fun c₃ h₃ => ?_
  rw [policySectionValidate_eq (le_of_policySectionValidate h₃) hsize]
  refine bind_congr_ok fun c₄ h₄ => ?_
  rw [policySectionValidate_eq (le_of_policySectionValidate h₄) hsize]
  refine bind_congr_ok fun c₅ h₅ => ?_
  refine bind_congr_ok fun _ _ => ?_
  have hoverflow : payload.length - PolicyPayloadV3.codec.size > sizeMax - sizeofPolicySnapshot ↔
      checkAddOverflow sizeofPolicySnapshot (payload.length - PolicyPayloadV3.codec.size) = none := by
    have : sizeofPolicySnapshot ≤ sizeMax := by decide
    rw [checkAddOverflow, ite_eq_right_iff]
    simp only [reduceCtorEq, imp_false, not_le]
    omega
  rw [rejectIf_congr _ hoverflow]

theorem policySnapshotFromV4_eq (kvzallocV3 kvzalloc : Bool) (payload : List UInt8) :
    policySnapshotFromV4 kvzallocV3 kvzalloc payload =
      VpnHide.policySnapshotFromV4 kvzallocV3 kvzalloc payload := by
  unfold policySnapshotFromV4 VpnHide.policySnapshotFromV4
  simp only [policySnapshotFromV3_eq]

/-! ### The lookups are equal -/

theorem vpnhideUidMatchesMode_eq {uids : List UInt32} (hs : StrictBy UInt32.toNat uids)
    (hlen : uids.length < 2 ^ 30) (mode uid : UInt32) :
    vpnhideUidMatchesMode uids mode uid = VpnHide.vpnhideUidMatchesMode uids mode uid := by
  have hfound : (if uids.length > 0 then (searchElem midSum UInt32.toNat uids uid.toNat).isSome else false) =
      (searchElem midOffset UInt32.toNat uids uid.toNat).isSome := by
    rw [searchElem_eq_lookupBy midSum_ok hs hlen, searchElem_eq_lookupBy midOffset_ok hs hlen]
    cases uids with
    | nil => rfl
    | cons u rest => exact if_pos (Nat.succ_pos _)
  simp only [vpnhideUidMatchesMode, VpnHide.vpnhideUidMatchesMode, hfound]

theorem vpnhideUidMatchesMode_nil (mode uid : UInt32) :
    vpnhideUidMatchesMode [] mode uid = VpnHide.vpnhideUidMatchesMode [] mode uid :=
  vpnhideUidMatchesMode_eq StrictBy.nil (by simp) mode uid

theorem policyUidHasStats_eq {s : PolicySnapshot} (h : s.WF) (uid : UInt32) :
    policyUidHasStats s uid = VpnHide.policyUidHasStats s uid := by
  have hkmod := vpnhideUidMatchesMode_eq h.kmod h.kmod_small s.kmodMatchMode uid
  have hlsposed := vpnhideUidMatchesMode_eq h.lsposed h.lsposed_small s.lsposedMatchMode uid
  unfold policyUidHasStats VpnHide.policyUidHasStats
  cases searchElem midOffset targetKey s.portTargets uid.toNat with
  | none => simp only [hkmod, hlsposed, vpnhideUidMatchesMode_nil]
  | some t => simp only [hkmod, hlsposed]

theorem vpnhideFindPortTarget_eq (snapshot : Option PolicySnapshot) (uid : UInt32) :
    vpnhideFindPortTarget snapshot uid = VpnHide.vpnhideFindPortTarget snapshot uid := by
  cases snapshot with
  | none => rfl
  | some s =>
    unfold vpnhideFindPortTarget VpnHide.vpnhideFindPortTarget
    dsimp only
    cases searchElem midOffset targetKey s.portTargets uid.toNat with
    | none => simp only [vpnhideUidMatchesMode_nil]
    | some t => rfl

/-- The searches of both backends for a uid run to their end: no bound, midpoint or index leaves its
range. -/
structure SearchesEnd (s : PolicySnapshot) (uid : UInt32) : Prop where
  kmod : ∀ mid ∈ [midOffset, midSum], (search mid UInt32.toNat s.kmodUids uid.toNat).isSome
  lsposed : ∀ mid ∈ [midOffset, midSum], (search mid UInt32.toNat s.lsposedUids uid.toNat).isSome
  targets : (search midOffset targetKey s.portTargets uid.toNat).isSome
  masks : (search midOffset maskKey s.appHookMasks uid.toNat).isSome

theorem searchesEnd {s : PolicySnapshot} (h : s.WF) (uid : UInt32) : SearchesEnd s uid := by
  have hmid : ∀ mid ∈ [midOffset, midSum], MidOk mid := by
    simp only [List.mem_cons, List.not_mem_nil, or_false, forall_eq_or_imp, forall_eq]
    exact ⟨midOffset_ok, midSum_ok⟩
  exact ⟨fun mid hm => search_isSome (hmid mid hm) h.kmod h.kmod_small _,
    fun mid hm => search_isSome (hmid mid hm) h.lsposed h.lsposed_small _,
    search_isSome midOffset_ok h.targets h.targets_small _,
    search_isSome midOffset_ok h.masks h.masks_small _⟩

/-- The policy cores of the module and of the patch are the same function: the parsers agree on all
bytes, errors included, and every snapshot they accept is read alike, without overflow. -/
theorem policyCore_eq :
    (∀ kvzalloc payload,
      policySnapshotFromV3 kvzalloc payload = VpnHide.policySnapshotFromV3 kvzalloc payload) ∧
    (∀ kvzallocV3 kvzalloc payload, policySnapshotFromV4 kvzallocV3 kvzalloc payload =
      VpnHide.policySnapshotFromV4 kvzallocV3 kvzalloc payload) ∧
    ∀ s : PolicySnapshot, s.Accepted → ∀ uid,
      (∀ mode, ∀ uids ∈ [s.kmodUids, s.lsposedUids, []],
        vpnhideUidMatchesMode uids mode uid = VpnHide.vpnhideUidMatchesMode uids mode uid) ∧
      (∀ index, isHookActive (some s) index uid = VpnHide.isHookActive (some s) index uid) ∧
      policyUidHasStats s uid = VpnHide.policyUidHasStats s uid ∧
      vpnhideFindPortTarget (some s) uid = VpnHide.vpnhideFindPortTarget (some s) uid ∧
      SearchesEnd s uid := by
  refine ⟨policySnapshotFromV3_eq, policySnapshotFromV4_eq, fun s hs uid => ?_⟩
  have hwf := hs.wf
  refine ⟨fun mode => ?_, fun _ => rfl, policyUidHasStats_eq hwf uid, vpnhideFindPortTarget_eq _ uid,
    searchesEnd hwf uid⟩
  simp only [List.mem_cons, List.not_mem_nil, or_false, forall_eq_or_imp, forall_eq]
  exact ⟨vpnhideUidMatchesMode_eq hwf.kmod hwf.kmod_small mode uid,
    vpnhideUidMatchesMode_eq hwf.lsposed hwf.lsposed_small mode uid, vpnhideUidMatchesMode_nil mode uid⟩

theorem policyCore_eq_sample :
    ∃ s, VpnHide.policySnapshotFromV3 true samplePayloadV3 = .ok s ∧
      policySnapshotFromV3 true samplePayloadV3 = .ok s ∧
      vpnhideFindPortTarget (some s) 10123 = VpnHide.vpnhideFindPortTarget (some s) 10123 ∧
      SearchesEnd s 10123 := by
  obtain ⟨hv3, -, hlookups⟩ := policyCore_eq
  have hok : (VpnHide.policySnapshotFromV3 true samplePayloadV3).toBool := by decide +kernel
  rcases hparse : VpnHide.policySnapshotFromV3 true samplePayloadV3 with _ | s
  · rw [hparse] at hok
    cases hok
  · obtain ⟨-, -, -, htarget, hend⟩ :=
      hlookups s ⟨⟨true, true, true, true⟩, policyAbiVersionV3, samplePayloadV3, hparse⟩ 10123
    exact ⟨s, rfl, (hv3 true samplePayloadV3).trans hparse, htarget, hend⟩

end Kpatch

end VpnHide
