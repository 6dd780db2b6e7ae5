import VpnHide.Lookup

/-!
# The snapshots the two parsers return

The v4 payload is a v3 payload with a longer header and three match modes. `policySnapshotFromV4`
rewrites the header and hands the rest to the v3 parser; `policySnapshotFromV4_eq_ok` says in terms of
the v4 bytes alone what comes out.
-/

namespace VpnHide

/-! ### v3 -/

theorem policySnapshotFromV3_alloc {kvzalloc : Bool} {payload : List UInt8} {s : PolicySnapshot}
    (h : policySnapshotFromV3 kvzalloc payload = .ok s) : kvzalloc = true := by
  simp only [policySnapshotFromV3, bind_eq_ok, rejectIf_eq_ok, exists_const] at h
  obtain ⟨-, _, -, _, -, _, -, _, -, _, -, -, -, halloc, -⟩ := h
  simpa using halloc

theorem policySnapshotFromV3_wf {payload : List UInt8} {s : PolicySnapshot}
    (h : policySnapshotFromV3 true payload = .ok s) : s.WF := by
  obtain ⟨hg, rfl⟩ := policySnapshotFromV3_eq_ok.1 h
  exact PolicyContents.install_wf hg.contents hg.contents_small

/-- The parser accepts exactly its grammar; what it returns is well formed, says what the payload
says, and keeps the port hooks on for every uid. -/
theorem policySnapshotFromV3_accepts (payload : List UInt8) :
    ((∃ s, policySnapshotFromV3 true payload = .ok s) ↔ V3Grammar payload) ∧
    ∀ s, policySnapshotFromV3 true payload = .ok s →
      s.WF ∧ ((PolicyPayloadV3.codec.decode payload).contents payload).InstalledAs s ∧
      ∀ uid, isHookActive (some s) .connect uid ∧ isHookActive (some s) .bind uid := by
  refine ⟨⟨fun ⟨s, hs⟩ => (policySnapshotFromV3_eq_ok.1 hs).1,
    fun hg => ⟨_, policySnapshotFromV3_eq_ok.2 ⟨hg, rfl⟩⟩⟩, fun s hs => ?_⟩
  have hwf := policySnapshotFromV3_wf hs
  obtain ⟨hg, rfl⟩ := policySnapshotFromV3_eq_ok.1 hs
  exact ⟨hwf, PolicyContents.install_installedAs hg.contents,
    fun uid => ⟨hwf.isHookActive_port (.inl rfl) uid, hwf.isHookActive_port (.inr rfl) uid⟩⟩

/-- A payload with every section in use and two uids out of order. -/
def samplePayloadV3 : List UInt8 :=
  PolicyPayloadV3.codec.encode {
    totalSize := 636, flags := 0, activeHooksMask := 0, javaHooksMask := 0, debugEnabled := 1,
    ifaceCount := 1, ifacePrefixes := Vector.replicate 32 (Vector.replicate 16 0),
    kmodUids := ⟨576, 2⟩, lsposedUids := ⟨584, 1⟩, portTargets := ⟨588, 1⟩, portRules := ⟨604, 2⟩,
    appHookMasks := ⟨620, 1⟩ } ++
  Codec.u32.encodeArray [10200, 10123] ++ Codec.u32.encodeArray [10200] ++
  PortTargetV3.codec.encodeArray [⟨10123, 0, 2, portPolicyRules, Vector.replicate 3 0⟩] ++
  PortRuleV3.codec.encodeArray
    [⟨8000, 9000, protoBoth, Vector.replicate 3 0⟩, ⟨53, 53, protoUdp, Vector.replicate 3 0⟩] ++
  AppHookMaskV3.codec.encodeArray [⟨10123, 0, 0, 1, 0, Vector.replicate 2 0⟩]

theorem policySnapshotFromV3_accepts_sample :
    V3Grammar samplePayloadV3 ∧ ∃ s, policySnapshotFromV3 true samplePayloadV3 = .ok s ∧ s.WF := by
  obtain ⟨hiff, hwf⟩ := policySnapshotFromV3_accepts samplePayloadV3
  have hok : (policySnapshotFromV3 true samplePayloadV3).toBool := by decide +kernel
  rcases hparse : policySnapshotFromV3 true samplePayloadV3 with _ | s
  · rw [hparse] at hok
    cases hok
  · exact ⟨hiff.1 ⟨s, hparse⟩, s, rfl, (hwf s hparse).1⟩

/-- On an accepted payload the scan of the sorted rules decides what the payload's own slice says, for
every target it names and no other uid. -/
theorem shouldBlockPort_of_policySnapshotFromV3 {kvzalloc : Bool} {payload : List UInt8} {s : PolicySnapshot}
    (h : policySnapshotFromV3 kvzalloc payload = .ok s) (uid : UInt32) (t : PortTargetV3) :
    let c := (PolicyPayloadV3.codec.decode payload).contents payload
    (vpnhideFindPortTarget (some s) uid = some t ↔ t ∈ c.portTargets ∧ t.uid = uid) ∧
    (t ∈ c.portTargets → ∀ (port : UInt16) (proto : UInt8), proto = protoTcp ∨ proto = protoUdp →
      (shouldBlockPort s t port proto ↔
        t.mode = portPolicyDenyAll ∨
        t.mode = portPolicyRules ∧ ∃ r ∈ c.slice t,
          r.startPort ≤ port ∧ port ≤ r.endPort ∧ (r.protocol = protoBoth ∨ r.protocol = proto))) := by
  intro c
  obtain rfl := policySnapshotFromV3_alloc h
  have hwf := policySnapshotFromV3_wf h
  obtain ⟨hg, rfl⟩ := policySnapshotFromV3_eq_ok.1 h
  refine ⟨PolicyContents.findPortTarget_install hg.contents hg.contents_small _ uid t, ?_⟩
  intro ht port proto _
  have hi : c.InstalledAs (c.install (PolicyPayloadV3.codec.decode payload)) :=
    PolicyContents.install_installedAs hg.contents
  rw [hi.shouldBlockPort_iff hg.contents hwf ht]
  simp only [PortRuleV3.covers, Bool.and_eq_true, Bool.or_eq_true, decide_eq_true_eq, beq_iff_eq, and_assoc]

/-- The sample's second rule is the one that covers DNS, over UDP only. -/
theorem shouldBlockPort_of_policySnapshotFromV3_sample :
    ∃ s t, policySnapshotFromV3 true samplePayloadV3 = .ok s ∧ vpnhideFindPortTarget (some s) 10123 = some t ∧
      shouldBlockPort s t 53 protoUdp ∧ ¬ shouldBlockPort s t 53 protoTcp := by
  have hok : (policySnapshotFromV3 true samplePayloadV3).toBool := by decide +kernel
  rcases hparse : policySnapshotFromV3 true samplePayloadV3 with _ | s
  · rw [hparse] at hok
    cases hok
  · obtain ⟨hfind, hblock⟩ := shouldBlockPort_of_policySnapshotFromV3 hparse 10123
      ⟨10123, 0, 2, portPolicyRules, Vector.replicate 3 0⟩
    have hmem : ⟨10123, 0, 2, portPolicyRules, Vector.replicate 3 0⟩ ∈
        ((PolicyPayloadV3.codec.decode samplePayloadV3).contents samplePayloadV3).portTargets := by
      decide +kernel
    refine ⟨s, _, rfl, hfind.2 ⟨hmem, rfl⟩, (hblock hmem 53 protoUdp (.inr rfl)).2 ?_,
      mt (hblock hmem 53 protoTcp (.inl rfl)).1 ?_⟩
    · decide +kernel
    · decide +kernel

/-! ### v4 -/

def PolicyPayloadV4.base (h : PolicyPayloadV4) : PolicyPayloadV3 where
  totalSize := h.totalSize
  flags := h.flags
  activeHooksMask := h.activeHooksMask
  javaHooksMask := h.javaHooksMask
  debugEnabled := h.debugEnabled
  ifaceCount := h.ifaceCount
  ifacePrefixes := h.ifacePrefixes
  kmodUids := h.kmodUids
  lsposedUids := h.lsposedUids
  portTargets := h.portTargets
  portRules := h.portRules
  appHookMasks := h.appHookMasks

/-- The snapshot a v4 header and valid contents install. -/
def PolicyContents.installV4 (c : PolicyContents) (h : PolicyPayloadV4) : PolicySnapshot :=
  { c.install h.base with
    kmodMatchMode := h.kmodMatchMode
    lsposedMatchMode := h.lsposedMatchMode
    portMatchMode := h.portMatchMode }

structure V4Grammar (payload : List UInt8) (header : PolicyPayloadV4) : Prop where
  size_ge : 592 ≤ payload.length
  size_le : payload.length ≤ policyMaxBytes + 16
  total : header.totalSize.toNat = payload.length
  reserved : header.reserved = 0
  kmodMode : header.kmodMatchMode ≤ matchExclude
  lsposedMode : header.lsposedMatchMode ≤ matchExclude
  portMode : header.portMatchMode ≤ matchExclude
  ifaces : header.ifaceCount.toNat ≤ maxIfacePrefixes
  sections : Tiles header.base.spans 592 payload.length
  contents : (header.base.contents payload).Valid

def v3HeaderOf (header : PolicyPayloadV4) (payloadSize : ℕ) : PolicyPayloadV3 :=
  { header.base with
    totalSize := UInt32.ofNat (payloadSize - v4Delta)
    kmodUids := v4Section header.kmodUids
    lsposedUids := v4Section header.lsposedUids
    portTargets := v4Section header.portTargets
    portRules := v4Section header.portRules
    appHookMasks := v4Section header.appHookMasks }

theorem v4Delta_eq : v4Delta = 16 := by
  rw [v4Delta, PolicyPayloadV4.codec_size, PolicyPayloadV3.codec_size]

theorem v4ToV3_eq (payload : List UInt8) :
    v4ToV3 payload =
      PolicyPayloadV3.codec.encode (v3HeaderOf (PolicyPayloadV4.codec.decode payload) payload.length) ++
        payload.drop 592 := by
  rw [v4ToV3, PolicyPayloadV4.codec_size]
  rfl

theorem decode_v4ToV3 (payload : List UInt8) :
    PolicyPayloadV3.codec.decode (v4ToV3 payload) =
      v3HeaderOf (PolicyPayloadV4.codec.decode payload) payload.length := by
  rw [v4ToV3_eq, Codec.decode_encode]

theorem length_v4ToV3 {payload : List UInt8} (h : 592 ≤ payload.length) :
    (v4ToV3 payload).length = payload.length - 16 := by
  rw [v4ToV3_eq, List.length_append, Codec.length_encode, List.length_drop, PolicyPayloadV3.codec_size]
  omega

theorem v4Section_offset {section_ : PolicySectionV3} (h : 592 ≤ section_.offset.toNat) :
    (v4Section section_).offset.toNat = section_.offset.toNat - 16 := by
  rw [v4Section, v4Delta_eq]
  exact UInt32.toNat_sub_of_le _ 16 (UInt32.le_iff_toNat_le.2 (Nat.le_trans (by decide) h))

@[simp] theorem v4Section_count (section_ : PolicySectionV3) : (v4Section section_).count = section_.count :=
  rfl

theorem readSection_v4ToV3 {α : Type} (c : Codec α) {section_ : PolicySectionV3} (payload : List UInt8)
    (h : 592 ≤ section_.offset.toNat) :
    readSection c (v4Section section_) (v4ToV3 payload) = readSection c section_ payload := by
  have hdrop : (v4ToV3 payload).drop (section_.offset.toNat - 16) = payload.drop section_.offset.toNat := by
    obtain ⟨k, hk⟩ : ∃ k, section_.offset.toNat = 592 + k := ⟨_, (Nat.add_sub_cancel' h).symm⟩
    have hsum : section_.offset.toNat - 16 = 576 + k := by omega
    rw [v4ToV3_eq, hsum, ← List.drop_drop,
      List.drop_left' ((Codec.length_encode _ _).trans PolicyPayloadV3.codec_size), List.drop_drop, hk]
  rw [readSection, v4Section_offset h, hdrop]
  rfl

/-- Every section starts behind the v4 header. -/
def SectionsPastHeader (h : PolicyPayloadV4) : Prop := ∀ s ∈ h.base.spans, 592 ≤ s.1

theorem sectionsPastHeader_iff {h : PolicyPayloadV4} : SectionsPastHeader h ↔
    592 ≤ h.kmodUids.offset.toNat ∧ 592 ≤ h.lsposedUids.offset.toNat ∧
    592 ≤ h.portTargets.offset.toNat ∧ 592 ≤ h.portRules.offset.toNat ∧
    592 ≤ h.appHookMasks.offset.toNat := by
  simp [SectionsPastHeader, PolicyPayloadV3.spans, PolicySectionV3.span, PolicyPayloadV4.base]

theorem contents_v4ToV3 {payload : List UInt8}
    (h : SectionsPastHeader (PolicyPayloadV4.codec.decode payload)) :
    (v3HeaderOf (PolicyPayloadV4.codec.decode payload) payload.length).contents (v4ToV3 payload) =
      (PolicyPayloadV4.codec.decode payload).base.contents payload := by
  obtain ⟨h₁, h₂, h₃, h₄, h₅⟩ := sectionsPastHeader_iff.1 h
  simp only [PolicyPayloadV3.contents, v3HeaderOf, readSection_v4ToV3 _ _ h₁, readSection_v4ToV3 _ _ h₂,
    readSection_v4ToV3 _ _ h₃, readSection_v4ToV3 _ _ h₄, readSection_v4ToV3 _ _ h₅, PolicyPayloadV4.base]

theorem tiles_v4ToV3 {header : PolicyPayloadV4} {n : ℕ} (h : SectionsPastHeader header) (hn : 592 ≤ n) :
    Tiles (v3HeaderOf header n).spans 576 (n - 16) ↔ Tiles header.base.spans 592 n := by
  obtain ⟨h₁, h₂, h₃, h₄, h₅⟩ := sectionsPastHeader_iff.1 h
  simp only [PolicyPayloadV3.spans, v3HeaderOf, PolicySectionV3.span, v4Section_offset h₁,
    v4Section_offset h₂, v4Section_offset h₃, v4Section_offset h₄, v4Section_offset h₅,
    PolicyPayloadV4.base, v4Section_count, Tiles.cons_iff, Tiles.nil_iff]
  omega

/-- Behind a header that passes the v4 checks, the v3 grammar of the rewritten payload is the v4
grammar of the payload. -/
theorem v3Grammar_v4ToV3 {payload : List UInt8} {header : PolicyPayloadV4}
    (hheader : PolicyPayloadV4.codec.decode payload = header) (hge : 592 ≤ payload.length)
    (htotal : header.totalSize.toNat = payload.length) (hreserved : header.reserved = 0)
    (hk : header.kmodMatchMode ≤ matchExclude) (hl : header.lsposedMatchMode ≤ matchExclude)
    (hp : header.portMatchMode ≤ matchExclude) (hpast : SectionsPastHeader header) :
    V3Grammar (v4ToV3 payload) ↔ V4Grammar payload header := by
  subst hheader
  have hlen := length_v4ToV3 hge
  have htot : (UInt32.ofNat (payload.length - v4Delta)).toNat = payload.length - 16 := by
    have := (PolicyPayloadV4.codec.decode payload).totalSize.toNat_lt
    rw [v4Delta_eq, UInt32.toNat_ofNat_of_lt' (by rw [UInt32.size]; omega)]
  constructor
  · rintro ⟨_, hle, -, hi, hs, hc⟩
    rw [decode_v4ToV3] at hi hs hc
    rw [hlen] at hle hs
    rw [contents_v4ToV3 hpast] at hc
    exact ⟨hge, by omega, htotal, hreserved, hk, hl, hp, hi, (tiles_v4ToV3 hpast hge).1 hs, hc⟩
  · intro h
    refine ⟨by rw [hlen]; omega, by rw [hlen]; have := h.size_le; omega, ?_, ?_, ?_, ?_⟩
    · rw [decode_v4ToV3, hlen]; exact htot
    · rw [decode_v4ToV3]; exact h.ifaces
    · rw [decode_v4ToV3, hlen]; exact (tiles_v4ToV3 hpast hge).2 h.sections
    · rw [decode_v4ToV3, contents_v4ToV3 hpast]; exact h.contents

/-- The v4 parser returns a snapshot exactly on the payloads of its grammar. -/
theorem policySnapshotFromV4_eq_ok {payload : List UInt8} {s : PolicySnapshot} :
    policySnapshotFromV4 true true payload = .ok s ↔
      V4Grammar payload (PolicyPayloadV4.codec.decode payload) ∧
        ((PolicyPayloadV4.codec.decode payload).base.contents payload).installV4
          (PolicyPayloadV4.codec.decode payload) = s := by
  simp only [policySnapshotFromV4, bind_eq_ok, rejectIf_eq_ok, exists_const, pure, Except.pure]
  rw [PolicyPayloadV4.codec_size]
  generalize hheader : PolicyPayloadV4.codec.decode payload = header
  constructor
  · rintro ⟨hhead, hoffs, -, snapshot, hsnap, hs⟩
    simp only [not_or, not_lt, not_not, gt_iff_lt, ne_eq, UInt32.not_lt] at hhead hoffs
    obtain ⟨hge, htotal, hreserved, hk, hl, hp⟩ := hhead
    have hpast : SectionsPastHeader header := sectionsPastHeader_iff.2 hoffs
    obtain ⟨hg, rfl⟩ := policySnapshotFromV3_eq_ok.1 hsnap
    refine ⟨(v3Grammar_v4ToV3 hheader hge htotal hreserved hk hl hp hpast).1 hg, ?_⟩
    subst hheader
    rw [decode_v4ToV3, contents_v4ToV3 hpast] at hs
    exact Except.ok.inj hs
  · rintro ⟨h, rfl⟩
    have hpast : SectionsPastHeader header := fun s hs => (h.sections.mem_bounds hs).1
    have hv3 := (v3Grammar_v4ToV3 hheader h.size_ge h.total h.reserved h.kmodMode h.lsposedMode
      h.portMode hpast).2 h
    refine ⟨?_, ?_, by simp, _, policySnapshotFromV3_eq_ok.2 ⟨hv3, rfl⟩, ?_⟩
    · simp only [not_or, not_lt, not_not, gt_iff_lt, ne_eq, UInt32.not_lt]
      exact ⟨h.size_ge, h.total, h.reserved, h.kmodMode, h.lsposedMode, h.portMode⟩
    · simpa only [not_or, not_lt] using sectionsPastHeader_iff.1 hpast
    · subst hheader
      rw [decode_v4ToV3, contents_v4ToV3 hpast]
      rfl

theorem PolicyContents.installV4_wf {c : PolicyContents} {header : PolicyPayloadV4} (h : c.Valid)
    (hsmall : c.Small) : (c.installV4 header).WF :=
  have h : (c.install header.base).WF := install_wf h hsmall
  ⟨h.kmod, h.lsposed, h.targets, h.masks, h.slice_le, h.slice_sorted, h.globalHooks, h.maskHooks,
    h.kmod_small, h.lsposed_small, h.targets_small, h.masks_small⟩

theorem policySnapshotFromV4_wf {payload : List UInt8} {s : PolicySnapshot}
    (h : policySnapshotFromV4 true true payload = .ok s) : s.WF := by
  obtain ⟨hg, rfl⟩ := policySnapshotFromV4_eq_ok.1 h
  exact PolicyContents.installV4_wf hg.contents
    (PolicyPayloadV3.contents_small hg.sections (Nat.lt_of_le_of_lt hg.size_le (by decide)))

end VpnHide
