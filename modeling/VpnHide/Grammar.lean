import VpnHide.Snapshot
import VpnHide.Lib.Tiles

/-!
# What the v3 parser accepts

`PolicyContents` is a policy payload read as five lists, `PolicyContents.Valid` the conditions on
them and `V3Grammar` those on the whole payload. `policySnapshotFromV3_eq_ok` is the one fact about
the parser that everything else uses: it returns a snapshot exactly on the payloads of the grammar,
and the snapshot is `PolicyContents.install` of the header and the five lists.
-/

namespace VpnHide

/-! ### The comparisons order by a key -/

theorem cmpU32_le_zero (a b : UInt32) : cmpU32 a b ≤ 0 ↔ a.toNat ≤ b.toNat := by
  simp only [cmpU32, GT.gt, UInt32.lt_iff_toNat_lt]
  split <;> split <;> omega

theorem cmpKey_uid : CmpKey policyUidCmp UInt32.toNat := cmpU32_le_zero

theorem cmpKey_target : CmpKey policyPortTargetCmp targetKey := fun a b => cmpU32_le_zero a.uid b.uid

theorem cmpKey_mask : CmpKey policyAppMaskCmp maskKey := fun a b => cmpU32_le_zero a.uid b.uid

/-- Rules are ordered by start port, then end port, then protocol. -/
def ruleKey (r : PortRuleV3) : ℕ :=
  r.startPort.toNat * 2 ^ 24 + r.endPort.toNat * 2 ^ 8 + r.protocol.toNat

theorem cmpKey_rule : CmpKey policyPortRuleCmp ruleKey := by
  intro a b
  have ha₁ := a.endPort.toNat_lt
  have hb₁ := b.endPort.toNat_lt
  have ha₂ := a.protocol.toNat_lt
  have hb₂ := b.protocol.toNat_lt
  simp only [policyPortRuleCmp, ruleKey, ne_eq, ← UInt16.toNat_inj]
  split
  · omega
  · split <;> omega

/-! ### Well-formed records -/

/-- A reserved field holds zeros only. -/
def Zeroed {n : ℕ} (v : Vector UInt8 n) : Prop := ∀ b ∈ v.toList, b = 0

theorem reservedSet_eq_false {n : ℕ} {v : Vector UInt8 n} : reservedSet v = false ↔ Zeroed v := by
  simp only [reservedSet, Zeroed, List.any_eq_false, decide_eq_true_eq, not_not]

structure PortTargetV3.Valid (t : PortTargetV3) : Prop where
  uid_ne : t.uid ≠ 0
  mode_le : t.mode ≤ portPolicyDenyAll
  reserved : Zeroed t.reserved

theorem PortTargetV3.Valid.mode_cases {t : PortTargetV3} (h : t.Valid) :
    t.mode = portPolicyRules ∨ t.mode = portPolicyUnrestricted ∨ t.mode = portPolicyDenyAll := by
  have hle := UInt8.le_iff_toNat_le.1 h.mode_le
  have h2 : portPolicyDenyAll.toNat = 2 := rfl
  simp only [← UInt8.toNat_inj]
  have h0 : portPolicyRules.toNat = 0 := rfl
  have h1 : portPolicyUnrestricted.toNat = 1 := rfl
  omega

structure PortRuleV3.Valid (r : PortRuleV3) : Prop where
  start_le : r.startPort ≤ r.endPort
  protocol_le : r.protocol ≤ protoBoth
  reserved : Zeroed r.reserved

structure AppHookMaskV3.Valid (m : AppHookMaskV3) : Prop where
  uid_ne : m.uid ≠ 0
  kernel_le : m.hasKernelOverride ≤ 1
  java_le : m.hasJavaOverride ≤ 1
  reserved : Zeroed m.reserved

theorem portRuleInvalid_eq_false {r : PortRuleV3} : portRuleInvalid r = false ↔ r.Valid := by
  simp only [portRuleInvalid, Bool.or_eq_false_iff, decide_eq_false_iff_not, reservedSet_eq_false,
    gt_iff_lt, UInt16.not_lt, UInt8.not_lt]
  exact ⟨fun ⟨⟨h₁, h₂⟩, h₃⟩ => ⟨h₁, h₂, h₃⟩, fun ⟨h₁, h₂, h₃⟩ => ⟨⟨h₁, h₂⟩, h₃⟩⟩

theorem appMaskInvalid_eq_false {m : AppHookMaskV3} : appMaskInvalid m = false ↔ m.Valid := by
  simp only [appMaskInvalid, Bool.or_eq_false_iff, decide_eq_false_iff_not, reservedSet_eq_false,
    gt_iff_lt, UInt8.not_lt, beq_eq_false_iff_ne]
  exact ⟨fun ⟨⟨⟨h₁, h₂⟩, h₃⟩, h₄⟩ => ⟨h₁, h₂, h₃, h₄⟩, fun ⟨h₁, h₂, h₃, h₄⟩ => ⟨⟨⟨h₁, h₂⟩, h₃⟩, h₄⟩⟩

/-! ### The grammar -/

/-- The rule slice a target owns. -/
def PortTargetV3.span (t : PortTargetV3) : ℕ × ℕ := (t.firstRule.toNat, t.ruleCount.toNat)

def PolicySectionV3.span (s : PolicySectionV3) (elementSize : ℕ) : ℕ × ℕ :=
  (s.offset.toNat, s.count.toNat * elementSize)

/-- The five lists of a policy payload, in payload order. -/
structure PolicyContents where
  kmodUids : List UInt32
  lsposedUids : List UInt32
  portTargets : List PortTargetV3
  portRules : List PortRuleV3
  appHookMasks : List AppHookMaskV3

namespace PolicyContents

structure Valid (c : PolicyContents) : Prop where
  kmod_ne : 0 ∉ c.kmodUids
  kmod_nodup : c.kmodUids.Nodup
  lsposed_ne : 0 ∉ c.lsposedUids
  lsposed_nodup : c.lsposedUids.Nodup
  targets : ∀ t ∈ c.portTargets, t.Valid
  targets_nodup : (c.portTargets.map (·.uid)).Nodup
  /-- The slices follow one another and use up the rules. -/
  slices : Tiles (c.portTargets.map PortTargetV3.span) 0 c.portRules.length
  rules : ∀ r ∈ c.portRules, r.Valid
  masks : ∀ m ∈ c.appHookMasks, m.Valid
  masks_nodup : (c.appHookMasks.map (·.uid)).Nodup

def sortedRules (c : PolicyContents) : List PortRuleV3 :=
  mapTiles (sortCmp policyPortRuleCmp) (c.portTargets.map (·.ruleCount.toNat)) c.portRules

/-- The snapshot built from a header and valid contents. -/
def install (c : PolicyContents) (header : PolicyPayloadV3) : PolicySnapshot where
  activeHooksMask := header.activeHooksMask ||| portHookMask
  javaHooksMask := header.javaHooksMask
  debugEnabled := if header.debugEnabled ≠ 0 then 1 else 0
  flags := header.flags
  kmodMatchMode := 0
  lsposedMatchMode := 0
  portMatchMode := 0
  ifacePrefixes := ⟨header.ifaceCount.toInt32, header.ifacePrefixes⟩
  kmodUids := sortCmp policyUidCmp c.kmodUids
  lsposedUids := sortCmp policyUidCmp c.lsposedUids
  portTargets := sortCmp policyPortTargetCmp c.portTargets
  portRules := c.sortedRules
  appHookMasks := sortCmp policyAppMaskCmp (c.appHookMasks.map forcePortHooks)

end PolicyContents

def PolicyPayloadV3.contents (header : PolicyPayloadV3) (payload : List UInt8) : PolicyContents where
  kmodUids := readSection Codec.u32 header.kmodUids payload
  lsposedUids := readSection Codec.u32 header.lsposedUids payload
  portTargets := readSection PortTargetV3.codec header.portTargets payload
  portRules := readSection PortRuleV3.codec header.portRules payload
  appHookMasks := readSection AppHookMaskV3.codec header.appHookMasks payload

def PolicyPayloadV3.spans (header : PolicyPayloadV3) : List (ℕ × ℕ) :=
  [header.kmodUids.span 4, header.lsposedUids.span 4, header.portTargets.span 16,
    header.portRules.span 8, header.appHookMasks.span 16]

structure V3Grammar (payload : List UInt8) : Prop where
  size_ge : 576 ≤ payload.length
  size_le : payload.length ≤ policyMaxBytes
  total : (PolicyPayloadV3.codec.decode payload).totalSize.toNat = payload.length
  ifaces : (PolicyPayloadV3.codec.decode payload).ifaceCount.toNat ≤ maxIfacePrefixes
  sections : Tiles (PolicyPayloadV3.codec.decode payload).spans 576 payload.length
  contents : ((PolicyPayloadV3.codec.decode payload).contents payload).Valid

/-! ### The loops of the parser -/

theorem policySectionValidate_eq_ok {s : PolicySectionV3} {elementSize cursor total cursor' : ℕ}
    (ht : total ≤ sizeMax) :
    policySectionValidate s elementSize cursor total = .ok cursor' ↔
      s.offset.toNat = cursor ∧ cursor + s.count.toNat * elementSize = cursor' ∧ cursor' ≤ total := by
  unfold policySectionValidate
  by_cases hoff : s.offset.toNat = cursor
  swap
  · simp [hoff]
  rw [if_neg (not_not.2 hoff)]
  by_cases hmul : s.count.toNat * elementSize ≤ sizeMax
  swap
  · simp only [checkMulOverflow, hmul, if_false, reduceCtorEq, false_iff]
    omega
  by_cases hadd : cursor + s.count.toNat * elementSize ≤ sizeMax
  swap
  · simp only [checkMulOverflow, checkAddOverflow, hmul, hadd, if_true, if_false, reduceCtorEq, false_iff]
    omega
  simp only [checkMulOverflow, checkAddOverflow, hmul, hadd, if_true]
  split
  · simp only [reduceCtorEq, false_iff]
    omega
  · simp only [Except.ok.injEq]
    omega

theorem sortCmp_of_length_le_one {α : Type} (cmp : α → α → Int) {xs : List α} (h : xs.length ≤ 1) :
    sortCmp cmp xs = xs := by
  match xs with
  | [] => rfl
  | [_] => rfl
  | _ :: _ :: _ => simp at h

/-- The guard on `rule_count > 1` only saves a call. -/
theorem sortSlice_guard (rules : List PortRuleV3) (t : PortTargetV3) :
    (if t.ruleCount > 1 then sortSlice rules t.firstRule.toNat t.ruleCount.toNat else rules) =
      sortSlice rules t.firstRule.toNat t.ruleCount.toNat := by
  split
  · rfl
  · rename_i h
    have h' : t.ruleCount.toNat ≤ 1 := by simpa [UInt32.lt_iff_toNat_lt] using h
    rw [sortSlice, sortCmp_of_length_le_one, List.append_assoc, ← List.drop_drop,
      List.take_append_drop, List.take_append_drop]
    rw [List.length_take]; omega

/-- Sorting a slice in place keeps the length, sorts the slice and leaves the rest alone. -/
theorem sortSlice_split (rules : List PortRuleV3) (first count : ℕ) (h : first + count ≤ rules.length) :
    (sortSlice rules first count).length = rules.length ∧
    (sortSlice rules first count).take (first + count) =
      rules.take first ++ sortCmp policyPortRuleCmp ((rules.drop first).take count) ∧
    (sortSlice rules first count).drop (first + count) = rules.drop (first + count) := by
  have hfront : (rules.take first ++ sortCmp policyPortRuleCmp ((rules.drop first).take count)).length =
      first + count := by
    simp only [List.length_append, List.length_take, length_sortCmp, List.length_drop]
    omega
  refine ⟨?_, List.take_left' hfront, List.drop_left' hfront⟩
  rw [sortSlice, List.length_append, hfront, List.length_drop]
  omega

/-- The guard of the loop over the targets, for a target whose slice starts where it should. -/
theorem PortTargetV3.rejected_iff (t : PortTargetV3) {total : UInt32} (h : t.firstRule.toNat ≤ total.toNat) :
    (t.uid = 0 ∨ t.mode > portPolicyDenyAll ∨ reservedSet t.reserved ∨
      t.firstRule ≠ t.firstRule ∨ t.ruleCount > total - t.firstRule) ↔
      ¬ (t.Valid ∧ t.firstRule.toNat + t.ruleCount.toNat ≤ total.toNat) := by
  have hsub : (total - t.firstRule).toNat = total.toNat - t.firstRule.toNat :=
    UInt32.toNat_sub_of_le _ _ (UInt32.le_iff_toNat_le.2 h)
  rw [← not_iff_not, not_not]
  simp only [not_or, Bool.not_eq_true, reservedSet_eq_false, gt_iff_lt, UInt8.not_lt,
    UInt32.lt_iff_toNat_lt, hsub, ne_eq, not_true_eq_false, not_false_eq_true, true_and, not_lt]
  constructor
  · rintro ⟨h₁, h₂, h₃, h₄⟩
    exact ⟨⟨h₁, h₂, h₃⟩, by omega⟩
  · rintro ⟨⟨h₁, h₂, h₃⟩, h₄⟩
    exact ⟨h₁, h₂, h₃, by omega⟩

/-- The loop over the targets: `next_rule` walks over the slices, and the rules before it are not
touched again. -/
theorem validatePortTargets_eq_ok {total : UInt32} {targets : List PortTargetV3} {next next' : UInt32}
    {rules rules' : List PortRuleV3} (hlen : rules.length = total.toNat)
    (hnext : next.toNat ≤ total.toNat) :
    validatePortTargets total targets next rules = .ok (next', rules') ↔
      (∀ t ∈ targets, t.Valid) ∧ Tiles (targets.map PortTargetV3.span) next.toNat next'.toNat ∧
      next'.toNat ≤ total.toNat ∧
      rules.take next.toNat ++ mapTiles (sortCmp policyPortRuleCmp)
        (targets.map (·.ruleCount.toNat)) (rules.drop next.toNat) = rules' := by
  induction targets generalizing next rules with
  | nil =>
    simp only [validatePortTargets, Except.ok.injEq, Prod.mk.injEq, List.map_nil, Tiles.nil_iff,
      mapTiles, List.take_append_drop, UInt32.toNat_inj, List.not_mem_nil, false_imp_iff,
      implies_true, true_and]
    constructor
    · rintro ⟨h₁, h₂⟩
      exact ⟨h₁, h₁ ▸ hnext, h₂⟩
    · rintro ⟨h₁, -, h₂⟩
      exact ⟨h₁, h₂⟩
  | cons t rest ih =>
    by_cases hfirst : t.firstRule = next
    swap
    · simp [validatePortTargets, PortTargetV3.span, UInt32.toNat_inj, hfirst]
    subst hfirst
    have hguard := t.rejected_iff hnext
    simp only [validatePortTargets, sortSlice_guard, List.forall_mem_cons, List.map_cons,
      PortTargetV3.span, Tiles.cons_iff, true_and, mapTiles]
    by_cases hok : t.Valid ∧ t.firstRule.toNat + t.ruleCount.toNat ≤ total.toNat
    swap
    · rw [if_pos (hguard.2 hok)]
      simp only [reduceCtorEq, false_iff]
      rintro ⟨⟨hv, -⟩, htiles, hle, -⟩
      exact hok ⟨hv, Nat.le_trans htiles.le hle⟩
    obtain ⟨hvalid, hfit⟩ := hok
    have hadd : (t.firstRule + t.ruleCount).toNat = t.firstRule.toNat + t.ruleCount.toNat := by
      rw [UInt32.toNat_add, Nat.mod_eq_of_lt]
      have := total.toNat_lt
      omega
    obtain ⟨hlen', htake, hdrop⟩ :=
      sortSlice_split rules t.firstRule.toNat t.ruleCount.toNat (by omega)
    have hnext' : (t.firstRule + t.ruleCount).toNat ≤ total.toNat := by omega
    have key := ih (hlen'.trans hlen) hnext'
    rw [hadd, htake, hdrop] at key
    rw [if_neg (mt hguard.1 (not_not.2 ⟨hvalid, hfit⟩)), key]
    simp only [hvalid, true_and, List.append_assoc, List.drop_drop]

theorem validateAppMasks_eq_ok {masks masks' : List AppHookMaskV3} :
    validateAppMasks masks = .ok masks' ↔
      (∀ m ∈ masks, m.Valid) ∧ masks.map forcePortHooks = masks' := by
  induction masks generalizing masks' with
  | nil => simp [validateAppMasks]
  | cons m rest ih =>
    rw [validateAppMasks, List.forall_mem_cons, ← appMaskInvalid_eq_false]
    cases hm : appMaskInvalid m with
    | true => simp
    | false =>
      simp only [Bool.false_eq_true, if_false, bind_eq_ok, ih, true_and, List.map_cons, pure,
        Except.pure, Except.ok.injEq]
      constructor
      · rintro ⟨_, ⟨h, rfl⟩, rfl⟩
        exact ⟨h, rfl⟩
      · rintro ⟨h, rfl⟩
        exact ⟨_, ⟨h, rfl⟩, rfl⟩

/-! ### The scans after sorting -/

/-- On a sorted list, zero can only come first. -/
theorem firstIsZero_sortCmp (uids : List UInt32) :
    firstIsZero (sortCmp policyUidCmp uids) = false ↔ 0 ∉ uids := by
  have hsorted := sortCmp_sorted cmpKey_uid uids
  rw [← not_congr (mem_sortCmp : 0 ∈ sortCmp policyUidCmp uids ↔ 0 ∈ uids)]
  cases hs : sortCmp policyUidCmp uids with
  | nil => simp [firstIsZero]
  | cons u rest =>
    rw [hs] at hsorted
    have hmin := (List.pairwise_cons.1 hsorted).1
    simp only [firstIsZero, List.head?_cons, beq_eq_false_iff_ne, ne_eq, Option.some.injEq,
      List.mem_cons, not_or]
    refine ⟨fun hu => ⟨fun h => hu h.symm, fun h => hu ?_⟩, fun h hu => h.1 hu.symm⟩
    have := hmin 0 h
    exact UInt32.toNat_inj.1 (by simpa using this)

theorem nodup_map_toNat {uids : List UInt32} : (uids.map UInt32.toNat).Nodup ↔ uids.Nodup :=
  List.nodup_map_iff fun _ _ h => UInt32.toNat_inj.1 h

theorem nodup_map_targetKey {ts : List PortTargetV3} :
    (ts.map targetKey).Nodup ↔ (ts.map (·.uid)).Nodup := by
  rw [← nodup_map_toNat, List.map_map]; rfl

theorem nodup_map_maskKey {ms : List AppHookMaskV3} :
    (ms.map maskKey).Nodup ↔ (ms.map (·.uid)).Nodup := by
  rw [← nodup_map_toNat, List.map_map]; rfl

@[simp] theorem forcePortHooks_uid (m : AppHookMaskV3) : (forcePortHooks m).uid = m.uid := by
  unfold forcePortHooks; split <;> rfl

/-- The scans after sorting reject exactly zero uids and duplicates. -/
theorem scans_pass_iff {c : PolicyContents} :
    ((firstIsZero (sortCmp policyUidCmp c.kmodUids) ||
        firstIsZero (sortCmp policyUidCmp c.lsposedUids)) = false ∧
      adjacentEq UInt32.toNat (sortCmp policyUidCmp c.kmodUids) = false ∧
      adjacentEq UInt32.toNat (sortCmp policyUidCmp c.lsposedUids) = false ∧
      adjacentEq targetKey (sortCmp policyPortTargetCmp c.portTargets) = false ∧
      adjacentEq maskKey (sortCmp policyAppMaskCmp (c.appHookMasks.map forcePortHooks)) = false) ↔
    (0 ∉ c.kmodUids ∧ 0 ∉ c.lsposedUids) ∧ c.kmodUids.Nodup ∧ c.lsposedUids.Nodup ∧
      (c.portTargets.map (·.uid)).Nodup ∧ (c.appHookMasks.map (·.uid)).Nodup := by
  rw [Bool.or_eq_false_iff, firstIsZero_sortCmp, firstIsZero_sortCmp, adjacentEq_sortCmp cmpKey_uid,
    adjacentEq_sortCmp cmpKey_uid, adjacentEq_sortCmp cmpKey_target, adjacentEq_sortCmp cmpKey_mask,
    nodup_map_toNat, nodup_map_toNat, nodup_map_targetKey, nodup_map_maskKey, List.map_map]
  simp only [Function.comp_def, forcePortHooks_uid]

/-- The loop over the targets, started at rule zero and required to end after the last rule. -/
theorem validatePortTargets_all {c : PolicyContents} {count next : UInt32} {rules' : List PortRuleV3}
    (hcount : c.portRules.length = count.toNat) :
    (validatePortTargets count c.portTargets 0 c.portRules = .ok (next, rules') ∧ next = count) ↔
      (∀ t ∈ c.portTargets, t.Valid) ∧ Tiles (c.portTargets.map PortTargetV3.span) 0 c.portRules.length ∧
      next = count ∧ c.sortedRules = rules' := by
  rw [validatePortTargets_eq_ok hcount (by simp)]
  constructor
  · rintro ⟨⟨hv, ht, -, hr⟩, rfl⟩
    exact ⟨hv, by rw [hcount]; exact ht, rfl, by simpa [PolicyContents.sortedRules] using hr⟩
  · rintro ⟨hv, ht, rfl, hr⟩
    exact ⟨⟨hv, by rw [hcount] at ht; exact ht, Nat.le_refl _,
      by simpa [PolicyContents.sortedRules] using hr⟩, rfl⟩

theorem PolicyContents.sortedRules_perm (c : PolicyContents) : c.sortedRules.Perm c.portRules :=
  mapTiles_perm (sortCmp_perm _) _ _

theorem any_portRuleInvalid_iff {c : PolicyContents} :
    c.sortedRules.any portRuleInvalid = false ↔ ∀ r ∈ c.portRules, r.Valid := by
  rw [List.any_eq_false]
  refine forall_congr' fun r => ?_
  rw [c.sortedRules_perm.mem_iff, Bool.not_eq_true, portRuleInvalid_eq_false]

/-! ### The parser -/

@[simp] theorem length_readSection {α : Type} (c : Codec α) (s : PolicySectionV3) (payload : List UInt8) :
    (readSection c s payload).length = s.count.toNat := by
  simp [readSection]

/-- The parser walks over the sections exactly if they tile the payload. -/
theorem policySectionValidate_tiles {header : PolicyPayloadV3} {total : ℕ} (hmax : total ≤ sizeMax) :
    (∃ c₁ c₂ c₃ c₄, policySectionValidate header.kmodUids Codec.u32.size 576 total = .ok c₁ ∧
      policySectionValidate header.lsposedUids Codec.u32.size c₁ total = .ok c₂ ∧
      policySectionValidate header.portTargets PortTargetV3.codec.size c₂ total = .ok c₃ ∧
      policySectionValidate header.portRules PortRuleV3.codec.size c₃ total = .ok c₄ ∧
      policySectionValidate header.appHookMasks AppHookMaskV3.codec.size c₄ total = .ok total) ↔
    Tiles header.spans 576 total := by
  simp only [policySectionValidate_eq_ok hmax]
  constructor
  · rintro ⟨_, _, _, _, ⟨e₁, rfl, -⟩, ⟨e₂, rfl, -⟩, ⟨e₃, rfl, -⟩, ⟨e₄, rfl, -⟩, e₅, hend, -⟩
    exact ⟨e₁, e₂, e₃, e₄, e₅, hend⟩
  · rintro ⟨e₁, e₂, e₃, e₄, e₅, hend⟩
    rw [Tiles.nil_iff] at hend
    refine ⟨_, _, _, _, ⟨e₁, rfl, ?_⟩, ⟨e₂, rfl, ?_⟩, ⟨e₃, rfl, ?_⟩, ⟨e₄, rfl, ?_⟩, e₅, hend, le_rfl⟩
    all_goals
      simp only [Codec.u32_size, PortTargetV3.codec_size, PortRuleV3.codec_size]
      omega

/-- The parser returns a snapshot exactly on the payloads of the grammar, and it is the one installed
from the header and the contents. -/
theorem policySnapshotFromV3_eq_ok {payload : List UInt8} {s : PolicySnapshot} :
    policySnapshotFromV3 true payload = .ok s ↔
      V3Grammar payload ∧
        ((PolicyPayloadV3.codec.decode payload).contents payload).install
          (PolicyPayloadV3.codec.decode payload) = s := by
  simp only [policySnapshotFromV3, bind_eq_ok, rejectIf_eq_ok, exists_const, pure, Except.pure]
  rw [PolicyPayloadV3.codec_size]
  generalize hheader : PolicyPayloadV3.codec.decode payload = header
  have hcount : (header.contents payload).portRules.length = header.portRules.count.toNat :=
    length_readSection ..
  constructor
  · rintro ⟨hhead, c₁, h₁, c₂, h₂, c₃, h₃, c₄, h₄, c₅, h₅, hend, -, -, ⟨next, rules⟩, htargets, hnext,
      hrules, masks, hmasks, hzero, hk, hl, ht, hm, hs⟩
    simp only [not_or, not_lt, not_not, gt_iff_lt, ne_eq] at hhead hend hnext
    obtain ⟨hge, hle, htotal, hifaces⟩ := hhead
    have hmax : payload.length ≤ sizeMax := Nat.le_trans hle (by decide)
    subst hend
    have htiles := (policySectionValidate_tiles hmax).1 ⟨c₁, c₂, c₃, c₄, h₁, h₂, h₃, h₄, h₅⟩
    obtain ⟨hvalid, hslices, -, rfl⟩ := (validatePortTargets_all hcount).1 ⟨htargets, hnext⟩
    obtain ⟨hmvalid, rfl⟩ := validateAppMasks_eq_ok.1 hmasks
    obtain ⟨⟨hk₀, hl₀⟩, hk₁, hl₁, ht₁, hm₁⟩ := (scans_pass_iff (c := header.contents payload)).1
      ⟨eq_false_of_ne_true hzero, eq_false_of_ne_true hk, eq_false_of_ne_true hl,
        eq_false_of_ne_true ht, eq_false_of_ne_true hm⟩
    have hcontents : (header.contents payload).Valid := ⟨hk₀, hk₁, hl₀, hl₁, hvalid, ht₁, hslices,
      any_portRuleInvalid_iff.1 (eq_false_of_ne_true hrules), hmvalid, hm₁⟩
    rw [← hheader] at htotal hifaces htiles hcontents
    exact ⟨⟨hge, hle, htotal, hifaces, htiles, hcontents⟩, Except.ok.inj hs⟩
  · rintro ⟨⟨hge, hle, htotal, hifaces, hsections, hc⟩, rfl⟩
    rw [hheader] at htotal hifaces hsections hc
    have hmax : payload.length ≤ sizeMax := Nat.le_trans hle (by decide)
    obtain ⟨c₁, c₂, c₃, c₄, h₁, h₂, h₃, h₄, h₅⟩ := (policySectionValidate_tiles hmax).2 hsections
    obtain ⟨htargets, hnext⟩ := (validatePortTargets_all hcount).2
      ⟨hc.targets, hc.slices, rfl, (rfl : (header.contents payload).sortedRules = _)⟩
    obtain ⟨hzero, hk, hl, ht, hm⟩ := (scans_pass_iff (c := header.contents payload)).2
      ⟨⟨hc.kmod_ne, hc.lsposed_ne⟩, hc.kmod_nodup, hc.lsposed_nodup, hc.targets_nodup, hc.masks_nodup⟩
    have hrules := any_portRuleInvalid_iff.2 hc.rules
    refine ⟨?_, c₁, h₁, c₂, h₂, c₃, h₃, c₄, h₄, _, h₅, not_not.2 rfl, ?_, by simp, _, htargets, not_not.2 hnext,
      ne_true_of_eq_false hrules, _, validateAppMasks_eq_ok.2 ⟨hc.masks, rfl⟩, ne_true_of_eq_false hzero,
      ne_true_of_eq_false hk, ne_true_of_eq_false hl, ne_true_of_eq_false ht, ne_true_of_eq_false hm, rfl⟩
    · omega
    · have : sizeofPolicySnapshot + (payload.length - 576) ≤ sizeMax :=
        Nat.le_trans (Nat.add_le_add_left (Nat.le_trans (Nat.sub_le ..) hle) _) (by decide)
      simp [checkAddOverflow, this]

end VpnHide
