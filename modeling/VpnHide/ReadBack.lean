import VpnHide.Layout

/-!
# Reading a laid out policy back

`PolicyLists.contents_withSections`: the section table finds the lists in the bytes again.
`PolicyLists.Shape` is what makes them valid contents, and `map_packTargets` says that flattening
the rules loses nothing: every target finds its own rules in the flat array.
-/

namespace VpnHide

theorem toNat_ofNat_of_lt {n : ℕ} (h : n < 2 ^ 32) : (UInt32.ofNat n).toNat = n :=
  UInt32.toNat_ofNat_of_lt' h

/-! ### Flattened targets -/

namespace PortTarget

def key (t : PortTarget) : ℕ := t.uid.toNat

/-- The target refuses the connection. -/
def Blocks (t : PortTarget) (port : UInt16) (proto : UInt8) : Prop :=
  t.mode ≠ portPolicyUnrestricted ∧ (t.mode = portPolicyDenyAll ∨ ∃ r ∈ t.rules, r.Covers port proto)

structure Valid (t : PortTarget) : Prop where
  mode : t.mode ≤ portPolicyDenyAll
  rules : ∀ r ∈ t.rules, r.startPort ≤ r.endPort ∧ r.protocol ≤ protoBoth

end PortTarget

@[simp] theorem PortRule.toRule_toV3 (r : PortRule) : r.toV3.toRule = r := rfl

theorem map_uid_packTargets (ports : List PortTarget) (j : ℕ) :
    (packTargets ports j).map (·.uid) = ports.map (·.uid) := by
  induction ports generalizing j with
  | nil => rfl
  | cons t rest ih => simp [packTargets, PortTarget.toV3, ih]

theorem mem_packTargets {ports : List PortTarget} {j : ℕ} {t : PortTargetV3} (h : t ∈ packTargets ports j) :
    ∃ t' ∈ ports, ∃ i, t = t'.toV3 i := by
  induction ports generalizing j with
  | nil => simp [packTargets] at h
  | cons t' rest ih =>
    rcases List.mem_cons.1 h with rfl | h
    · exact ⟨t', by simp, j, rfl⟩
    · obtain ⟨t'', ht, hi⟩ := ih h
      exact ⟨t'', List.mem_cons_of_mem _ ht, hi⟩

theorem tiles_packTargets {ports : List PortTarget} {j : ℕ} (h : j + (allRules ports).length < 2 ^ 32) :
    Tiles ((packTargets ports j).map PortTargetV3.span) j (j + (allRules ports).length) := by
  induction ports generalizing j with
  | nil => simp [packTargets, allRules]
  | cons t rest ih =>
    rw [length_allRules_cons] at h ⊢
    rw [packTargets, List.map_cons, PortTargetV3.span, Tiles.cons_iff, PortTarget.toV3,
      toNat_ofNat_of_lt (by omega), toNat_ofNat_of_lt (by omega), ← Nat.add_assoc]
    exact ⟨rfl, ih (by omega)⟩

theorem map_packTargets {ports : List PortTarget} (pre : List PortRuleV3)
    (h : pre.length + (allRules ports).length < 2 ^ 32) :
    (packTargets ports pre.length).map (fun t => (⟨t.uid, t.mode,
      (slice (pre ++ allRules ports) t.firstRule.toNat t.ruleCount.toNat).map PortRuleV3.toRule⟩ :
        PortTarget)) = ports := by
  induction ports generalizing pre with
  | nil => rfl
  | cons t rest ih =>
    have hsplit : pre ++ allRules (t :: rest) = (pre ++ t.rules.map PortRule.toV3) ++ allRules rest := by
      simp [allRules]
    have hslice : slice (pre ++ allRules (t :: rest)) pre.length t.rules.length =
        t.rules.map PortRule.toV3 := by
      rw [hsplit, slice, List.append_assoc, List.drop_left, List.take_left' (List.length_map ..)]
    rw [length_allRules_cons] at h
    have hpre : pre.length < 2 ^ 32 := by omega
    have hlen : t.rules.length < 2 ^ 32 := by omega
    have hrest := ih (pre ++ t.rules.map PortRule.toV3) (by simpa [Nat.add_assoc] using h)
    rw [← hsplit, List.length_append, List.length_map] at hrest
    rw [packTargets, List.map_cons, hrest]
    simp [PortTarget.toV3, toNat_ofNat_of_lt hpre, toNat_ofNat_of_lt hlen, hslice, Function.comp_def]

namespace PolicyContents

/-- The port targets of a payload, each with its own rules. -/
def targets (c : PolicyContents) : List PortTarget :=
  c.portTargets.map fun t => ⟨t.uid, t.mode, (c.slice t).map PortRuleV3.toRule⟩

theorem ports_targets (c : PolicyContents) (uid : UInt32) :
    (lookupBy targetKey c.portTargets uid.toNat).map
        (fun t => (t.mode, (↑((c.slice t).map PortRuleV3.toRule) : Multiset PortRule))) =
      (lookupBy PortTarget.key c.targets uid.toNat).map fun t => (t.mode, (↑t.rules : Multiset PortRule)) := by
  have hkey (t : PortTargetV3) :
      PortTarget.key ⟨t.uid, t.mode, (c.slice t).map PortRuleV3.toRule⟩ = targetKey t := rfl
  rw [targets, lookupBy_map _ hkey, Option.map_map]
  rfl

end PolicyContents

/-! ### Sections -/

theorem readSection_encodeArray {α : Type} (c : Codec α) (xs : List α) (front back : List UInt8)
    {payload : List UInt8} {s : PolicySectionV3} (hp : payload = front ++ (c.encodeArray xs ++ back))
    (hoff : s.offset.toNat = front.length) (hcount : s.count.toNat = xs.length) :
    readSection c s payload = xs := by
  rw [readSection, hp, hoff, hcount, List.drop_left, Codec.decodeArray_encodeArray]

theorem zeroed_replicate (n : ℕ) : Zeroed (Vector.replicate n (0 : UInt8)) := by
  intro b hb
  exact List.eq_of_mem_replicate (Vector.toList_replicate ▸ hb)

namespace PolicyLists
variable {l : PolicyLists} {n : ℕ} {h : PolicyPayloadV3}

theorem bounds (hfit : l.totalSize n < 2 ^ 32) :
    (n < 2 ^ 32 ∧ l.kmodEnd n < 2 ^ 32 ∧ l.lsposedEnd n < 2 ^ 32 ∧ l.targetsEnd n < 2 ^ 32 ∧
      l.rulesEnd n < 2 ^ 32) ∧
    l.kmod.length < 2 ^ 32 ∧ l.lsposed.length < 2 ^ 32 ∧ l.ports.length < 2 ^ 32 ∧
      (allRules l.ports).length < 2 ^ 32 ∧ l.masks.length < 2 ^ 32 := by
  simp only [totalSize, rulesEnd, targetsEnd, lsposedEnd, kmodEnd] at hfit ⊢
  omega

theorem contents_withSections (header : List UInt8) (hn : header.length = n) (hfit : l.totalSize n < 2 ^ 32) :
    (l.withSections n h).contents (header ++ l.sections) = l.contents := by
  obtain ⟨⟨h₀, h₁, h₂, h₃, h₄⟩, l₁, l₂, l₃, l₄, l₅⟩ := bounds hfit
  have hk : readSection Codec.u32 (l.withSections n h).kmodUids (header ++ l.sections) = l.kmod :=
    readSection_encodeArray _ _ header _ rfl ((toNat_ofNat_of_lt h₀).trans hn.symm) (toNat_ofNat_of_lt l₁)
  have hl : readSection Codec.u32 (l.withSections n h).lsposedUids (header ++ l.sections) = l.lsposed :=
    readSection_encodeArray _ _ (header ++ Codec.u32.encodeArray l.kmod) _
      (by simp only [sections, List.append_assoc]; rfl)
      ((toNat_ofNat_of_lt h₁).trans (by simp [kmodEnd, hn])) (toNat_ofNat_of_lt l₂)
  have ht : readSection PortTargetV3.codec (l.withSections n h).portTargets (header ++ l.sections) =
      packTargets l.ports 0 :=
    readSection_encodeArray _ _ (header ++ Codec.u32.encodeArray l.kmod ++ Codec.u32.encodeArray l.lsposed) _
      (by simp only [sections, List.append_assoc]; rfl)
      ((toNat_ofNat_of_lt h₂).trans (by simp [lsposedEnd, kmodEnd, hn, Nat.add_assoc]))
      ((toNat_ofNat_of_lt l₃).trans (length_packTargets ..).symm)
  have hr : readSection PortRuleV3.codec (l.withSections n h).portRules (header ++ l.sections) =
      allRules l.ports :=
    readSection_encodeArray _ _ (header ++ Codec.u32.encodeArray l.kmod ++ Codec.u32.encodeArray l.lsposed ++
      PortTargetV3.codec.encodeArray (packTargets l.ports 0)) _
      (by simp only [sections, List.append_assoc]; rfl)
      ((toNat_ofNat_of_lt h₃).trans
        (by simp [targetsEnd, lsposedEnd, kmodEnd, length_packTargets, hn, Nat.add_assoc]))
      (toNat_ofNat_of_lt l₄)
  have hm : readSection AppHookMaskV3.codec (l.withSections n h).appHookMasks (header ++ l.sections) =
      l.masks :=
    readSection_encodeArray _ _ (header ++ Codec.u32.encodeArray l.kmod ++ Codec.u32.encodeArray l.lsposed ++
      PortTargetV3.codec.encodeArray (packTargets l.ports 0) ++
      PortRuleV3.codec.encodeArray (allRules l.ports)) []
      (by simp only [sections, List.append_assoc, List.append_nil])
      ((toNat_ofNat_of_lt h₄).trans
        (by simp [rulesEnd, targetsEnd, lsposedEnd, kmodEnd, length_packTargets, hn, Nat.add_assoc]))
      (toNat_ofNat_of_lt l₅)
  simp only [PolicyPayloadV3.contents, contents, hk, hl, ht, hr, hm]

theorem tiles_withSections (hfit : l.totalSize n < 2 ^ 32) :
    Tiles (l.withSections n h).spans n (l.totalSize n) := by
  obtain ⟨⟨h₀, h₁, h₂, h₃, h₄⟩, l₁, l₂, l₃, l₄, l₅⟩ := bounds hfit
  simp only [PolicyPayloadV3.spans, PolicySectionV3.span, withSections, Tiles.cons_iff, Tiles.nil_iff,
    toNat_ofNat_of_lt h₀, toNat_ofNat_of_lt h₁, toNat_ofNat_of_lt h₂, toNat_ofNat_of_lt h₃,
    toNat_ofNat_of_lt h₄, toNat_ofNat_of_lt l₁, toNat_ofNat_of_lt l₂, toNat_ofNat_of_lt l₃,
    toNat_ofNat_of_lt l₄, toNat_ofNat_of_lt l₅]
  exact ⟨trivial, rfl, rfl, rfl, rfl, rfl⟩

/-! ### Validity -/

/-- Non-zero distinct uids, modes, rules and masks in range. -/
structure Shape (l : PolicyLists) : Prop where
  kmod_ne : 0 ∉ l.kmod
  kmod_nodup : l.kmod.Nodup
  lsposed_ne : 0 ∉ l.lsposed
  lsposed_nodup : l.lsposed.Nodup
  ports_ne : ∀ t ∈ l.ports, t.uid ≠ 0
  ports_nodup : (l.ports.map (·.uid)).Nodup
  modes : ∀ t ∈ l.ports, t.mode ≤ portPolicyDenyAll
  rules : ∀ t ∈ l.ports, ∀ r ∈ t.rules, r.startPort ≤ r.endPort ∧ r.protocol ≤ protoBoth
  masks : ∀ m ∈ l.masks, m.Valid
  masks_nodup : (l.masks.map (·.uid)).Nodup

theorem Shape.contents_valid (h : l.Shape) (hlen : (allRules l.ports).length < 2 ^ 32) :
    l.contents.Valid where
  kmod_ne := h.kmod_ne
  kmod_nodup := h.kmod_nodup
  lsposed_ne := h.lsposed_ne
  lsposed_nodup := h.lsposed_nodup
  targets t ht := by
    obtain ⟨t', ht', i, rfl⟩ := mem_packTargets ht
    exact ⟨h.ports_ne t' ht', h.modes t' ht', zeroed_replicate 3⟩
  targets_nodup := by simpa only [contents, map_uid_packTargets] using h.ports_nodup
  slices := by
    have hlen' : 0 + (allRules l.ports).length < 2 ^ 32 := by simpa using hlen
    simpa [contents] using tiles_packTargets hlen'
  rules r hr := by
    obtain ⟨t, ht, r', hr', rfl⟩ : ∃ t ∈ l.ports, ∃ r' ∈ t.rules, r'.toV3 = r := by
      simpa [contents, allRules] using hr
    exact ⟨(h.rules t ht r' hr').1, (h.rules t ht r' hr').2, zeroed_replicate 3⟩
  masks := h.masks
  masks_nodup := h.masks_nodup

theorem targets_contents (hlen : (allRules l.ports).length < 2 ^ 32) : l.contents.targets = l.ports :=
  map_packTargets [] (by simpa using hlen)

end PolicyLists

end VpnHide
