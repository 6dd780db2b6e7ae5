import VpnHide.Device

/-!
# The status text (`vpnhide_dev_read`)

A reader is shown the configuration as lines of text. The buffer for them is allocated first, with
`MAX_IFACE_LEN + 1` bytes for a space and a name. Nothing checks that the prefixes of a policy or the names of a VPN
list end with a NUL, and `%s` reads on behind one that does not: in `statusText_complete`, a text that is cut has such
a name.
-/

namespace VpnHide

/-! ### Names in memory -/

namespace PolicySnapshot

/-- `struct vpnhide_policy_snapshot` from its prefixes on, up to the padding in front of its pointers, which `kvzalloc`
has set to zero. -/
def prefixMemory (s : PolicySnapshot) : List UInt8 :=
  (s.ifacePrefixes.prefixes.toList.map Vector.toList).flatten ++
    (Codec.u32.encode (.ofNat s.kmodUids.length) ++ Codec.u32.encode (.ofNat s.lsposedUids.length) ++
      Codec.u32.encode (.ofNat s.portTargets.length) ++ Codec.u32.encode (.ofNat s.portRules.length) ++
      Codec.u32.encode (.ofNat s.appHookMasks.length)) ++ List.replicate 4 0

def prefixCount (s : PolicySnapshot) : ℕ := s.ifacePrefixes.count.toInt.toNat

/-- `&snapshot->iface_prefixes.prefixes[i]` -/
def prefixBytes (s : PolicySnapshot) (i : ℕ) : List UInt8 := s.prefixMemory.drop (maxIfaceLen * i)

end PolicySnapshot

namespace VpnIfindexes

/-- The entries of `struct vpnhide_active_vpns`, and the padding behind them. -/
def memory (v : VpnIfindexes) : List UInt8 :=
  (v.vpns.toList.map fun vpn => Codec.u32.encode vpn.ifindex ++ vpn.name.toList).flatten ++ List.replicate 4 0

def nameCount (v : VpnIfindexes) : ℕ := v.count.toInt.toNat

def sizeofActiveVpn : ℕ := 4 + maxIfaceLen

/-- `&vpns->vpns[i].name` -/
def nameBytes (v : VpnIfindexes) (i : ℕ) : List UInt8 := v.memory.drop (sizeofActiveVpn * i + 4)

end VpnIfindexes

/-! ### The text -/

def versionCode : Int := 20508

def vpnhideJavaHooksMask (policy : Option PolicySnapshot) : UInt32 := policy.elim 0 (·.javaHooksMask)

def vpnhideDebugIsEnabled (policy : Option PolicySnapshot) : Bool := policy.any (·.debugEnabled ≠ 0)

def space : UInt8 := ' '.toUInt8

def statusLine (key : String) (value : List UInt8) : List UInt8 := bytesOf key ++ value ++ [newline]

/-- `" %u"` for every uid -/
def uidPieces (policy : Option PolicySnapshot) : List (List UInt8) :=
  policy.elim [] fun s => s.lsposedUids.map fun uid => space :: decimal uid.toNat

/-- `" %s"` for every prefix -/
def prefixPieces (policy : Option PolicySnapshot) : List (List UInt8) :=
  policy.elim [] fun s => (List.range s.prefixCount).map fun i => space :: cstr (s.prefixBytes i)

/-- `" %s"` for every VPN -/
def vpnPieces (vpns : Option VpnIfindexes) : List (List UInt8) :=
  vpns.elim [] fun v => (List.range v.nameCount).map fun i => space :: cstr (v.nameBytes i)

def javaOverrides (s : PolicySnapshot) : List AppHookMaskV3 :=
  s.appHookMasks.filter fun mask => mask.hasJavaOverride ≠ 0

/-- `" %u:%u"` for every mask that overrides -/
def maskPieces (policy : Option PolicySnapshot) : List (List UInt8) :=
  policy.elim [] fun s => (javaOverrides s).map fun mask =>
    space :: (decimal mask.uid.toNat ++ ':'.toUInt8 :: decimal mask.javaMask.toNat)

def coverText (coverIfname : List UInt8) : List UInt8 :=
  if coverIfname.headD 0 ≠ 0 then cstr coverIfname else bytesOf "none"

/-- What each `scnprintf` prints. -/
def statusPieces (st : DeviceState) : List (List UInt8) :=
  let policy := st.kernel.policy
  let mode := if policy.any (·.lsposedMatchMode = matchExclude) then "SHOW" else "HIDE"
  [statusLine "version_code: " (decimalInt versionCode),
    statusLine "java_hook_mask: " (decimal (vpnhideJavaHooksMask policy).toNat),
    statusLine "java_stats_clear_gen: " (decimalInt st.javaStatsClearGeneration.toInt32.toInt),
    bytesOf "stats_mode: cumulative_session\n",
    statusLine "debug_enabled: " (decimalInt (if vpnhideDebugIsEnabled policy then 1 else 0)),
    statusLine "lsposed_list_mode: " (bytesOf mode),
    bytesOf "lsposed_uids:"] ++ uidPieces policy ++
  [[newline], bytesOf "iface_prefixes:"] ++ prefixPieces policy ++
  [[newline], bytesOf "active_vpn_ifaces:"] ++ vpnPieces st.activeVpns ++
  [[newline], bytesOf "app_java_hook_mask:"] ++ maskPieces policy ++
  [[newline], statusLine "cover_iface: " (coverText st.coverIfname), [newline]]

def readerCapacity (policy : Option PolicySnapshot) : ℕ :=
  1024 + policy.elim 0 fun s =>
    s.lsposedUids.length * 16 + s.appHookMasks.length * 32 + s.prefixCount * (maxIfaceLen + 1) +
      maxActiveVpns * (maxIfaceLen + 1)

/-- What `vpnhide_dev_read` leaves in `reader->buf`. -/
def statusText (st : DeviceState) : List UInt8 :=
  (statusPieces st).foldl (scnprintf (readerCapacity st.kernel.policy)) []

/-- The text is not cut, and no prefix shows more than its own bytes. -/
structure StatusComplete (st : DeviceState) : Prop where
  text : statusText st = (statusPieces st).flatten
  prefixes : ∀ s, st.kernel.policy = some s → ∀ i < s.prefixCount, (cstr (s.prefixBytes i)).length ≤ maxIfaceLen

/-! ### Names that end -/

/-- Every prefix that is shown ends within its bytes or right behind them. -/
def PolicySnapshot.PrefixesEnd (s : PolicySnapshot) : Prop :=
  ∀ i < s.prefixCount, 0 ∈ (s.prefixBytes i).take (maxIfaceLen + 1)

def PolicySnapshot.PrefixesTerminated (s : PolicySnapshot) : Prop :=
  ∀ name ∈ s.ifacePrefixes.prefixes.toList.take s.prefixCount, 0 ∈ name.toList

def VpnIfindexes.NamesTerminated (v : VpnIfindexes) : Prop :=
  ∀ vpn ∈ v.vpns.toList.take v.nameCount, 0 ∈ vpn.name.toList

/-- Every VPN name that is shown ends within its bytes or within the index of the entry behind them, as it does in front
of any index below `2 ^ 24`. -/
def VpnIfindexes.NamesEnd (v : VpnIfindexes) : Prop :=
  ∀ i < v.nameCount, 0 ∈ (v.nameBytes i).take sizeofActiveVpn

theorem length_cstr_le_iff {bytes : List UInt8} (h : 0 ∈ bytes) (n : ℕ) :
    (cstr bytes).length ≤ n ↔ 0 ∈ bytes.take (n + 1) := by
  induction bytes generalizing n with
  | nil => cases h
  | cons c bytes ih =>
    by_cases hc : c = 0
    · subst hc
      simp [cstr]
    · have hmem : 0 ∈ bytes := (List.mem_cons.1 h).resolve_left (Ne.symm hc)
      rw [cstr_cons_of_ne hc, List.length_cons, List.take_succ_cons, List.mem_cons, or_iff_right (Ne.symm hc)]
      cases n with
      | zero => simp
      | succ n => rw [← ih hmem n, Nat.succ_le_succ_iff]

theorem drop_flatten {α : Type} {n : ℕ} {items : List (List α)} (h : ∀ item ∈ items, item.length = n) (i : ℕ) :
    items.flatten.drop (n * i) = (items.drop i).flatten := by
  induction items generalizing i with
  | nil => rw [List.drop_nil, List.flatten_nil, List.drop_nil]
  | cons item items ih =>
    obtain ⟨hitem, hitems⟩ := List.forall_mem_cons.1 h
    cases i with
    | zero => rfl
    | succ i =>
      rw [List.flatten_cons, Nat.mul_succ, Nat.add_comm, ← List.drop_drop, List.drop_left' hitem, ih hitems,
        List.drop_succ_cons]

theorem length_flatten {α : Type} {n : ℕ} {items : List (List α)} (h : ∀ item ∈ items, item.length = n) :
    items.flatten.length = n * items.length := by
  rw [List.length_flatten, List.map_congr_left h, List.map_const', List.sum_replicate_nat, Nat.mul_comm]

theorem zero_mem_drop {items : List (List UInt8)} {n : ℕ} (h : ∀ item ∈ items, item.length = n)
    (between : List UInt8) {place : ℕ}
    (hplace : place ≤ n * items.length) : 0 ∈ (items.flatten ++ between ++ List.replicate 4 0).drop place := by
  have hlen : place ≤ (items.flatten ++ between).length := by
    rw [List.length_append, length_flatten h]
    omega
  rw [List.drop_append_of_le_length hlen]
  exact List.mem_append_right _ (by simp)

theorem getElem_mem_take {α : Type} {n count i : ℕ} (v : Vector α n) (hcount : i < count) (hi : i < n) :
    v[i] ∈ v.toList.take count := by
  rw [List.mem_take_iff_getElem]
  exact ⟨i, by simpa using ⟨hcount, hi⟩, by simp⟩

theorem zero_mem_take_append {name : Vector UInt8 maxIfaceLen} (h : 0 ∈ name.toList) (tail : List UInt8) {n : ℕ}
    (hn : maxIfaceLen ≤ n) : 0 ∈ (name.toList ++ tail).take n := by
  have hlen : name.toList.length = maxIfaceLen := Vector.length_toList
  rw [List.take_append, List.take_of_length_le (by omega)]
  exact List.mem_append_left _ h

namespace PolicySnapshot
variable {s : PolicySnapshot} {i : ℕ}

theorem length_prefix : ∀ item ∈ s.ifacePrefixes.prefixes.toList.map Vector.toList, item.length = maxIfaceLen := by
  rintro _ hmem
  obtain ⟨name, -, rfl⟩ := List.mem_map.1 hmem
  exact name.length_toList

theorem zero_mem_prefixBytes (h : i ≤ maxIfacePrefixes) : 0 ∈ s.prefixBytes i := by
  refine zero_mem_drop length_prefix _ ?_
  rw [List.length_map, Vector.length_toList]
  exact Nat.mul_le_mul_left _ h

theorem prefixBytes_eq (h : i < maxIfacePrefixes) :
    ∃ tail, s.prefixBytes i = s.ifacePrefixes.prefixes[i].toList ++ tail := by
  have hi : i < (s.ifacePrefixes.prefixes.toList.map Vector.toList).length := by
    rwa [List.length_map, Vector.length_toList]
  have hle : maxIfaceLen * i ≤ (s.ifacePrefixes.prefixes.toList.map Vector.toList).flatten.length := by
    rw [length_flatten length_prefix]
    exact Nat.mul_le_mul_left _ (Nat.le_of_lt hi)
  rw [prefixBytes, prefixMemory, List.append_assoc, List.drop_append_of_le_length hle, drop_flatten length_prefix,
    List.drop_eq_getElem_cons hi, List.flatten_cons, List.append_assoc, List.getElem_map, Vector.getElem_toList]
  exact ⟨_, rfl⟩

theorem PrefixesTerminated.end (h : s.PrefixesTerminated) (hcount : s.prefixCount ≤ maxIfacePrefixes) :
    s.PrefixesEnd := by
  intro i hi
  have hlt : i < maxIfacePrefixes := Nat.lt_of_lt_of_le hi hcount
  obtain ⟨tail, htail⟩ := prefixBytes_eq (s := s) hlt
  rw [htail]
  exact zero_mem_take_append (h _ (getElem_mem_take _ hi hlt)) tail (Nat.le_succ _)

theorem PrefixesEnd.length_le (h : s.PrefixesEnd) (hcount : s.prefixCount ≤ maxIfacePrefixes) (hi : i < s.prefixCount) :
    (cstr (s.prefixBytes i)).length ≤ maxIfaceLen :=
  (length_cstr_le_iff (zero_mem_prefixBytes (Nat.le_trans (Nat.le_of_lt hi) hcount)) _).2 (h i hi)

end PolicySnapshot

namespace VpnIfindexes
variable {v : VpnIfindexes} {i : ℕ}

theorem length_entry : ∀ item ∈ v.vpns.toList.map (fun vpn => Codec.u32.encode vpn.ifindex ++ vpn.name.toList),
    item.length = sizeofActiveVpn := by
  rintro _ hmem
  obtain ⟨vpn, -, rfl⟩ := List.mem_map.1 hmem
  rw [List.length_append, Vector.length_toList, Codec.length_encode, Codec.u32_size]
  rfl

theorem nameBytes_eq (h : i < maxActiveVpns) : ∃ tail, v.nameBytes i = v.vpns[i].name.toList ++ tail := by
  have hi : i < (v.vpns.toList.map fun vpn => Codec.u32.encode vpn.ifindex ++ vpn.name.toList).length := by
    rwa [List.length_map, Vector.length_toList]
  have hle : sizeofActiveVpn * i ≤
      (v.vpns.toList.map fun vpn => Codec.u32.encode vpn.ifindex ++ vpn.name.toList).flatten.length := by
    rw [length_flatten length_entry]
    exact Nat.mul_le_mul_left _ (Nat.le_of_lt hi)
  rw [nameBytes, memory, ← List.drop_drop, List.drop_append_of_le_length hle, drop_flatten length_entry,
    List.drop_eq_getElem_cons hi, List.flatten_cons, List.getElem_map, Vector.getElem_toList, List.append_assoc,
    List.append_assoc,
    ← Codec.u32_size, List.drop_left' (Codec.u32.length_encode _)]
  exact ⟨_, rfl⟩

theorem NamesTerminated.end (h : v.NamesTerminated) (hcount : v.nameCount ≤ maxActiveVpns) : v.NamesEnd := by
  intro i hi
  have hlt : i < maxActiveVpns := Nat.lt_of_lt_of_le hi hcount
  obtain ⟨tail, htail⟩ := nameBytes_eq (v := v) hlt
  rw [htail]
  exact zero_mem_take_append (h _ (getElem_mem_take _ hi hlt)) tail (Nat.le_add_left _ _)

theorem NamesEnd.length_lt (h : v.NamesEnd) (hi : i < v.nameCount) : (cstr (v.nameBytes i)).length < sizeofActiveVpn :=
  Nat.lt_succ_of_le ((length_cstr_le_iff (List.mem_of_mem_take (h i hi)) 19).2 (h i hi))

end VpnIfindexes

/-! ### Counting the bytes -/

/-- The bytes that the lists of a policy take. -/
def policyBytes (s : PolicySnapshot) : ℕ :=
  (s.lsposedUids.map fun uid => 1 + digits uid.toNat).sum +
  ((List.range s.prefixCount).map fun i => 1 + (cstr (s.prefixBytes i)).length).sum +
  ((javaOverrides s).map fun mask => 2 + digits mask.uid.toNat + digits mask.javaMask.toNat).sum

/-- The bytes of everything but the names of the VPNs: the fixed texts, the numbers, the cover name and the lists. -/
def otherBytes (st : DeviceState) : ℕ :=
  216 + digits (vpnhideJavaHooksMask st.kernel.policy).toNat + signedDigits st.javaStatsClearGeneration.toInt32.toInt +
    (coverText st.coverIfname).length + st.kernel.policy.elim 0 policyBytes

def vpnBytes (vpns : Option VpnIfindexes) : ℕ :=
  vpns.elim 0 fun v => ((List.range v.nameCount).map fun i => 1 + (cstr (v.nameBytes i)).length).sum

theorem length_statusLine (key : String) (value : List UInt8) :
    (statusLine key value).length = (bytesOf key).length + value.length + 1 := by
  rw [statusLine, List.length_append, List.length_append]
  rfl

theorem length_flatten_map {α : Type} {piece : α → List UInt8} {bytes : α → ℕ} (h : ∀ a, (piece a).length = bytes a)
    (items : List α) : (items.map piece).flatten.length = (items.map bytes).sum := by
  rw [List.length_flatten, List.map_map]
  exact congrArg List.sum (List.map_congr_left fun a _ => h a)

theorem length_vpnPieces (vpns : Option VpnIfindexes) : (vpnPieces vpns).flatten.length = vpnBytes vpns := by
  cases vpns with
  | none => rfl
  | some v => exact length_flatten_map (fun i => Nat.add_comm ..) _

theorem length_policyPieces (policy : Option PolicySnapshot) :
    (uidPieces policy).flatten.length + (prefixPieces policy).flatten.length + (maskPieces policy).flatten.length =
      policy.elim 0 policyBytes := by
  cases policy with
  | none => rfl
  | some s =>
    refine congrArg₂ _ (congrArg₂ _ (length_flatten_map (fun uid => ?_) _) (length_flatten_map (fun i => ?_) _))
      (length_flatten_map (fun mask => ?_) _)
    · rw [List.length_cons, length_decimal, Nat.add_comm]
    · rw [List.length_cons, Nat.add_comm]
    · rw [List.length_cons, List.length_append, List.length_cons, length_decimal, length_decimal]
      omega

theorem length_statusPieces (st : DeviceState) :
    (statusPieces st).flatten.length = otherBytes st + vpnBytes st.activeVpns := by
  have hmode (b : Bool) : (bytesOf (if b then "SHOW" else "HIDE")).length = 4 := by cases b <;> rfl
  have hdebug (b : Bool) : signedDigits (if b then 1 else 0) = 1 := by cases b <;> rfl
  have hversion : signedDigits versionCode = 5 := rfl
  have hpolicy := length_policyPieces st.kernel.policy
  have hvpns := length_vpnPieces st.activeVpns
  have hlengths : (bytesOf "version_code: ").length = 14 ∧ (bytesOf "java_hook_mask: ").length = 16 ∧
      (bytesOf "java_stats_clear_gen: ").length = 22 ∧ (bytesOf "stats_mode: cumulative_session\n").length = 31 ∧
      (bytesOf "debug_enabled: ").length = 15 ∧ (bytesOf "lsposed_list_mode: ").length = 19 ∧
      (bytesOf "lsposed_uids:").length = 13 ∧ (bytesOf "iface_prefixes:").length = 15 ∧
      (bytesOf "active_vpn_ifaces:").length = 18 ∧ (bytesOf "app_java_hook_mask:").length = 19 ∧
      (bytesOf "cover_iface: ").length = 13 := by decide
  unfold statusPieces
  simp only [List.flatten_append, List.length_append, List.flatten_cons, List.flatten_nil, length_statusLine,
    length_decimal, length_decimalInt, hmode, hdebug, hversion, hlengths, List.length_cons, List.length_nil]
  unfold otherBytes
  omega

/-! ### The room -/

theorem digits_toNat_le (n : UInt32) : digits n.toNat ≤ 10 :=
  digits_le (by decide) (Nat.lt_of_lt_of_le n.toNat_lt (by decide))

theorem signedDigits_toInt_le (i : Int32) : signedDigits i.toInt ≤ 11 := by
  have hlow := i.le_toInt
  have hhigh := i.toInt_lt
  have hdigits : digits i.toInt.natAbs ≤ 10 := digits_le (by decide) (by omega)
  unfold signedDigits
  split_ifs <;> omega

theorem sum_map_le {α : Type} {bytes : α → ℕ} {n : ℕ} {items : List α} (h : ∀ a ∈ items, bytes a ≤ n) :
    (items.map bytes).sum ≤ items.length * n := by
  induction items with
  | nil => exact Nat.zero_le _
  | cons a items ih =>
    obtain ⟨ha, hitems⟩ := List.forall_mem_cons.1 h
    have := ih hitems
    rw [List.map_cons, List.sum_cons, List.length_cons, Nat.succ_mul]
    omega

/-- The lists of a policy take no more than what is allocated for them. -/
theorem policyBytes_le {s : PolicySnapshot} (h : ∀ i < s.prefixCount, (cstr (s.prefixBytes i)).length ≤ maxIfaceLen) :
    policyBytes s ≤ s.lsposedUids.length * 16 + s.appHookMasks.length * 32 + s.prefixCount * (maxIfaceLen + 1) := by
  have huids : (s.lsposedUids.map fun uid => 1 + digits uid.toNat).sum ≤ s.lsposedUids.length * 16 := by
    refine sum_map_le fun uid _ => ?_
    have := digits_toNat_le uid
    omega
  have hprefixes : ((List.range s.prefixCount).map fun i => 1 + (cstr (s.prefixBytes i)).length).sum ≤
      (List.range s.prefixCount).length * (maxIfaceLen + 1) := by
    refine sum_map_le fun i hi => ?_
    have := h i (List.mem_range.1 hi)
    omega
  have hmasks : ((javaOverrides s).map fun mask => 2 + digits mask.uid.toNat + digits mask.javaMask.toNat).sum ≤
      (javaOverrides s).length * 32 := by
    refine sum_map_le fun mask _ => ?_
    have huid := digits_toNat_le mask.uid
    have hmask := digits_toNat_le mask.javaMask
    omega
  have hoverrides : (javaOverrides s).length ≤ s.appHookMasks.length := List.length_filter_le ..
  rw [List.length_range] at hprefixes
  unfold policyBytes
  omega

/-- What is left for the names of the VPNs. -/
def vpnRoom (st : DeviceState) : ℕ := readerCapacity st.kernel.policy - 1 - otherBytes st

/-! ### Every state -/

def deviceSystem : System DeviceState DeviceOp where
  init st := st = .init
  step st op st' := op.run st = st'

/-- What every call keeps of the names. -/
structure NamesInv (st : DeviceState) : Prop where
  prefixCount_le : ∀ s, st.kernel.policy = some s → s.prefixCount ≤ maxIfacePrefixes
  nameCount_le : ∀ v, st.activeVpns = some v → v.nameCount ≤ maxActiveVpns
  cover_length : st.coverIfname.length = ifNamSiz
  cover_zero : 0 ∈ st.coverIfname

theorem toNat_toInt32 {n : UInt32} (h : n.toNat ≤ maxIfacePrefixes) : n.toInt32.toInt.toNat = n.toNat := by
  have hle : n.toNat ≤ 32 := h
  have hsmall : 2 * n.toBitVec.toNat < 2 ^ 32 := by
    rw [UInt32.toNat_toBitVec]
    omega
  show n.toBitVec.toInt.toNat = _
  rw [BitVec.toInt_eq_toNat_of_lt hsmall, Int.toNat_natCast, UInt32.toNat_toBitVec]

theorem PolicySnapshot.Accepted.prefixCount_le {s : PolicySnapshot} (h : s.Accepted) :
    s.prefixCount ≤ maxIfacePrefixes := by
  obtain ⟨alloc, abiVersion, payload, hparse⟩ := h
  unfold parsePayload at hparse
  have hv3 {payload : List UInt8} {s : PolicySnapshot} (h : policySnapshotFromV3 alloc.snapshot payload = .ok s) :
      s.prefixCount ≤ maxIfacePrefixes := by
    rw [policySnapshotFromV3_alloc h] at h
    obtain ⟨hg, rfl⟩ := policySnapshotFromV3_eq_ok.1 h
    exact (toNat_toInt32 hg.ifaces).trans_le hg.ifaces
  split_ifs at hparse
  · obtain ⟨hconversion, hsnapshot⟩ := policySnapshotFromV4_alloc hparse
    rw [hconversion, hsnapshot] at hparse
    obtain ⟨hg, rfl⟩ := policySnapshotFromV4_eq_ok.1 hparse
    exact (toNat_toInt32 hg.ifaces).trans_le hg.ifaces
  · exact hv3 hparse
  · obtain ⟨v3, -, hparse⟩ := bind_eq_ok.1 hparse
    exact hv3 hparse

/-- A publish installs an accepted policy or changes nothing. -/
theorem policy_setPolicy {alloc : AllocOutcomes} {capable : Bool} {request : Option PolicyIoctl} {k : KernelState}
    {s : PolicySnapshot}
    (h : (KernelOp.run k (.setPolicy alloc capable request)).policy = some s) : k.policy = some s ∨ s.Accepted := by
  have hatomic := vhSetPolicy_atomic alloc capable request k
  change (TxnM.exec (vhSetPolicy alloc capable request) k).2.policy = some s at h
  rcases hrun : TxnM.exec (vhSetPolicy alloc capable request) k with ⟨e | _, k'⟩
  · rw [hrun] at hatomic h
    rw [← hatomic e rfl]
    exact .inl h
  · obtain ⟨r, payload, s', stats, -, hparse, -, -, rfl⟩ := vhSetPolicy_eq_ok.1 hrun
    rw [hrun] at h
    obtain rfl := Option.some.inj h
    exact .inr ⟨_, _, _, hparse⟩

namespace NamesInv
variable {st : DeviceState}

theorem congr {st' : DeviceState} (h : NamesInv st) (hpolicy : st'.kernel.policy = st.kernel.policy)
    (hvpns : st'.activeVpns = st.activeVpns) (hcover : st'.coverIfname = st.coverIfname) : NamesInv st' where
  prefixCount_le := by rw [hpolicy]; exact h.prefixCount_le
  nameCount_le := by rw [hvpns]; exact h.nameCount_le
  cover_length := by rw [hcover]; exact h.cover_length
  cover_zero := by rw [hcover]; exact h.cover_zero

theorem length_setText (h : NamesInv st) (src : List UInt8) :
    (setText ifNamSiz st.coverIfname src).length = ifNamSiz := by
  have hlength := h.cover_length
  unfold ifNamSiz at hlength ⊢
  rw [setText, List.length_set, strncpy, List.length_append, List.length_take, List.length_drop, List.length_append,
    List.length_replicate]
  omega

theorem writeCoverIface (h : NamesInv st) (text : List UInt8) : NamesInv (VpnHide.writeCoverIface text st) := by
  have hlength (src : List UInt8) := h.length_setText src
  unfold VpnHide.writeCoverIface
  dsimp only
  generalize (if (cstr text).getLast? = some newline then (cstr text).dropLast else cstr text) = val
  refine ⟨h.prefixCount_le, h.nameCount_le, ?_, ?_⟩
  · show (if val = [] ∨ val = bytesOf "none" then _ else _ : List UInt8).length = _
    split_ifs
    · rw [List.length_set, h.cover_length]
    · exact hlength val
  · show 0 ∈ (if val = [] ∨ val = bytesOf "none" then _ else _ : List UInt8)
    split_ifs
    · refine List.mem_set ?_ 0
      rw [h.cover_length]
      decide
    · refine List.mem_set ?_ 0
      rw [← List.length_set, ← setText, hlength]
      decide

theorem write (h : NamesInv st) (w : DevWrite) : NamesInv (vpnhideDevWrite w st).2 := by
  unfold vpnhideDevWrite
  dsimp only
  split_ifs
  · exact h
  · exact h.congr rfl rfl rfl
  · exact h.congr rfl rfl rfl
  · exact h.congr rfl rfl rfl
  · exact h.writeCoverIface _
  · exact h
  · exact h
  · exact h

theorem setVpnIfindexes (h : NamesInv st) (env : SetVpnEnv) (data : VpnIfindexes) :
    NamesInv (vhSetVpnIfindexes env data st).2 := by
  unfold vhSetVpnIfindexes
  by_cases hcount : data.count < 0 ∨ data.count > Int32.ofNat maxActiveVpns
  · rw [if_pos hcount]
    split_ifs <;> exact h
  · rw [if_neg hcount]
    split_ifs
    · refine ⟨h.prefixCount_le, ?_, h.cover_length, h.cover_zero⟩
      intro v hv
      obtain rfl := Option.some.inj hv
      rw [not_or, Int32.not_lt, gt_iff_lt, Int32.not_lt, Int32.le_iff_toInt_le, Int32.le_iff_toInt_le] at hcount
      exact Int.toNat_le.2 hcount.2
    · exact h
    · exact h
    · exact h
    · exact h

end NamesInv

theorem NamesInv.run {st : DeviceState} (h : NamesInv st) (op : DeviceOp) : NamesInv (op.run st) := by
  cases op with
  | write w => exact h.write w
  | setPolicy alloc capable request =>
    refine ⟨fun s hs => ?_, h.nameCount_le, h.cover_length, h.cover_zero⟩
    rcases policy_setPolicy hs with hs | hs
    · exact h.prefixCount_le s hs
    · exact hs.prefixCount_le
  | setVpnIfindexes env data => exact h.setVpnIfindexes env data
  | intercept uid type => exact ⟨h.prefixCount_le, h.nameCount_le, h.cover_length, h.cover_zero⟩
  | clearStats kvcalloc =>
    refine ⟨fun s hs => h.prefixCount_le s ?_, h.nameCount_le, h.cover_length, h.cover_zero⟩
    cases kvcalloc <;> exact hs

theorem namesInv_of_reachable {st : DeviceState} (h : deviceSystem.Reachable st) : NamesInv st := by
  refine h.invariant ?_ ?_
  · rintro _ rfl
    constructor
    · rintro s ⟨⟩
    · rintro v ⟨⟩
    · rfl
    · decide
  · rintro st op _ hst rfl
    exact hst.run op

/-! ### The main result -/

namespace NamesInv
variable {st : DeviceState}

theorem length_coverText (h : NamesInv st) : (coverText st.coverIfname).length ≤ 15 := by
  unfold coverText
  split_ifs
  · rw [length_cstr_le_iff h.cover_zero, List.take_of_length_le (by rw [h.cover_length]; decide)]
    exact h.cover_zero
  · decide

/-- With prefixes that end, the fixed 1024 bytes leave room for all entries of a VPN list, indexes included. -/
theorem le_vpnRoom (h : NamesInv st)
    (hprefixes : ∀ s, st.kernel.policy = some s → ∀ i < s.prefixCount, (cstr (s.prefixBytes i)).length ≤ maxIfaceLen) :
    otherBytes st + maxActiveVpns * VpnIfindexes.sizeofActiveVpn ≤ readerCapacity st.kernel.policy - 1 := by
  have hmask := digits_toNat_le (vpnhideJavaHooksMask st.kernel.policy)
  have hgen := signedDigits_toInt_le st.javaStatsClearGeneration.toInt32
  have hcover := h.length_coverText
  have hsize : maxActiveVpns * VpnIfindexes.sizeofActiveVpn = 320 := rfl
  unfold otherBytes readerCapacity
  cases hpolicy : st.kernel.policy with
  | none =>
    rw [hpolicy] at hmask
    simp only [Option.elim_none]
    omega
  | some s =>
    rw [hpolicy] at hmask
    have hbytes := policyBytes_le (hprefixes s hpolicy)
    simp only [Option.elim_some]
    omega

theorem statusComplete_iff (h : NamesInv st) :
    StatusComplete st ↔
      (∀ s, st.kernel.policy = some s → s.PrefixesEnd) ∧ vpnBytes st.activeVpns ≤ vpnRoom st := by
  have hends : (∀ s, st.kernel.policy = some s → s.PrefixesEnd) ↔
      ∀ s, st.kernel.policy = some s → ∀ i < s.prefixCount, (cstr (s.prefixBytes i)).length ≤ maxIfaceLen := by
    refine forall_congr' fun s => forall_congr' fun hs => forall_congr' fun i => forall_congr' fun hi => ?_
    have hle : i ≤ maxIfacePrefixes := Nat.le_trans (Nat.le_of_lt hi) (h.prefixCount_le s hs)
    exact (length_cstr_le_iff (PolicySnapshot.zero_mem_prefixBytes hle) _).symm
  have htext : statusText st = (statusPieces st).flatten ↔
      otherBytes st + vpnBytes st.activeVpns ≤ readerCapacity st.kernel.policy - 1 := by
    rw [statusText, foldl_scnprintf_eq_iff, length_statusPieces]
  rw [hends]
  constructor
  · rintro ⟨hcomplete, hprefixes⟩
    have := htext.1 hcomplete
    refine ⟨hprefixes, ?_⟩
    unfold vpnRoom
    omega
  · rintro ⟨hprefixes, hvpns⟩
    have := h.le_vpnRoom hprefixes
    refine ⟨htext.2 ?_, hprefixes⟩
    unfold vpnRoom at hvpns
    omega

theorem vpnBytes_le (h : NamesInv st) (hnames : ∀ v, st.activeVpns = some v → v.NamesEnd) :
    vpnBytes st.activeVpns ≤ maxActiveVpns * VpnIfindexes.sizeofActiveVpn := by
  cases hvpns : st.activeVpns with
  | none => exact Nat.zero_le _
  | some v =>
    have hsum : ((List.range v.nameCount).map fun i => 1 + (cstr (v.nameBytes i)).length).sum ≤
        (List.range v.nameCount).length * VpnIfindexes.sizeofActiveVpn := by
      refine sum_map_le fun i hi => ?_
      have := (hnames v hvpns).length_lt (List.mem_range.1 hi)
      omega
    rw [List.length_range] at hsum
    exact Nat.le_trans hsum (Nat.mul_le_mul_right _ (h.nameCount_le v hvpns))

theorem statusComplete_iff_prefixesEnd (h : NamesInv st) (hnames : ∀ v, st.activeVpns = some v → v.NamesEnd) :
    StatusComplete st ↔ ∀ s, st.kernel.policy = some s → s.PrefixesEnd := by
  rw [h.statusComplete_iff, and_iff_left_iff_imp]
  intro hends
  have hroom := h.le_vpnRoom fun s hs i => (hends s hs).length_le (h.prefixCount_le s hs)
  have hbytes := h.vpnBytes_le hnames
  unfold vpnRoom
  omega

end NamesInv

/-- The status text is complete if all names that it shows hold a NUL. As long as the VPN names end in front of the next
name, it is complete exactly if every prefix ends within its bytes or right behind them. -/
theorem statusText_complete {st : DeviceState} (h : deviceSystem.Reachable st) :
    ((∀ s, st.kernel.policy = some s → s.PrefixesTerminated) →
      (∀ v, st.activeVpns = some v → v.NamesTerminated) → StatusComplete st) ∧
    ((∀ v, st.activeVpns = some v → v.NamesEnd) →
      (StatusComplete st ↔ ∀ s, st.kernel.policy = some s → s.PrefixesEnd)) := by
  have hinv := namesInv_of_reachable h
  refine ⟨?_, hinv.statusComplete_iff_prefixesEnd⟩
  intro hprefixes hnames
  refine (hinv.statusComplete_iff_prefixesEnd fun v hv => (hnames v hv).end (hinv.nameCount_le v hv)).2 ?_
  exact fun s hs => (hprefixes s hs).end (hinv.prefixCount_le s hs)

/-- A publish of nothing but three prefixes, out of an array of equal ones. -/
def publishPrefixes (name : Vector UInt8 maxIfaceLen) : DeviceState :=
  DeviceOp.run .init (.setPolicy ⟨true, true, true, true⟩ true (some ⟨policyAbiVersionV3, 576, .mapped
    (PolicyPayloadV3.codec.encode {
      totalSize := 576, flags := 0, activeHooksMask := 0, javaHooksMask := 0, debugEnabled := 0,
      ifaceCount := 3, ifacePrefixes := Vector.replicate 32 name,
      kmodUids := ⟨576, 0⟩, lsposedUids := ⟨576, 0⟩, portTargets := ⟨576, 0⟩, portRules := ⟨576, 0⟩,
      appHookMasks := ⟨576, 0⟩ }), 0⟩))

theorem publishPrefixes_reachable (name : Vector UInt8 maxIfaceLen) : deviceSystem.Reachable (publishPrefixes name) :=
  .step (.init rfl) rfl

theorem statusText_complete_terminated :
    StatusComplete (publishPrefixes (Vector.ofFn fun i => if i.val < 15 then 'a'.toUInt8 else 0)) := by
  refine (statusText_complete (publishPrefixes_reachable _)).1 ?_ ?_
  · have hall : (publishPrefixes (Vector.ofFn fun i => if i.val < 15 then 'a'.toUInt8 else 0)).kernel.policy.all
        (fun s => (s.ifacePrefixes.prefixes.toList.take s.prefixCount).all fun name => 0 ∈ name.toList) = true := by
      decide +kernel
    intro s hs name hname
    rw [hs] at hall
    simpa using List.all_eq_true.1 hall name hname
  · rintro v ⟨⟩

/-- A complete text ends with the blank line. -/
theorem getLast?_statusPieces (st : DeviceState) : (statusPieces st).flatten.getLast? = some newline := by
  have hend : [[newline], statusLine "cover_iface: " (coverText st.coverIfname), [newline]].flatten =
      newline :: statusLine "cover_iface: " (coverText st.coverIfname) ++ [newline] := by simp
  unfold statusPieces
  rw [List.flatten_append, hend, ← List.append_assoc, List.getLast?_concat]

/-- Without a NUL, each prefix runs on to the end of the array, and the text ends in the middle of the third one. -/
theorem statusText_cut :
    deviceSystem.Reachable (publishPrefixes (Vector.replicate 16 'a'.toUInt8)) ∧
    ¬ StatusComplete (publishPrefixes (Vector.replicate 16 'a'.toUInt8)) ∧
    (statusText (publishPrefixes (Vector.replicate 16 'a'.toUInt8))).getLast? = some 'a'.toUInt8 := by
  have hlast : (statusText (publishPrefixes (Vector.replicate 16 'a'.toUInt8))).getLast? = some 'a'.toUInt8 := by
    decide +kernel
  refine ⟨publishPrefixes_reachable _, ?_, hlast⟩
  rintro ⟨htext, -⟩
  rw [htext, getLast?_statusPieces] at hlast
  exact absurd hlast (by decide)

end VpnHide
