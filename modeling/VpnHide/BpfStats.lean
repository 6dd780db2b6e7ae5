import Mathlib.Data.UInt
import VpnHide.Connect
import VpnHide.Lib.CString
import VpnHide.Lib.KeyedRows

/-!
# Traffic statistics in BPF maps (`kmod/hooks_fs.c`, `kpatch/security/vpnhide/hook_fs.c`)

Rows of VPN interfaces read as zero, and what they had is added to the row of the cover interface. Single lookups so
keep the byte totals (`bpfSingleLookupZero_conserves`). A batch lookup is laundered like single ones where it adds up
the rows of the whole map, as the patch does (`Kpatch.vpnhideBpfLookupBatch_agrees`); the module adds up the rows of the
page (`bpfBatchLookupZero_agrees_iff`).
-/

namespace VpnHide

/-- `struct vh_stats_value`. -/
@[ext] structure StatsValue where
  rxBytes : UInt64
  rxPackets : UInt64
  txBytes : UInt64
  txPackets : UInt64
  deriving DecidableEq, Repr

def StatsValue.zero : StatsValue := ⟨0, 0, 0, 0⟩

/-- `struct vh_stats_key`. -/
structure StatsKey where
  uid : UInt32
  tag : UInt32
  counterSet : UInt32
  ifaceIndex : UInt32

def StatsKey.codec : Codec StatsKey :=
  (Codec.u32.prod (Codec.u32.prod (Codec.u32.prod Codec.u32))).iso (fun (a, b, c, d) => ⟨a, b, c, d⟩)
    (fun k => (k.uid, k.tag, k.counterSet, k.ifaceIndex)) fun _ => rfl

/-- `enum vh_bpf_map_kind`. -/
inductive BpfMapKind where
  | unknown
  | keyedUid
  | iface
  | other
  deriving DecidableEq, Repr

/-- A map of 32-byte values. The kernel finds a row by the bytes of its key. -/
structure BpfMap where
  name : List UInt8
  keySize : ℕ
  rows : List (List UInt8 × StatsValue)
  length_key : ∀ r ∈ rows, r.1.length = keySize
  nodup : (rows.map Prod.fst).Nodup

/-- The global state that the hooks read. -/
structure BpfGlobals where
  policy : Option PolicySnapshot
  /-- the interface indices of `global_active_vpns` -/
  vpns : Option (List UInt32)
  coverIfindex : UInt32
  statsPktsFirst : Bool

section Code
variable (g : BpfGlobals)

def isActiveVpnIfindex (vpns : Option (List UInt32)) (ifindex : UInt32) : Bool :=
  match vpns with
  | none => false
  | some vpns => vpns.any fun vpn => vpn == ifindex

def svRxBytes (sv : StatsValue) : UInt64 := if g.statsPktsFirst then sv.rxPackets else sv.rxBytes
def svTxBytes (sv : StatsValue) : UInt64 := if g.statsPktsFirst then sv.txPackets else sv.txBytes

/-! ### The module -/

def svAdd (dst src : StatsValue) : StatsValue :=
  if g.statsPktsFirst then
    { dst with
      rxPackets := dst.rxPackets + src.rxPackets
      rxBytes := dst.rxBytes + src.rxBytes
      txPackets := dst.txPackets + src.txPackets
      txBytes := dst.txBytes + src.txBytes }
  else
    { dst with
      rxBytes := dst.rxBytes + src.rxBytes
      rxPackets := dst.rxPackets + src.rxPackets
      txBytes := dst.txBytes + src.txBytes
      txPackets := dst.txPackets + src.txPackets }

def isKeyVpnOrTargetUid (kind : BpfMapKind) (key : List UInt8) : Bool :=
  match kind with
  | .keyedUid =>
    let sk := StatsKey.codec.decode key
    isActiveVpnIfindex g.vpns sk.ifaceIndex || isTargetUidVal g.policy sk.uid
  | .iface => isActiveVpnIfindex g.vpns (Codec.u32.decode key)
  | _ => false

def collectVpnTrafficSum (map : BpfMap) : StatsValue :=
  match g.vpns with
  | none => .zero
  | some vpns => vpns.foldl (fun vpnSum vpnIdx =>
      match rowAt map.rows (Codec.u32.encode vpnIdx) with
      | none => vpnSum
      | some sv => svAdd g vpnSum sv) .zero

def bpfSingleCoverUpdate (value vpnSum : StatsValue) : StatsValue :=
  if svRxBytes g vpnSum = 0 ∧ svTxBytes g vpnSum = 0 then value else svAdd g value vpnSum

/-- What the call leaves in the place of the value that the kernel has copied out. -/
def bpfSingleLookupZero (map : BpfMap) (kind : BpfMapKind) (key : List UInt8) (value : StatsValue) : StatsValue :=
  if isKeyVpnOrTargetUid g kind key then .zero
  else if kind = .iface ∧ g.coverIfindex ≠ 0 ∧ Codec.u32.decode key = g.coverIfindex then
    bpfSingleCoverUpdate g value (collectVpnTrafficSum g map)
  else value

/-- The loop over the rows of a page, with `vpn_sum` and `cover_pos`. -/
def batchLoop (kind : BpfMapKind) : List (List UInt8 × StatsValue) → ℕ → StatsValue → Option ℕ →
    List StatsValue × StatsValue × Option ℕ
  | [], _, vpnSum, coverPos => ([], vpnSum, coverPos)
  | (key, value) :: rest, i, vpnSum, coverPos =>
    let (value, vpnSum, coverPos) :=
      if kind = .iface then
        let ifindex := Codec.u32.decode key
        if isActiveVpnIfindex g.vpns ifindex then (.zero, svAdd g vpnSum value, coverPos)
        else if g.coverIfindex ≠ 0 ∧ ifindex = g.coverIfindex then (value, vpnSum, some i)
        else (value, vpnSum, coverPos)
      else if isKeyVpnOrTargetUid g kind key then (.zero, vpnSum, coverPos)
      else (value, vpnSum, coverPos)
    let (values, sums) := batchLoop kind rest (i + 1) vpnSum coverPos
    (value :: values, sums)

/-- What the call leaves in the place of the values of a page. Keys of more than 64 bytes in all need a buffer. -/
def bpfBatchLookupZero (kvmalloc : Bool) (kind : BpfMapKind) (keySize : ℕ) (page : List (List UInt8 × StatsValue)) :
    List StatsValue :=
  let count := page.length
  let raw := page.map Prod.snd
  if count = 0 ∨ count > 4096 ∨ keySize = 0 then raw
  else if count * keySize > 64 ∧ ¬ kvmalloc then raw
  else
    let (values, vpnSum, coverPos) := batchLoop g kind page 0 .zero none
    match coverPos with
    | none => values
    | some pos =>
      if svRxBytes g vpnSum ≠ 0 ∨ svTxBytes g vpnSum ≠ 0 then values.modify pos fun value => svAdd g value vpnSum
      else values

/-! ### The patch -/

namespace Kpatch

def svAdd (dst src : StatsValue) : StatsValue where
  rxBytes := dst.rxBytes + src.rxBytes
  rxPackets := dst.rxPackets + src.rxPackets
  txBytes := dst.txBytes + src.txBytes
  txPackets := dst.txPackets + src.txPackets

def vhIsWideStatsMap (map : BpfMap) : Bool :=
  strncmpEq 10 map.name (bytesOf "stats_map_") || strncmpEq 14 map.name (bytesOf "map_netd_stats")

def vhIsIfaceStatsMap (map : BpfMap) : Bool :=
  strncmpEq 11 map.name (bytesOf "iface_stats") || strncmpEq 15 map.name (bytesOf "map_netd_iface_") ||
    strncmpEq 12 map.name (bytesOf "tether_stats")

def vhIsVpnStatsKey (key : StatsKey) : Bool :=
  isActiveVpnIfindex g.vpns key.ifaceIndex || Kpatch.isTargetUidVal g.policy key.uid

def vhCollectVpnTrafficSum (map : BpfMap) : StatsValue :=
  match g.vpns with
  | none => .zero
  | some vpns => vpns.foldl (fun vpnSum vpnIdx =>
      match rowAt map.rows (Codec.u32.encode vpnIdx) with
      | none => vpnSum
      | some sv => Kpatch.svAdd vpnSum sv) .zero

/-- The caller is not served: the hook is off for everyone or for it, or it is a target itself. -/
def bypassed (uid : UInt32) : Bool :=
  vpnhideActiveHooksMask g.policy &&& HookIdx.bpf.bit = 0 || Kpatch.isTargetUidVal g.policy uid ||
    !Kpatch.isHookActive g.policy .bpf uid

def vpnhideBpfLookupElem (uid : UInt32) (map : BpfMap) (key : List UInt8) (sv : StatsValue) : StatsValue :=
  if bypassed g uid then sv
  else if vhIsWideStatsMap map then if vhIsVpnStatsKey g (StatsKey.codec.decode key) then .zero else sv
  else if vhIsIfaceStatsMap map then
    let ifindex := Codec.u32.decode key
    if isActiveVpnIfindex g.vpns ifindex then .zero
    else if g.coverIfindex ≠ 0 ∧ ifindex = g.coverIfindex then
      let vpnSum := vhCollectVpnTrafficSum g map
      if svRxBytes g vpnSum ≠ 0 ∨ svTxBytes g vpnSum ≠ 0 then Kpatch.svAdd sv vpnSum else sv
    else sv
  else sv

/-- The outcomes of the allocations and of the copies from and to user space. -/
structure BatchEnv where
  getCount : Bool
  keysAlloc : Bool
  valsAlloc : Bool
  copyKeys : Bool
  copyVals : Bool
  copyOut : Bool

/-- The values of a page after the loops. -/
def batchVals (map : BpfMap) (page : List (List UInt8 × StatsValue)) : List StatsValue :=
  let hide key := if vhIsWideStatsMap map then vhIsVpnStatsKey g (StatsKey.codec.decode key)
    else isActiveVpnIfindex g.vpns (Codec.u32.decode key)
  let vals := page.map fun (key, value) => if hide key then .zero else value
  if vhIsIfaceStatsMap map then
    -- from the map, since a batch can be a partial page
    let vpnSum := vhCollectVpnTrafficSum g map
    let coverPos :=
      if g.coverIfindex ≠ 0 ∧ (svRxBytes g vpnSum ≠ 0 ∨ svTxBytes g vpnSum ≠ 0) then
        page.findIdx? fun (key, _) => Codec.u32.decode key = g.coverIfindex
      else none
    match coverPos with
    | none => vals
    | some pos => vals.modify pos fun value => Kpatch.svAdd value vpnSum
  else vals

/-- The values that are written back, if they are. -/
def vpnhideBpfLookupBatch (env : BatchEnv) (uid : UInt32) (map : BpfMap) (page : List (List UInt8 × StatsValue)) :
    Option (List StatsValue) :=
  let count := page.length
  if bypassed g uid then none
  else if !vhIsWideStatsMap map && !vhIsIfaceStatsMap map then none
  else if ¬ env.getCount then none
  else if count = 0 ∨ count > 4096 then none
  else if ¬ env.keysAlloc ∨ ¬ env.valsAlloc then none
  else if ¬ env.copyKeys ∨ ¬ env.copyVals then none
  else if env.copyOut then some (batchVals g map page)
  else none

end Kpatch

end Code

/-! ### Adding up counters -/

namespace StatsValue

instance : Add StatsValue :=
  ⟨fun a b => ⟨a.rxBytes + b.rxBytes, a.rxPackets + b.rxPackets, a.txBytes + b.txBytes, a.txPackets + b.txPackets⟩⟩

instance : Zero StatsValue := ⟨zero⟩

instance : Neg StatsValue := ⟨fun a => ⟨-a.rxBytes, -a.rxPackets, -a.txBytes, -a.txPackets⟩⟩

instance : AddCommGroup StatsValue where
  add_assoc _ _ _ := StatsValue.ext (add_assoc ..) (add_assoc ..) (add_assoc ..) (add_assoc ..)
  zero_add _ := StatsValue.ext (zero_add _) (zero_add _) (zero_add _) (zero_add _)
  add_zero _ := StatsValue.ext (add_zero _) (add_zero _) (add_zero _) (add_zero _)
  add_comm _ _ := StatsValue.ext (add_comm ..) (add_comm ..) (add_comm ..) (add_comm ..)
  neg_add_cancel _ := StatsValue.ext (neg_add_cancel _) (neg_add_cancel _) (neg_add_cancel _) (neg_add_cancel _)
  nsmul := nsmulRec
  zsmul := zsmulRec

@[simp] theorem zero_eq : zero = 0 := rfl

end StatsValue

section Sums
variable (g : BpfGlobals)

theorem svAdd_eq (a b : StatsValue) : svAdd g a b = a + b := by
  unfold svAdd
  split_ifs <;> rfl

def svRxBytesHom : StatsValue →+ UInt64 where
  toFun := svRxBytes g
  map_zero' := by unfold svRxBytes; split_ifs <;> rfl
  map_add' a b := by unfold svRxBytes; split_ifs <;> rfl

def svTxBytesHom : StatsValue →+ UInt64 where
  toFun := svTxBytes g
  map_zero' := by unfold svTxBytes; split_ifs <;> rfl
  map_add' a b := by unfold svTxBytes; split_ifs <;> rfl

def NoBytes (sv : StatsValue) : Prop := svRxBytes g sv = 0 ∧ svTxBytes g sv = 0

instance (sv : StatsValue) : Decidable (NoBytes g sv) := inferInstanceAs (Decidable (_ ∧ _))

/-- A sum is moved only if it has bytes. -/
def moved (vpnSum : StatsValue) : StatsValue := if NoBytes g vpnSum then 0 else vpnSum

theorem moved_eq_zero {a : StatsValue} : moved g a = 0 ↔ NoBytes g a := by
  unfold moved
  split_ifs with ha
  · simp [ha]
  · refine iff_of_false (fun hzero => ha ?_) ha
    rw [hzero]
    exact ⟨map_zero (svRxBytesHom g), map_zero (svTxBytesHom g)⟩

theorem moved_eq_iff {a b : StatsValue} : moved g a = moved g b ↔ a = b ∨ NoBytes g a ∧ NoBytes g b := by
  by_cases ha : NoBytes g a
  · rw [(moved_eq_zero g).2 ha, eq_comm, moved_eq_zero]
    exact ⟨fun hb => .inr ⟨ha, hb⟩, fun h => h.elim (fun heq => heq ▸ ha) And.right⟩
  · by_cases hb : NoBytes g b
    · rw [(moved_eq_zero g).2 hb, moved_eq_zero]
      exact iff_of_false ha fun h => h.elim (fun heq => ha (heq ▸ hb)) fun h => ha h.1
    · simp [moved, ha, hb]

theorem bpfSingleCoverUpdate_eq (value vpnSum : StatsValue) :
    bpfSingleCoverUpdate g value vpnSum = value + moved g vpnSum := by
  unfold bpfSingleCoverUpdate
  by_cases hbytes : NoBytes g vpnSum
  · rw [if_pos (by exact hbytes), (moved_eq_zero g).2 hbytes, add_zero]
  · rw [if_neg (by exact hbytes), svAdd_eq, moved, if_neg hbytes]

/-- The key is that of an active VPN. -/
def vpnKey (key : List UInt8) : Bool := isActiveVpnIfindex g.vpns (Codec.u32.decode key)

/-- The counters of the VPN rows. -/
def vpnTotal (rows : List (List UInt8 × StatsValue)) : StatsValue := rowTotal (vpnKey g) rows

theorem foldl_rowAt (rows : List (List UInt8 × StatsValue)) (add : StatsValue → StatsValue → StatsValue)
    (hadd : ∀ a b, add a b = a + b) (vpns : List UInt32) (s : StatsValue) :
    vpns.foldl (fun vpnSum vpnIdx =>
      match rowAt rows (Codec.u32.encode vpnIdx) with
      | none => vpnSum
      | some sv => add vpnSum sv) s =
      s + ((vpns.map Codec.u32.encode).map fun key => (rowAt rows key).getD 0).sum := by
  induction vpns generalizing s with
  | nil => exact (add_zero s).symm
  | cons vpn vpns ih =>
    rw [List.foldl_cons, ih, List.map_cons, List.map_cons, List.sum_cons, ← add_assoc]
    congr 1
    cases rowAt rows (Codec.u32.encode vpn) with
    | none => exact (add_zero s).symm
    | some sv => exact hadd s sv

theorem isActiveVpnIfindex_some {vpns : List UInt32} {ifindex : UInt32} :
    isActiveVpnIfindex (some vpns) ifindex ↔ ifindex ∈ vpns := by
  simp [isActiveVpnIfindex]

theorem mem_map_encode {vpns : List UInt32} {key : List UInt8} (h : key.length = 4) :
    key ∈ vpns.map Codec.u32.encode ↔ Codec.u32.decode key ∈ vpns := by
  rw [List.mem_map]
  constructor
  · rintro ⟨vpn, hvpn, rfl⟩
    rwa [← List.append_nil (Codec.u32.encode vpn), Codec.decode_encode]
  · intro hmem
    exact ⟨_, hmem, Codec.u32_encode_decode h⟩

theorem u32_encode_injective : Function.Injective Codec.u32.encode := by
  intro a b h
  rw [← Codec.u32.decode_encode a [], h, Codec.decode_encode]

theorem vpnKey_iff {vpns : List UInt32} (hg : g.vpns = some vpns) {key : List UInt8} (h : key.length = 4) :
    vpnKey g key ↔ key ∈ vpns.map Codec.u32.encode := by
  rw [mem_map_encode h, vpnKey, hg, isActiveVpnIfindex_some]

/-- Summing up the VPNs one after the other gives the total of their rows. -/
theorem collectVpnTrafficSum_eq {map : BpfMap} (hkey : map.keySize = 4)
    (hvpns : ∀ vpns, g.vpns = some vpns → vpns.Nodup) :
    collectVpnTrafficSum g map = vpnTotal g map.rows := by
  unfold collectVpnTrafficSum vpnTotal
  cases hg : g.vpns with
  | none =>
    have hnone : map.rows.filter (fun r => vpnKey g r.1) = [] := by
      refine List.filter_eq_nil_iff.2 fun r _ => ?_
      simp [vpnKey, hg, isActiveVpnIfindex]
    rw [rowTotal, hnone]
    rfl
  | some vpns =>
    have hn := (hvpns vpns hg).map u32_encode_injective
    dsimp only
    rw [foldl_rowAt map.rows _ (svAdd_eq g), sum_rowAt map.nodup hn]
    refine (zero_add _).trans (rowTotal_congr fun r hr => ?_)
    rw [Bool.eq_iff_iff, vpnKey_iff g hg ((map.length_key r hr).trans hkey)]
    simp

/-! ### Single lookups -/

/-- A row of an interface map as it is seen if `vpnSum` is what the VPNs had. -/
def launder (vpnSum : StatsValue) (r : List UInt8 × StatsValue) : StatsValue :=
  if vpnKey g r.1 then 0
  else if g.coverIfindex ≠ 0 ∧ Codec.u32.decode r.1 = g.coverIfindex then r.2 + moved g vpnSum
  else r.2

theorem bpfSingleLookupZero_iface {map : BpfMap} (hkey : map.keySize = 4)
    (hvpns : ∀ vpns, g.vpns = some vpns → vpns.Nodup) (r : List UInt8 × StatsValue) :
    bpfSingleLookupZero g map .iface r.1 r.2 = launder g (vpnTotal g map.rows) r := by
  simp only [bpfSingleLookupZero, isKeyVpnOrTargetUid, launder, vpnKey, bpfSingleCoverUpdate_eq,
    collectVpnTrafficSum_eq g hkey hvpns, true_and]
  rfl

theorem svRxBytesHom_moved (vpnSum : StatsValue) : svRxBytesHom g (moved g vpnSum) = svRxBytesHom g vpnSum := by
  unfold moved
  split_ifs with h
  · rw [map_zero]
    exact h.1.symm
  · rfl

theorem svTxBytesHom_moved (vpnSum : StatsValue) : svTxBytesHom g (moved g vpnSum) = svTxBytesHom g vpnSum := by
  unfold moved
  split_ifs with h
  · rw [map_zero]
    exact h.2.symm
  · rfl

theorem sum_launder {map : BpfMap} (hkey : map.keySize = 4) (hcover : g.coverIfindex ≠ 0)
    (hactive : ¬ isActiveVpnIfindex g.vpns g.coverIfindex)
    (hmem : ∃ r ∈ map.rows, Codec.u32.decode r.1 = g.coverIfindex)
    (f : StatsValue →+ UInt64) (hf : ∀ vpnSum, f (moved g vpnSum) = f vpnSum) :
    (map.rows.map fun r => f (launder g (vpnTotal g map.rows) r)).sum = (map.rows.map fun r => f r.2).sum := by
  obtain ⟨c, hc, hdecode⟩ := hmem
  have hrow : ∀ r ∈ map.rows, (Codec.u32.decode r.1 = g.coverIfindex ↔ r.1 = c.1) := by
    intro r hr
    rw [← hdecode]
    refine ⟨fun h => ?_, fun h => by rw [h]⟩
    exact Codec.u32_decode_inj ((map.length_key r hr).trans hkey) ((map.length_key c hc).trans hkey) h
  -- the same rows, with the one counter that is added up
  let rows := map.rows.map fun r => (r.1, f r.2)
  have hkeys : rows.map Prod.fst = map.rows.map Prod.fst := by rw [List.map_map]; rfl
  have hnodup : (rows.map Prod.fst).Nodup := hkeys ▸ map.nodup
  have hsum := sum_moved hnodup (k := c.1) (p := vpnKey g) (by rwa [vpnKey, hdecode])
    (hkeys ▸ List.mem_map_of_mem hc)
  rw [List.map_map, List.map_map] at hsum
  refine Eq.trans (congrArg List.sum (List.map_congr_left fun r hr => ?_)) hsum
  simp only [Function.comp_apply, launder, hrow r hr, ne_eq, hcover, not_false_eq_true, true_and, vpnTotal,
    ← map_rowTotal, rows]
  split_ifs
  · exact map_zero f
  · rw [map_add, hf]
  · rfl

/-- Seen through single lookups, the map has the bytes that it has. -/
theorem bpfSingleLookupZero_conserves {map : BpfMap} (hkey : map.keySize = 4)
    (hvpns : ∀ vpns, g.vpns = some vpns → vpns.Nodup) (hcover : g.coverIfindex ≠ 0)
    (hactive : ¬ isActiveVpnIfindex g.vpns g.coverIfindex)
    (hmem : ∃ r ∈ map.rows, Codec.u32.decode r.1 = g.coverIfindex) :
    let seen := fun r : List UInt8 × StatsValue => bpfSingleLookupZero g map .iface r.1 r.2
    (map.rows.map fun r => svRxBytes g (seen r)).sum = (map.rows.map fun r => svRxBytes g r.2).sum ∧
      (map.rows.map fun r => svTxBytes g (seen r)).sum = (map.rows.map fun r => svTxBytes g r.2).sum ∧
      (∀ r ∈ map.rows, isActiveVpnIfindex g.vpns (Codec.u32.decode r.1) → seen r = .zero) ∧
      ∀ r ∈ map.rows, ¬ isActiveVpnIfindex g.vpns (Codec.u32.decode r.1) → Codec.u32.decode r.1 ≠ g.coverIfindex →
        seen r = r.2 := by
  intro seen
  have hseen : ∀ r, seen r = launder g (vpnTotal g map.rows) r := bpfSingleLookupZero_iface g hkey hvpns
  simp only [hseen]
  refine ⟨sum_launder g hkey hcover hactive hmem (svRxBytesHom g) (svRxBytesHom_moved g),
    sum_launder g hkey hcover hactive hmem (svTxBytesHom g) (svTxBytesHom_moved g), fun r _ hvpn => if_pos hvpn, ?_⟩
  intro r _ hvpn hne
  rw [launder, if_neg (by exact hvpn), if_neg fun h => hne h.2]

/-- The VPN has index 7, the cover index 3. -/
def wlanAndTun : BpfGlobals where
  policy := some (oneTargetPolicy .bpf 10100)
  vpns := some [7]
  coverIfindex := 3
  statsPktsFirst := false

def wlanRow : List UInt8 × StatsValue := (Codec.u32.encode 3, ⟨1000, 10, 2000, 20⟩)
def tunRow : List UInt8 × StatsValue := (Codec.u32.encode 7, ⟨50, 1, 60, 2⟩)

def ifaceStatsMap : BpfMap where
  name := bytesOf "iface_stats_map"
  keySize := 4
  rows := [wlanRow, tunRow]
  length_key := by decide +kernel
  nodup := by decide +kernel

theorem bpfSingleLookupZero_conserves_ifaceStatsMap :
    (ifaceStatsMap.rows.map fun r =>
      svRxBytes wlanAndTun (bpfSingleLookupZero wlanAndTun ifaceStatsMap .iface r.1 r.2)).sum =
      1050 := by
  have hvpns : ∀ vpns, wlanAndTun.vpns = some vpns → vpns.Nodup := by
    rintro vpns ⟨⟩
    exact List.nodup_singleton 7
  rw [(bpfSingleLookupZero_conserves wlanAndTun rfl hvpns (by decide) (by decide)
    ⟨wlanRow, List.mem_cons_self, by decide +kernel⟩).1]
  decide +kernel

/-! ### Batch lookups -/

/-- The row to which the VPN traffic is moved. -/
def coverRow (r : List UInt8 × StatsValue) : Bool :=
  !vpnKey g r.1 && (g.coverIfindex ≠ 0 ∧ Codec.u32.decode r.1 = g.coverIfindex)

theorem coverRow_iff {r : List UInt8 × StatsValue} :
    coverRow g r ↔ ¬ vpnKey g r.1 ∧ g.coverIfindex ≠ 0 ∧ Codec.u32.decode r.1 = g.coverIfindex := by
  simp [coverRow]

theorem launder_eq (vpnSum : StatsValue) (r : List UInt8 × StatsValue) :
    launder g vpnSum r =
      if coverRow g r then (if vpnKey g r.1 then 0 else r.2) + moved g vpnSum else if vpnKey g r.1 then 0 else r.2 := by
  unfold launder coverRow
  by_cases hvpn : vpnKey g r.1 <;> simp [hvpn]

theorem coverRow_pairwise {page : List (List UInt8 × StatsValue)} (hlen : ∀ r ∈ page, r.1.length = 4)
    (hn : (page.map Prod.fst).Nodup) : page.Pairwise fun a b => ¬ (coverRow g a ∧ coverRow g b) := by
  refine (List.pairwise_map.1 hn).imp_of_mem fun ha hb hne => ?_
  rintro ⟨ha', hb'⟩
  have heq := ((coverRow_iff g).1 ha').2.2.trans ((coverRow_iff g).1 hb').2.2.symm
  exact hne (Codec.u32_decode_inj (hlen _ ha) (hlen _ hb) heq)

theorem modify_cover {page : List (List UInt8 × StatsValue)}
    (hone : page.Pairwise fun a b => ¬ (coverRow g a ∧ coverRow g b)) (vpnSum : StatsValue) :
    let vals := page.map fun r => if vpnKey g r.1 then 0 else r.2
    (page.findIdx? (coverRow g)).elim vals (fun pos => vals.modify pos (· + moved g vpnSum)) =
      page.map (launder g vpnSum) := by
  intro vals
  rw [modify_findIdx? hone]
  exact List.map_congr_left fun r _ => (launder_eq g vpnSum r).symm

theorem modify_moved (vals : List StatsValue) (pos : ℕ) (vpnSum : StatsValue) :
    (if svRxBytes g vpnSum ≠ 0 ∨ svTxBytes g vpnSum ≠ 0 then vals.modify pos (· + vpnSum) else vals) =
      vals.modify pos (· + moved g vpnSum) := by
  by_cases hbytes : svRxBytes g vpnSum ≠ 0 ∨ svTxBytes g vpnSum ≠ 0
  · rw [if_pos hbytes, moved, if_neg (by rw [NoBytes]; tauto)]
  · rw [if_neg hbytes, (moved_eq_zero g).2 (by rw [NoBytes]; tauto)]
    simp only [add_zero]
    exact (List.modify_id pos vals).symm

theorem batchLoop_cons (r : List UInt8 × StatsValue) (page : List (List UInt8 × StatsValue)) (i : ℕ)
    (vpnSum : StatsValue) (coverPos : Option ℕ) :
    batchLoop g .iface (r :: page) i vpnSum coverPos =
      ((if vpnKey g r.1 then 0 else r.2) ::
        (batchLoop g .iface page (i + 1) (vpnSum + if vpnKey g r.1 then r.2 else 0)
          (if coverRow g r then some i else coverPos)).1,
        (batchLoop g .iface page (i + 1) (vpnSum + if vpnKey g r.1 then r.2 else 0)
          (if coverRow g r then some i else coverPos)).2) := by
  obtain ⟨key, value⟩ := r
  simp only [batchLoop, coverRow, vpnKey, svAdd_eq, StatsValue.zero_eq, if_true]
  by_cases hvpn : isActiveVpnIfindex g.vpns (Codec.u32.decode key)
  · simp [hvpn]
  · simp only [hvpn, Bool.false_eq_true, if_false, Bool.not_false, Bool.true_and, decide_eq_true_eq, add_zero]
    split_ifs <;> rfl

theorem batchLoop_iface {page : List (List UInt8 × StatsValue)}
    (hone : page.Pairwise fun a b => ¬ (coverRow g a ∧ coverRow g b)) (i : ℕ) (vpnSum : StatsValue)
    (coverPos : Option ℕ) :
    batchLoop g .iface page i vpnSum coverPos =
      (page.map fun r => if vpnKey g r.1 then 0 else r.2, vpnSum + vpnTotal g page,
        ((page.findIdx? (coverRow g)).map (i + ·)).or coverPos) := by
  induction page generalizing i vpnSum coverPos with
  | nil => exact Prod.ext rfl (Prod.ext (add_zero vpnSum).symm rfl)
  | cons r page ih =>
    obtain ⟨hr, hpage⟩ := List.pairwise_cons.1 hone
    rw [batchLoop_cons, ih hpage, List.findIdx?_cons, vpnTotal, vpnTotal, rowTotal_cons, List.map_cons, add_assoc]
    refine Prod.ext rfl (Prod.ext rfl ?_)
    by_cases hcover : coverRow g r
    · -- no later row replaces this place
      have hnone : page.findIdx? (coverRow g) = none :=
        List.findIdx?_eq_none_iff.2 fun r' hr' => Bool.eq_false_iff.2 fun h => hr r' hr' ⟨hcover, h⟩
      simp [hcover, hnone]
    · have hshift : (fun j : ℕ => i + 1 + j) = fun j => i + (j + 1) := funext fun j => by omega
      simp only [hcover, if_false, Bool.false_eq_true, Option.map_map, hshift]
      rfl

/-- A page that the batch works on: it has up to 4096 rows, and their keys are at most 64 bytes or could be copied. -/
def Processed (kvmalloc : Bool) (page : List (List UInt8 × StatsValue)) : Prop :=
  page.length ≤ 4096 ∧ (page.length * 4 ≤ 64 ∨ kvmalloc)

theorem bpfBatchLookupZero_iface {page : List (List UInt8 × StatsValue)} (hlen : ∀ r ∈ page, r.1.length = 4)
    (hn : (page.map Prod.fst).Nodup) {kvmalloc : Bool} (h : Processed kvmalloc page) :
    bpfBatchLookupZero g kvmalloc .iface 4 page = page.map (launder g (vpnTotal g page)) := by
  have hone := coverRow_pairwise g hlen hn
  unfold bpfBatchLookupZero
  by_cases hnil : page = []
  · simp [hnil]
  · have hcount : ¬ (page.length = 0 ∨ page.length > 4096 ∨ 4 = 0) := by
      have hpos := List.length_pos_iff.2 hnil
      have hle := h.1
      omega
    have hkeys : ¬ (page.length * 4 > 64 ∧ ¬ kvmalloc) := by
      rintro ⟨hgt, hfail⟩
      exact h.2.elim (by omega) hfail
    rw [if_neg hcount, if_neg hkeys, batchLoop_iface g hone, ← modify_cover g hone]
    simp only [svAdd_eq, modify_moved, Option.or_none, zero_add]
    cases page.findIdx? (coverRow g) <;> simp [StatsValue.zero_eq]

theorem bpfBatchLookupZero_raw {page : List (List UInt8 × StatsValue)} {kvmalloc : Bool} (h : ¬ Processed kvmalloc page)
    (kind : BpfMapKind) : bpfBatchLookupZero g kvmalloc kind 4 page = page.map Prod.snd := by
  unfold bpfBatchLookupZero
  by_cases hcount : page.length = 0 ∨ page.length > 4096 ∨ 4 = 0
  · exact if_pos hcount
  · have hkeys : page.length * 4 > 64 ∧ ¬ kvmalloc := by
      by_contra hno
      rw [not_and_or, not_not, not_lt] at hno
      exact h ⟨by omega, hno⟩
    exact (if_neg hcount).trans (if_pos hkeys)

theorem launder_eq_iff {a b : StatsValue} {r : List UInt8 × StatsValue} :
    launder g a r = launder g b r ↔ (coverRow g r → moved g a = moved g b) := by
  rw [launder_eq, launder_eq]
  by_cases hcover : coverRow g r <;> simp [hcover]

theorem eq_launder_iff {vpnSum : StatsValue} {r : List UInt8 × StatsValue} :
    r.2 = launder g vpnSum r ↔ (vpnKey g r.1 → r.2 = 0) ∧ (coverRow g r → NoBytes g vpnSum) := by
  rw [launder_eq]
  by_cases hvpn : vpnKey g r.1
  · have hcover : ¬ coverRow g r := fun h => ((coverRow_iff g).1 h).1 hvpn
    simp [hvpn, hcover]
  · by_cases hcover : coverRow g r <;> simp [hvpn, hcover, moved_eq_zero]

/-- The rows of the page say what the VPN rows of the map had, if it is asked for. On a page that is left as it is there
is nothing to hide. -/
def PageSuffices (kvmalloc : Bool) (rows page : List (List UInt8 × StatsValue)) : Prop :=
  (Processed kvmalloc page → (∃ r ∈ page, coverRow g r) →
    vpnTotal g page = vpnTotal g rows ∨ NoBytes g (vpnTotal g page) ∧ NoBytes g (vpnTotal g rows)) ∧
  (¬ Processed kvmalloc page →
    (∀ r ∈ page, vpnKey g r.1 → r.2 = 0) ∧ ((∃ r ∈ page, coverRow g r) → NoBytes g (vpnTotal g rows)))

/-- The batch call leaves what single calls for its keys leave. -/
theorem bpfBatchLookupZero_agrees_iff {map : BpfMap} (hkey : map.keySize = 4)
    (hvpns : ∀ vpns, g.vpns = some vpns → vpns.Nodup) {page : List (List UInt8 × StatsValue)}
    (hpage : ∀ r ∈ page, r ∈ map.rows) (hn : (page.map Prod.fst).Nodup) (kvmalloc : Bool) :
    bpfBatchLookupZero g kvmalloc .iface map.keySize page =
      page.map (fun r => bpfSingleLookupZero g map .iface r.1 r.2) ↔
      PageSuffices g kvmalloc map.rows page := by
  have hlen : ∀ r ∈ page, r.1.length = 4 := fun r hr => (map.length_key r (hpage r hr)).trans hkey
  simp only [hkey, bpfSingleLookupZero_iface g hkey hvpns]
  by_cases hprocessed : Processed kvmalloc page
  · rw [bpfBatchLookupZero_iface g hlen hn hprocessed, List.map_inj_left]
    simp only [launder_eq_iff, moved_eq_iff, PageSuffices, hprocessed, true_implies, not_true, false_implies, and_true]
    exact ⟨fun h ⟨r, hr, hcover⟩ => h r hr hcover, fun h r hr hcover => h ⟨r, hr, hcover⟩⟩
  · rw [bpfBatchLookupZero_raw g hprocessed, List.map_inj_left]
    simp only [eq_launder_iff, PageSuffices, hprocessed, false_implies, not_false_eq_true, true_implies, true_and]
    constructor
    · intro h
      exact ⟨fun r hr => (h r hr).1, fun ⟨r, hr, hcover⟩ => (h r hr).2 hcover⟩
    · intro h r hr
      exact ⟨h.1 r hr, fun hcover => h.2 ⟨r, hr, hcover⟩⟩

theorem bpfBatchLookupZero_agrees_wholePage :
    bpfBatchLookupZero wlanAndTun true .iface 4 [tunRow, wlanRow] =
      [tunRow, wlanRow].map fun r => bpfSingleLookupZero wlanAndTun ifaceStatsMap .iface r.1 r.2 := by
  have hvpns : ∀ vpns, wlanAndTun.vpns = some vpns → vpns.Nodup := by
    rintro vpns ⟨⟩
    exact List.nodup_singleton 7
  have hkey : ifaceStatsMap.keySize = 4 := rfl
  refine (bpfBatchLookupZero_agrees_iff wlanAndTun hkey hvpns (by decide +kernel) (by decide +kernel) true).2
    ⟨fun _ _ => .inl (by decide +kernel), fun h => absurd ?_ h⟩
  exact ⟨by decide, .inr rfl⟩

/-- The page has the cover's row and not that of the VPN. -/
theorem bpfBatchLookupZero_disagrees :
    bpfBatchLookupZero wlanAndTun true .iface 4 [wlanRow] = [⟨1000, 10, 2000, 20⟩] ∧
      bpfSingleLookupZero wlanAndTun ifaceStatsMap .iface wlanRow.1 wlanRow.2 = ⟨1050, 11, 2060, 22⟩ := by
  decide +kernel

end Sums

/-! ### Batch lookups of the patch -/

namespace Kpatch

section Names
variable {map : BpfMap}

theorem vhIsWideStatsMap_iff :
    vhIsWideStatsMap map ↔ ∃ pattern ∈ [bytesOf "stats_map_", bytesOf "map_netd_stats"], pattern <+: map.name := by
  have hstats := strncmpEq_iff_prefix (bytesOf "stats_map_") (by decide) map.name
  have hnetd := strncmpEq_iff_prefix (bytesOf "map_netd_stats") (by decide) map.name
  rw [vhIsWideStatsMap, Bool.or_eq_true]
  exact (or_congr hstats hnetd).trans (by simp)

theorem vhIsIfaceStatsMap_iff :
    vhIsIfaceStatsMap map ↔ ∃ pattern ∈ [bytesOf "iface_stats", bytesOf "map_netd_iface_", bytesOf "tether_stats"],
      pattern <+: map.name := by
  have hiface := strncmpEq_iff_prefix (bytesOf "iface_stats") (by decide) map.name
  have hnetd := strncmpEq_iff_prefix (bytesOf "map_netd_iface_") (by decide) map.name
  have htether := strncmpEq_iff_prefix (bytesOf "tether_stats") (by decide) map.name
  rw [vhIsIfaceStatsMap, Bool.or_eq_true, Bool.or_eq_true, or_assoc]
  exact (or_congr hiface (or_congr hnetd htether)).trans (by simp)

theorem not_vhIsIfaceStatsMap (hwide : vhIsWideStatsMap map) : ¬ vhIsIfaceStatsMap map := by
  intro hiface
  obtain ⟨p, hp, hpname⟩ := vhIsWideStatsMap_iff.1 hwide
  obtain ⟨q, hq, hqname⟩ := vhIsIfaceStatsMap_iff.1 hiface
  have hdisjoint : ∀ p ∈ [bytesOf "stats_map_", bytesOf "map_netd_stats"],
      ∀ q ∈ [bytesOf "iface_stats", bytesOf "map_netd_iface_", bytesOf "tether_stats"],
        ¬ p.isPrefixOf q ∧ ¬ q.isPrefixOf p := by decide +kernel
  rcases List.prefix_or_prefix_of_prefix hpname hqname with h | h
  · exact (hdisjoint p hp q hq).1 (List.isPrefixOf_iff_prefix.2 h)
  · exact (hdisjoint p hp q hq).2 (List.isPrefixOf_iff_prefix.2 h)

end Names

section Batch
variable (g : BpfGlobals) {uid : UInt32} {map : BpfMap} {page : List (List UInt8 × StatsValue)}

theorem vpnhideBpfLookupElem_wide (hserved : ¬ bypassed g uid) (hwide : vhIsWideStatsMap map)
    (r : List UInt8 × StatsValue) :
    vpnhideBpfLookupElem g uid map r.1 r.2 = if vhIsVpnStatsKey g (StatsKey.codec.decode r.1) then .zero else r.2 := by
  rw [vpnhideBpfLookupElem, if_neg hserved, if_pos hwide]

theorem vpnhideBpfLookupElem_iface (hserved : ¬ bypassed g uid) (hiface : vhIsIfaceStatsMap map)
    (r : List UInt8 × StatsValue) :
    vpnhideBpfLookupElem g uid map r.1 r.2 = launder g (vhCollectVpnTrafficSum g map) r := by
  have hwide : ¬ vhIsWideStatsMap map := fun h => not_vhIsIfaceStatsMap h hiface
  have hmoved (vpnSum : StatsValue) :
      (if svRxBytes g vpnSum ≠ 0 ∨ svTxBytes g vpnSum ≠ 0 then Kpatch.svAdd r.2 vpnSum else r.2) =
        r.2 + moved g vpnSum := by
    by_cases hbytes : NoBytes g vpnSum
    · rw [(moved_eq_zero g).2 hbytes, add_zero, if_neg (by unfold NoBytes at hbytes; tauto)]
    · rw [moved, if_neg hbytes, if_pos (by unfold NoBytes at hbytes; tauto)]
      rfl
  rw [vpnhideBpfLookupElem, if_neg hserved, if_neg hwide, if_pos hiface]
  simp only [hmoved]
  rfl

theorem batchVals_wide (hserved : ¬ bypassed g uid) (hwide : vhIsWideStatsMap map) :
    batchVals g map page = page.map fun r => vpnhideBpfLookupElem g uid map r.1 r.2 := by
  simp only [vpnhideBpfLookupElem_wide g hserved hwide, batchVals, hwide, not_vhIsIfaceStatsMap hwide,
    if_true, if_false, Bool.false_eq_true]

theorem batchVals_iface (hserved : ¬ bypassed g uid) (hiface : vhIsIfaceStatsMap map)
    (hlen : ∀ r ∈ page, r.1.length = 4)
    (hn : (page.map Prod.fst).Nodup) (hcover : ¬ isActiveVpnIfindex g.vpns g.coverIfindex) :
    batchVals g map page = page.map fun r => vpnhideBpfLookupElem g uid map r.1 r.2 := by
  have hwide : ¬ vhIsWideStatsMap map := fun h => not_vhIsIfaceStatsMap h hiface
  simp only [vpnhideBpfLookupElem_iface g hserved hiface, batchVals, hwide, hiface, if_true, if_false,
    Bool.false_eq_true]
  generalize vhCollectVpnTrafficSum g map = vpnSum
  refine Eq.trans ?_ (modify_cover g (coverRow_pairwise g hlen hn) vpnSum)
  by_cases hzero : g.coverIfindex = 0
  · have hnone : page.findIdx? (coverRow g) = none :=
      List.findIdx?_eq_none_iff.2 fun r _ => by simp [coverRow, hzero]
    rw [hnone, if_neg fun h => h.1 hzero]
    rfl
  · -- the search stops at the one row of the cover, which is no VPN's
    have hrow : (fun r : List UInt8 × StatsValue => decide (Codec.u32.decode r.1 = g.coverIfindex)) = coverRow g := by
      funext r
      by_cases hidx : Codec.u32.decode r.1 = g.coverIfindex
      · simp [coverRow, vpnKey, hidx, hcover, hzero]
      · simp [coverRow, hidx]
    rw [hrow]
    by_cases hbytes : NoBytes g vpnSum
    · rw [if_neg (by unfold NoBytes at hbytes; tauto), (moved_eq_zero g).2 hbytes]
      simp only [add_zero]
      cases page.findIdx? (coverRow g) with
      | none => rfl
      | some pos => exact (List.modify_id pos _).symm
    · rw [if_pos (by unfold NoBytes at hbytes; tauto), moved, if_neg hbytes]
      cases page.findIdx? (coverRow g) <;> rfl

/-- What a batch call writes back is what single calls leave, and a call without faults leaves that. -/
theorem vpnhideBpfLookupBatch_agrees (env : BatchEnv) (uid : UInt32)
    (hmap : vhIsWideStatsMap map ∨ vhIsIfaceStatsMap map ∧ map.keySize = 4)
    (hlen : ∀ r ∈ page, r.1.length = map.keySize)
    (hn : (page.map Prod.fst).Nodup) (hpage : 1 ≤ page.length ∧ page.length ≤ 4096)
    (hcover : ¬ isActiveVpnIfindex g.vpns g.coverIfindex) :
    (∀ vals, vpnhideBpfLookupBatch g env uid map page = some vals →
      vals = page.map fun r => vpnhideBpfLookupElem g uid map r.1 r.2) ∧
    (env.getCount ∧ env.keysAlloc ∧ env.valsAlloc ∧ env.copyKeys ∧ env.copyVals ∧ env.copyOut →
      (vpnhideBpfLookupBatch g env uid map page).getD (page.map Prod.snd) =
        page.map fun r => vpnhideBpfLookupElem g uid map r.1 r.2) := by
  by_cases hserved : bypassed g uid
  · -- neither call changes anything
    have helem : ∀ r : List UInt8 × StatsValue, vpnhideBpfLookupElem g uid map r.1 r.2 = r.2 := fun r => if_pos hserved
    have hnone : vpnhideBpfLookupBatch g env uid map page = none := if_pos hserved
    simp [helem, hnone]
  · have hvals : batchVals g map page = page.map fun r => vpnhideBpfLookupElem g uid map r.1 r.2 := by
      rcases hmap with hwide | ⟨hiface, hkey⟩
      · exact batchVals_wide g hserved hwide
      · exact batchVals_iface g hserved hiface (fun r hr => (hlen r hr).trans hkey) hn hcover
    have hstats : ¬ (!vhIsWideStatsMap map && !vhIsIfaceStatsMap map) := by
      rcases hmap with hwide | ⟨hiface, -⟩
      · simp [hwide]
      · simp [hiface]
    have hcount : ¬ (page.length = 0 ∨ page.length > 4096) := by omega
    rw [← hvals]
    unfold vpnhideBpfLookupBatch
    simp only [hserved, if_false, hstats, hcount, Bool.false_eq_true]
    constructor
    · intro vals h
      split_ifs at h
      exact (Option.some.inj h).symm
    · rintro ⟨h1, h2, h3, h4, h5, h6⟩
      simp [h1, h2, h3, h4, h5, h6]

theorem vpnhideBpfLookupBatch_agrees_partialPage :
    vpnhideBpfLookupBatch wlanAndTun ⟨true, true, true, true, true, true⟩ 1000 ifaceStatsMap [wlanRow] =
        some [⟨1050, 11, 2060, 22⟩] ∧
      vpnhideBpfLookupElem wlanAndTun 1000 ifaceStatsMap wlanRow.1 wlanRow.2 = ⟨1050, 11, 2060, 22⟩ := by
  have hbatch : vpnhideBpfLookupBatch wlanAndTun ⟨true, true, true, true, true, true⟩ 1000 ifaceStatsMap [wlanRow] =
      some [⟨1050, 11, 2060, 22⟩] := by decide +kernel
  have hmap : vhIsIfaceStatsMap ifaceStatsMap ∧ ifaceStatsMap.keySize = 4 := ⟨by decide +kernel, rfl⟩
  have hlen : ∀ r ∈ [wlanRow], r.1.length = ifaceStatsMap.keySize := by decide +kernel
  have hagrees := (vpnhideBpfLookupBatch_agrees wlanAndTun ⟨true, true, true, true, true, true⟩ 1000 (.inr hmap) hlen
    (by decide) (by decide) (by decide)).1 _ hbatch
  exact ⟨hbatch, (List.cons.inj hagrees).1.symm⟩

end Batch

end Kpatch

end VpnHide
