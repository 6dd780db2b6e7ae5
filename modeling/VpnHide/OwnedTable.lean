import VpnHide.OwnedPorts
import VpnHide.Lib.Probing
import VpnHide.Lib.Result

/-!
# The table of owned ports (`replace_owned_ports`)

The daemon replaces the set of ports the apps own as a whole. The kernel builds a new hash table of at least
twice as many buckets as entries; a bucket is empty as long as its uid is zero. The finished table answers
exactly for the entries of the update (`buildOwnedPorts_contains`).
-/

namespace VpnHide

/-! ### The code -/

def OwnedPort.codec : Codec OwnedPort :=
  (Codec.u32.prod (Codec.u16.prod (Codec.u8.prod (Codec.u8.prod (Codec.u32.vector 4))))).iso
    (fun (a, b, c, d, e) => ⟨a, b, c, d, e⟩)
    (fun o => (o.uid, o.port, o.protocol, o.family, o.address)) fun _ => rfl

def ownedPortsMax : UInt32 := 65536

def UserPtr.isNull : UserPtr → Bool
  | .null => true
  | .mapped _ => false

structure OwnedPortsUpdate where
  count : UInt32
  reserved : UInt32
  entriesPtr : UserPtr

/-- `while (buckets < wanted) buckets <<= 1`. No `u32` can be shifted more than 32 times. -/
def growBuckets (wanted : UInt32) : ℕ → UInt32 → UInt32
  | 0, buckets => buckets
  | steps + 1, buckets => if buckets < wanted then growBuckets wanted steps (buckets <<< 1) else buckets

/-- Which allocations of `replace_owned_ports` succeed. -/
structure OwnedAllocs where
  entries : Bool
  snapshot : Bool

def readOwnedEntries (kvmallocArray : Bool) (update : OwnedPortsUpdate) : Except Errno (List OwnedPort) :=
  if update.count = 0 then .ok []
  else if !kvmallocArray then .error .enomem
  else match copyFromUser update.entriesPtr (update.count.toNat * OwnedPort.codec.size) with
    | none => .error .efault
    | some bytes => .ok (OwnedPort.codec.decodeArray update.count.toNat bytes)

def ownedEntryInvalid (entry : OwnedPort) : Bool :=
  entry.uid == 0 || entry.port == 0 || entry.protocol > protoUdp || !ownedPortIsLocal entry

/-- The probe loop that stores an entry, `probes` steps from its end. -/
def placeOwned (entry : OwnedPort) : ℕ → UInt32 → OwnedPortsSnapshot → OwnedPortsSnapshot
  | 0, _, snapshot => snapshot
  | probes + 1, slot, snapshot =>
    match snapshot.buckets[slot.toNat]? with
    | none => snapshot
    | some dst =>
      if dst.uid = 0 then
        { snapshot with buckets := snapshot.buckets.set slot.toNat entry, entryCount := snapshot.entryCount + 1 }
      else if ownedPortEqual dst entry then snapshot
      else placeOwned entry probes ((slot + 1) &&& (UInt32.ofNat snapshot.buckets.length - 1)) snapshot

/-- The body of the loop over the entries. -/
def storeOwned (snapshot : OwnedPortsSnapshot) (entry : OwnedPort) : Except Errno OwnedPortsSnapshot := do
  rejectIf (ownedEntryInvalid entry) .einval
  return placeOwned entry snapshot.buckets.length
    (ownedPortHash entry &&& (UInt32.ofNat snapshot.buckets.length - 1)) snapshot

/-- `replace_owned_ports` up to the lock. -/
def buildOwnedPorts (alloc : OwnedAllocs) (hz jiffies : UInt64) (update : OwnedPortsUpdate) :
    Except Errno OwnedPortsSnapshot := do
  rejectIf (update.reserved ≠ 0 ∨ update.count > ownedPortsMax ∨
    (update.count ≠ 0 ∧ update.entriesPtr.isNull)) .einval
  let buckets := growBuckets (max 8 (update.count * 2)) 32 8
  let entries ← readOwnedEntries alloc.entries update
  rejectIf (!alloc.snapshot) .enomem
  entries.foldlM storeOwned ⟨0, jiffies + 120 * hz, List.replicate buckets.toNat OwnedPort.zero⟩

/-! ### Local addresses -/

/-- A loopback or unspecified address. -/
def LocalAddress (family : UInt8) (address : Address) : Prop :=
  (family = afInet ∧ ∃ a : UInt32, address = v4Address a ∧ V4Local a) ∨ (family = afInet6 ∧ V6Local address)

theorem ownedPortIsLocal_iff (owner : OwnedPort) :
    ownedPortIsLocal owner ↔ LocalAddress owner.family owner.address := by
  unfold ownedPortIsLocal LocalAddress
  by_cases h4 : owner.family = afInet
  · have h6 : owner.family ≠ afInet6 := by rw [h4]; decide
    rw [if_pos h4, or_iff_left (fun h => h6 h.1), and_iff_right h4]
    obtain ⟨⟨words⟩, hsize⟩ := owner.address
    match words, hsize with
    | [a, b, c, d], _ =>
      have hlocal := v4Local_eq a
      rw [Bool.or_comm] at hlocal
      simp [htonl_inaddrAny, hlocal, v4Address, and_assoc]
  · rw [if_neg h4, or_iff_right (fun h => h4 h.1)]
    by_cases h6 : owner.family = afInet6
    · rw [if_pos h6, and_iff_right h6, Bool.or_comm, v6Local_eq, decide_eq_true_iff]
    · rw [if_neg h6]
      exact iff_of_false Bool.false_ne_true fun h => h6 h.1

/-! ### The number of buckets -/

theorem toNat_double {b : UInt32} (h : b.toNat < 2 ^ 31) : (b <<< (1 : UInt32)).toNat = 2 * b.toNat := by
  rw [UInt32.toNat_shiftLeft]
  have : (1 : UInt32).toNat % 32 = 1 := rfl
  rw [this, Nat.shiftLeft_eq, Nat.pow_one, Nat.mul_comm]
  omega

/-- The loop ends with a power of two that is large enough. -/
theorem growBuckets_spec {wanted : UInt32} (hwanted : wanted.toNat ≤ 2 ^ 17) (steps : ℕ) {buckets : UInt32} {m : ℕ}
    (hb : buckets.toNat = 2 ^ m) (hm : m ≤ 17) (hsteps : 17 ≤ m + steps) :
    ∃ m', 2 ^ m' = (growBuckets wanted steps buckets).toNat ∧ m ≤ m' ∧ m' ≤ 17 ∧ wanted.toNat ≤ 2 ^ m' := by
  induction steps generalizing buckets m with
  | zero =>
    have : m = 17 := by omega
    exact ⟨m, hb.symm, le_rfl, hm, this ▸ hwanted⟩
  | succ steps ih =>
    rw [growBuckets]
    by_cases hlt : buckets < wanted
    · rw [if_pos hlt]
      rw [UInt32.lt_iff_toNat_lt, hb] at hlt
      have hpow : 2 ^ m < 2 ^ 17 := Nat.lt_of_lt_of_le hlt hwanted
      have hm' : m < 17 := (Nat.pow_lt_pow_iff_right (by decide)).1 hpow
      have hdouble : (buckets <<< (1 : UInt32)).toNat = 2 ^ (m + 1) := by
        rw [toNat_double (by omega), hb, Nat.pow_succ']
      obtain ⟨m', heq, hle, hrest⟩ := ih hdouble (by omega) (by omega)
      exact ⟨m', heq, by omega, hrest⟩
    · rw [if_neg hlt]
      rw [UInt32.not_lt, UInt32.le_iff_toNat_le, hb] at hlt
      exact ⟨m, hb.symm, le_rfl, hm, hlt⟩

/-! ### Buckets as slots -/

theorem toNat_and_mask {m : ℕ} (hm : m ≤ 17) (x : UInt32) :
    (x &&& (UInt32.ofNat (2 ^ m) - 1)).toNat = x.toNat % 2 ^ m := by
  have hlt : 2 ^ m < 2 ^ 32 := Nat.pow_lt_pow_right (by decide) (by omega)
  have hpos : 0 < 2 ^ m := Nat.two_pow_pos m
  have hmask : (UInt32.ofNat (2 ^ m) - 1).toNat = 2 ^ m - 1 := by
    rw [UInt32.toNat_sub_of_le, UInt32.toNat_ofNat_of_lt' hlt]
    · rfl
    · rw [UInt32.le_iff_toNat_le, UInt32.toNat_ofNat_of_lt' hlt]
      exact hpos
  rw [UInt32.toNat_and, hmask, Nat.and_two_pow_sub_one_eq_mod]

theorem toNat_next_slot {m : ℕ} (hm : m ≤ 17) (slot : UInt32) {h d : ℕ} (hslot : slot.toNat = slotAt (2 ^ m) h d) :
    ((slot + 1) &&& (UInt32.ofNat (2 ^ m) - 1)).toNat = slotAt (2 ^ m) h (d + 1) := by
  have hdvd : 2 ^ m ∣ 2 ^ 32 := Nat.pow_dvd_pow 2 (by omega)
  rw [toNat_and_mask hm, UInt32.toNat_add, hslot, Nat.mod_mod_of_dvd _ hdvd, slotAt, slotAt]
  exact Nat.mod_add_mod ..

def ownedHome (owner : OwnedPort) : ℕ := (ownedPortHash owner).toNat

def bucketKind (buckets : List OwnedPort) (i : ℕ) : SlotKind OwnedPort :=
  (buckets[i]?).elim .empty fun entry => if entry.uid = 0 then .empty else .used entry

/-- The table is a set: an entry sits in one bucket and a scan finds it. -/
def BucketsOk (buckets : List OwnedPort) : Prop := Probed buckets.length ownedHome (bucketKind buckets)

section Buckets
variable {buckets : List OwnedPort} {entry wanted : OwnedPort} {i m : ℕ}

theorem bucketKind_of_getElem? (h : buckets[i]? = some entry) :
    bucketKind buckets i = if entry.uid = 0 then .empty else .used entry := by
  rw [bucketKind, h, Option.elim_some]

theorem bucketKind_eq_used : bucketKind buckets i = .used entry ↔ buckets[i]? = some entry ∧ entry.uid ≠ 0 := by
  unfold bucketKind
  cases buckets[i]? with
  | none => simp
  | some e =>
    by_cases he : e.uid = 0
    · simp only [Option.elim_some, if_pos he, reduceCtorEq, Option.some.injEq, false_iff, not_and, not_not]
      rintro rfl
      exact he
    · simp only [Option.elim_some, if_neg he, SlotKind.used.injEq, Option.some.injEq]
      refine ⟨?_, And.left⟩
      rintro rfl
      exact ⟨rfl, he⟩

theorem bucketKind_set (hi : i < buckets.length) (he : entry.uid ≠ 0) :
    bucketKind (buckets.set i entry) = Function.update (bucketKind buckets) i (.used entry) := by
  funext j
  by_cases hj : j = i
  · subst hj
    rw [Function.update_self, bucketKind_eq_used]
    exact ⟨List.getElem?_set_self hi, he⟩
  · rw [Function.update_of_ne hj, bucketKind, bucketKind, List.getElem?_set_ne (Ne.symm hj)]

theorem bucket_cases (hlen : buckets.length = 2 ^ m) {d : ℕ} {slot : UInt32}
    (hslot : slot.toNat = slotAt (2 ^ m) (ownedHome wanted) d)
    (hpassed : Passed (2 ^ m) ownedHome (bucketKind buckets) wanted d) :
    ∃ e, buckets[slot.toNat]? = some e ∧
      (e.uid = 0 ∧ bucketKind buckets (slotAt (2 ^ m) (ownedHome wanted) d) = .empty ∨
        e.uid ≠ 0 ∧ ownedPortEqual e wanted ∧
          bucketKind buckets (slotAt (2 ^ m) (ownedHome wanted) d) = .used wanted ∨
        e.uid ≠ 0 ∧ ¬ ownedPortEqual e wanted ∧ Passed (2 ^ m) ownedHome (bucketKind buckets) wanted (d + 1)) := by
  have hlt : slot.toNat < 2 ^ m := hslot ▸ slotAt_lt (Nat.two_pow_pos m) _ _
  obtain ⟨e, he⟩ : ∃ e, buckets[slot.toNat]? = some e := ⟨_, List.getElem?_eq_getElem (hlen ▸ hlt)⟩
  have hkind := bucketKind_of_getElem? he
  rw [hslot] at hkind
  refine ⟨e, he, ?_⟩
  by_cases hzero : e.uid = 0
  · rw [if_pos hzero] at hkind
    exact .inl ⟨hzero, hkind⟩
  rw [if_neg hzero] at hkind
  by_cases heq : ownedPortEqual e wanted
  · obtain rfl : e = wanted := beq_iff_eq.1 heq
    exact .inr (.inl ⟨hzero, heq, hkind⟩)
  · refine .inr (.inr ⟨hzero, heq, hpassed.succ ?_ ?_⟩)
    · rw [hkind]
      nofun
    · rw [hkind]
      intro hused
      exact heq (beq_iff_eq.2 (SlotKind.used.inj hused))

/-- A scan from the home position finds an entry exactly if the table holds it. -/
theorem probeBuckets_iff (h : BucketsOk buckets) (hlen : buckets.length = 2 ^ m) (hm : m ≤ 17) (left : ℕ) {d : ℕ}
    {slot : UInt32} (hslot : slot.toNat = slotAt (2 ^ m) (ownedHome wanted) d) (hleft : d + left = 2 ^ m)
    (hpassed : Passed (2 ^ m) ownedHome (bucketKind buckets) wanted d) :
    probeBuckets buckets wanted left slot ↔ ∃ i < 2 ^ m, bucketKind buckets i = .used wanted := by
  rw [BucketsOk, hlen] at h
  induction left generalizing d slot with
  | zero =>
    rw [Nat.add_zero] at hleft
    rw [hleft] at hpassed
    simp only [probeBuckets, Bool.false_eq_true, false_iff, not_exists, not_and]
    exact fun i hi => Probed.absent_of_full hpassed hi
  | succ left ih =>
    obtain ⟨e, he, hcases⟩ := bucket_cases hlen hslot hpassed
    rw [probeBuckets, he]
    dsimp only
    rcases hcases with ⟨hzero, hempty⟩ | ⟨hzero, heq, hused⟩ | ⟨hzero, hne, hnext⟩
    · rw [if_pos hzero]
      simp only [Bool.false_eq_true, false_iff, not_exists, not_and]
      exact fun i hi => h.absent_of_empty hpassed hempty hi
    · rw [if_neg hzero, if_pos heq]
      exact iff_of_true rfl ⟨_, slotAt_lt (Nat.two_pow_pos m) _ _, hused⟩
    · rw [if_neg hzero, if_neg hne, hlen]
      exact ih (toNat_next_slot hm slot hslot) (by omega) hnext

theorem ownedSnapshotContains_iff {snapshot : OwnedPortsSnapshot} (h : BucketsOk snapshot.buckets)
    (hlen : snapshot.buckets.length = 2 ^ m) (hm : m ≤ 17) :
    ownedSnapshotContains snapshot wanted ↔ ∃ i < 2 ^ m, bucketKind snapshot.buckets i = .used wanted := by
  rw [ownedSnapshotContains, hlen]
  exact probeBuckets_iff h hlen hm (2 ^ m) (toNat_and_mask hm _) (Nat.zero_add _) fun d' hd' => by cases hd'

end Buckets

/-! ### Storing the entries -/

section Place
variable {snapshot : OwnedPortsSnapshot} {entry : OwnedPort} {m : ℕ}

/-- As long as some bucket is empty the loop ends at the entry itself or at the first empty bucket of its scan. -/
theorem placeOwned_cases (hlen : snapshot.buckets.length = 2 ^ m) (hm : m ≤ 17)
    (hroom : ∃ i < 2 ^ m, bucketKind snapshot.buckets i = .empty) (left : ℕ) {d : ℕ} {slot : UInt32}
    (hslot : slot.toNat = slotAt (2 ^ m) (ownedHome entry) d) (hleft : d + left = 2 ^ m)
    (hpassed : Passed (2 ^ m) ownedHome (bucketKind snapshot.buckets) entry d) :
    (placeOwned entry left slot snapshot = snapshot ∧
      ∃ i < 2 ^ m, bucketKind snapshot.buckets i = .used entry) ∨
    ∃ d < 2 ^ m, bucketKind snapshot.buckets (slotAt (2 ^ m) (ownedHome entry) d) = .empty ∧
      Passed (2 ^ m) ownedHome (bucketKind snapshot.buckets) entry d ∧
      placeOwned entry left slot snapshot = { snapshot with
        buckets := snapshot.buckets.set (slotAt (2 ^ m) (ownedHome entry) d) entry
        entryCount := snapshot.entryCount + 1 } := by
  induction left generalizing d slot with
  | zero =>
    -- a whole round has passed every bucket, the empty one included
    rw [Nat.add_zero] at hleft
    obtain ⟨i, hi, hempty⟩ := hroom
    obtain ⟨d', hd', rfl⟩ := exists_slotAt hi (ownedHome entry)
    exact absurd hempty (hpassed d' (hleft ▸ hd')).1
  | succ left ih =>
    obtain ⟨dst, hdst, hcases⟩ := bucket_cases hlen hslot hpassed
    rw [placeOwned, hdst]
    dsimp only
    rcases hcases with ⟨hzero, hempty⟩ | ⟨hzero, heq, hused⟩ | ⟨hzero, hne, hnext⟩
    · rw [if_pos hzero]
      exact .inr ⟨d, by omega, hempty, hpassed, by rw [hslot]⟩
    · rw [if_neg hzero, if_pos heq]
      exact .inl ⟨rfl, _, slotAt_lt (Nat.two_pow_pos m) _ _, hused⟩
    · rw [if_neg hzero, if_neg hne, hlen]
      exact ih (toNat_next_slot hm slot hslot) (by omega) hnext

def usedBuckets (buckets : List OwnedPort) : ℕ := buckets.countP fun entry => entry.uid ≠ 0

/-- A table that holds exactly the entries `done`, and how many buckets they take. -/
structure TableOf (m : ℕ) (done : List OwnedPort) (snapshot : OwnedPortsSnapshot) : Prop where
  length : snapshot.buckets.length = 2 ^ m
  ok : BucketsOk snapshot.buckets
  mem : ∀ x, (∃ i < 2 ^ m, bucketKind snapshot.buckets i = .used x) ↔ x ∈ done
  used : usedBuckets snapshot.buckets ≤ done.length

theorem TableOf.room {done : List OwnedPort} (h : TableOf m done snapshot) (hdone : done.length < 2 ^ m) :
    ∃ i < 2 ^ m, bucketKind snapshot.buckets i = .empty := by
  by_contra hnone
  have hall : usedBuckets snapshot.buckets = snapshot.buckets.length := by
    refine List.countP_eq_length.2 fun entry hentry => ?_
    obtain ⟨i, hi, hget⟩ := List.mem_iff_getElem.1 hentry
    have hkind := bucketKind_of_getElem? (List.getElem?_eq_some_iff.2 ⟨hi, hget⟩)
    by_contra hzero
    rw [if_pos (by simpa using hzero)] at hkind
    exact hnone ⟨i, h.length ▸ hi, hkind⟩
  have := h.used
  have := h.length
  omega

theorem usedBuckets_set {buckets : List OwnedPort} {i : ℕ} (hi : i < buckets.length) :
    usedBuckets (buckets.set i entry) ≤ usedBuckets buckets + 1 := by
  rw [usedBuckets, usedBuckets, List.countP_set hi]
  split_ifs <;> omega

theorem TableOf.place {done : List OwnedPort} (h : TableOf m done snapshot) (hm : m ≤ 17)
    (hdone : done.length < 2 ^ m) (hentry : entry.uid ≠ 0) :
    TableOf m (done ++ [entry]) (placeOwned entry snapshot.buckets.length
      (ownedPortHash entry &&& (UInt32.ofNat snapshot.buckets.length - 1)) snapshot) := by
  have hused := h.used
  have hcases := @placeOwned_cases snapshot entry m h.length hm (h.room hdone) (2 ^ m) 0 _ (toNat_and_mask hm _)
    (Nat.zero_add _) fun d' hd' => by cases hd'
  rw [h.length]
  rcases hcases with ⟨heq, hold⟩ | ⟨d, hd, hempty, hpassed, heq⟩
  · -- a duplicate: the table stays as it is
    rw [heq]
    refine ⟨h.length, h.ok, fun x => ?_, by rw [List.length_append]; omega⟩
    rw [h.mem, List.mem_append, List.mem_singleton]
    refine ⟨.inl, ?_⟩
    rintro (hx | rfl)
    · exact hx
    · exact (h.mem _).1 hold
  · rw [heq]
    have hlt : slotAt (2 ^ m) (ownedHome entry) d < snapshot.buckets.length :=
      h.length ▸ slotAt_lt (Nat.two_pow_pos m) _ _
    have hprobed : Probed (2 ^ m) ownedHome (bucketKind snapshot.buckets) := h.length ▸ h.ok
    constructor
    · rw [List.length_set]
      exact h.length
    · rw [BucketsOk, List.length_set, h.length, bucketKind_set hlt hentry]
      refine hprobed.insert (fun i hi => hprobed.absent_of_empty hpassed hempty hi) hd
        (fun d' hd' => (hpassed d' hd').1) fun k' => ?_
      rw [hempty]
      nofun
    · intro x
      rw [bucketKind_set hlt hentry, List.mem_append, List.mem_singleton, ← h.mem]
      refine exists_used_update (slotAt_lt (Nat.two_pow_pos m) _ _) fun k' => ?_
      rw [hempty]
      nofun
    · rw [List.length_append, List.length_singleton]
      exact Nat.le_trans (usedBuckets_set hlt) (Nat.succ_le_succ hused)

end Place

/-! ### An accepted update -/

theorem bucketKind_zero (n i : ℕ) : bucketKind (List.replicate n OwnedPort.zero) i = .empty := by
  unfold bucketKind
  rw [List.getElem?_replicate]
  split_ifs <;> rfl

theorem TableOf.zero (m : ℕ) (expires : UInt64) :
    TableOf m [] ⟨0, expires, List.replicate (2 ^ m) OwnedPort.zero⟩ where
  length := List.length_replicate
  ok := Probed.of_empty fun i _ => bucketKind_zero _ i
  mem x := by simp [bucketKind_zero]
  used := by simp [usedBuckets, OwnedPort.zero]

theorem storeOwned_ok {snapshot snapshot' : OwnedPortsSnapshot} {entry : OwnedPort}
    (h : storeOwned snapshot entry = .ok snapshot') :
    ownedEntryInvalid entry = false ∧ snapshot' = placeOwned entry snapshot.buckets.length
      (ownedPortHash entry &&& (UInt32.ofNat snapshot.buckets.length - 1)) snapshot := by
  obtain ⟨_, hvalid, h⟩ := bind_eq_ok.1 h
  exact ⟨eq_false_of_ne_true (rejectIf_eq_ok.1 hvalid), (Except.ok.inj h).symm⟩

theorem ownedEntryInvalid_eq_false {entry : OwnedPort} :
    ownedEntryInvalid entry = false ↔
      entry.uid ≠ 0 ∧ entry.port ≠ 0 ∧ entry.protocol ≤ protoUdp ∧ ownedPortIsLocal entry := by
  simp [ownedEntryInvalid, and_assoc]

theorem placeOwned_expires (entry : OwnedPort) (left : ℕ) (slot : UInt32) (snapshot : OwnedPortsSnapshot) :
    (placeOwned entry left slot snapshot).expires = snapshot.expires := by
  induction left generalizing slot with
  | zero => rfl
  | succ left ih =>
    rw [placeOwned]
    split
    · rfl
    · split_ifs
      · rfl
      · rfl
      · exact ih _

theorem length_readOwnedEntries {kvmallocArray : Bool} {update : OwnedPortsUpdate} {entries : List OwnedPort}
    (h : readOwnedEntries kvmallocArray update = .ok entries) : entries.length = update.count.toNat := by
  unfold readOwnedEntries at h
  split_ifs at h with hzero
  · obtain rfl := Except.ok.inj h
    rw [hzero]
    rfl
  · cases hcopy : copyFromUser update.entriesPtr (update.count.toNat * OwnedPort.codec.size) with
    | none => simp [hcopy] at h
    | some bytes =>
      simp only [hcopy, Except.ok.injEq] at h
      rw [← h, Codec.length_decodeArray]

theorem storeOwned_all {m : ℕ} (hm : m ≤ 17) {entries : List OwnedPort} (hlen : entries.length ≤ 2 ^ m)
    {expires : UInt64} {snapshot : OwnedPortsSnapshot}
    (h : entries.foldlM storeOwned ⟨0, expires, List.replicate (2 ^ m) OwnedPort.zero⟩ = .ok snapshot) :
    TableOf m entries snapshot ∧ (∀ e ∈ entries, ownedEntryInvalid e = false) ∧ snapshot.expires = expires := by
  have hstep (done : List OwnedPort) (entry : OwnedPort) (snapshot snapshot' : OwnedPortsSnapshot)
      (hdone : (done.length ≤ 2 ^ m → TableOf m done snapshot) ∧ (∀ e ∈ done, ownedEntryInvalid e = false) ∧
        snapshot.expires = expires) (hstore : storeOwned snapshot entry = .ok snapshot') :
      ((done ++ [entry]).length ≤ 2 ^ m → TableOf m (done ++ [entry]) snapshot') ∧
        (∀ e ∈ done ++ [entry], ownedEntryInvalid e = false) ∧ snapshot'.expires = expires := by
    obtain ⟨htable, hvalid, hexpires⟩ := hdone
    obtain ⟨hentry, rfl⟩ := storeOwned_ok hstore
    refine ⟨fun hlen => ?_, ?_, (placeOwned_expires ..).trans hexpires⟩
    · rw [List.length_append, List.length_singleton] at hlen
      exact (htable (by omega)).place hm (by omega) (ownedEntryInvalid_eq_false.1 hentry).1
    · simpa [or_imp, forall_and] using ⟨hvalid, hentry⟩
  obtain ⟨htable, hrest⟩ := foldlM_invariant
    (P := fun done snapshot => (done.length ≤ 2 ^ m → TableOf m done snapshot) ∧
      (∀ e ∈ done, ownedEntryInvalid e = false) ∧ snapshot.expires = expires)
    (fun done entry snapshot snapshot' _ => hstep done entry snapshot snapshot')
    ⟨fun _ => TableOf.zero m expires, nofun, rfl⟩ h
  exact ⟨htable hlen, hrest⟩

/-- The snapshot of an accepted update, whatever the entries hash to: a power of two of buckets, at least twice
as many as entries, none of the entries dropped, and a lookup finds exactly the entries. -/
theorem buildOwnedPorts_contains {alloc : OwnedAllocs} {hz jiffies : UInt64} {update : OwnedPortsUpdate}
    {snapshot : OwnedPortsSnapshot} (h : buildOwnedPorts alloc hz jiffies update = .ok snapshot) :
    ∃ entries, readOwnedEntries alloc.entries update = .ok entries ∧
      (∀ e ∈ entries, ownedEntryInvalid e = false) ∧
      (∃ m, snapshot.buckets.length = 2 ^ m ∧ 2 * entries.length ≤ 2 ^ m) ∧
      (∀ e ∈ entries, e ∈ snapshot.buckets) ∧ (∀ x, ownedSnapshotContains snapshot x ↔ x ∈ entries) ∧
      snapshot.expires = jiffies + 120 * hz := by
  obtain ⟨_, hchecks, h⟩ := bind_eq_ok.1 h
  obtain ⟨entries, hentries, h⟩ := bind_eq_ok.1 h
  obtain ⟨_, -, h⟩ := bind_eq_ok.1 h
  rw [rejectIf_eq_ok, not_or, not_or] at hchecks
  have hcount : update.count.toNat ≤ 65536 := by
    have := UInt32.not_lt.1 hchecks.2.1
    rwa [UInt32.le_iff_toNat_le] at this
  have hlen := length_readOwnedEntries hentries
  have hdouble : (update.count * 2).toNat = 2 * update.count.toNat := by
    rw [UInt32.toNat_mul, show (2 : UInt32).toNat = 2 from rfl]
    omega
  have hmax : (max 8 (update.count * 2)).toNat ≤ 2 ^ 17 ∧
      2 * update.count.toNat ≤ (max 8 (update.count * 2)).toNat := by
    rw [← hdouble]
    by_cases hle : 8 ≤ update.count * 2
    · rw [show max 8 (update.count * 2) = update.count * 2 from if_pos hle]
      omega
    · rw [show max 8 (update.count * 2) = 8 from if_neg hle]
      rw [UInt32.not_le, UInt32.lt_iff_toNat_lt] at hle
      exact ⟨by decide, Nat.le_of_lt hle⟩
  obtain ⟨m, hm, -, hm17, hwanted⟩ := @growBuckets_spec _ hmax.1 32 8 3 rfl (by decide) (by decide)
  rw [← hm] at h
  obtain ⟨htable, hvalid, hexpires⟩ := storeOwned_all hm17 (by omega) h
  refine ⟨entries, hentries, hvalid, ⟨m, htable.length, by omega⟩, fun e he => ?_, fun x => ?_, hexpires⟩
  · obtain ⟨i, -, hused⟩ := (htable.mem e).2 he
    exact List.mem_of_getElem? (bucketKind_eq_used.1 hused).1
  · rw [ownedSnapshotContains_iff htable.ok htable.length hm17, htable.mem]

end VpnHide
