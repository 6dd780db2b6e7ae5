import VpnHide.Abi
import VpnHide.Lib.Probing
import VpnHide.Lib.Transition

/-!
# Per-port statistics (`kmod/main.c`)

Blocked connections are counted by uid, port and protocol in a table of fixed size with open addressing.
Entries that have not been seen for six hours become tombstones, which later keys may take over; only a clear
makes a slot empty again. Whatever happens to it, the table stands for a finite map (`portStats_refines`).
-/

namespace VpnHide

/-- `VPNHIDE_PORT_STAT_*`. -/
inductive PortStatState where
  | empty
  | used
  | tombstone
  deriving DecidableEq, Repr

/-- `struct kmod_port_stats_total`. -/
structure PortStatsEntry where
  uid : UInt32
  port : UInt16
  protocol : UInt8
  state : PortStatState
  count : UInt64
  lastSeen : UInt64
  deriving DecidableEq, Repr

def portStatsCapacity : ℕ := 65536

def portStatsMask : UInt32 := UInt32.ofNat portStatsCapacity - 1

abbrev PortTable := Vector PortStatsEntry portStatsCapacity

/-- A table as `kvcalloc` returns it. -/
def portTableZero : PortTable := Vector.replicate portStatsCapacity ⟨0, 0, 0, .empty, 0, 0⟩

/-- `kmod_port_stats`, a pointer, and `kmod_port_stats_dropped`. -/
structure PortStats where
  table : Option PortTable
  dropped : UInt64

structure PortKey where
  uid : UInt32
  port : UInt16
  protocol : UInt8
  deriving DecidableEq, Repr

def PortStatsEntry.key (e : PortStatsEntry) : PortKey := ⟨e.uid, e.port, e.protocol⟩

def portStatsHash (k : PortKey) : UInt32 :=
  let value := k.uid * 0x9e3779b1
  let value := value ^^^ (k.port.toUInt32 * 0x85ebca6b)
  let value := value ^^^ (k.protocol.toUInt32 * 0xc2b2ae35)
  value ^^^ (value >>> 16)

theorem toNat_portStatsIndex (hash probe : UInt32) :
    ((hash + probe) &&& portStatsMask).toNat = slotAt portStatsCapacity hash.toNat probe.toNat := by
  have hmask : portStatsMask.toNat = 2 ^ 16 - 1 := by decide
  rw [UInt32.toNat_and, hmask, Nat.and_two_pow_sub_one_eq_mod, UInt32.toNat_add]
  exact Nat.mod_mod_of_dvd _ (by decide)

/-- `(hash + probe) & VPNHIDE_PORT_STATS_MASK`. -/
def portStatsIndex (hash probe : UInt32) : Fin portStatsCapacity :=
  ⟨((hash + probe) &&& portStatsMask).toNat, toNat_portStatsIndex hash probe ▸ slotAt_lt (by decide) _ _⟩

/-! ### Recording -/

/-- How the probe loop ends: at the key's slot, at a slot to fill, or without any. -/
inductive PortProbe where
  | hit (i : Fin portStatsCapacity)
  | claim (i : Fin portStatsCapacity)
  | full

/-- The probe loop of `record_port_intercept`, `left` steps from its end. -/
def probePortStats (t : PortTable) (k : PortKey) :
    ℕ → UInt32 → Option (Fin portStatsCapacity) → PortProbe
  | 0, _, some firstTombstone => .claim firstTombstone
  | 0, _, none => .full
  | left + 1, probe, firstTombstone =>
    let index := portStatsIndex (portStatsHash k) probe
    let entry := t.get index
    if entry.state = .used ∧ entry.key = k then .hit index
    else
      let firstTombstone :=
        if entry.state = .tombstone ∧ firstTombstone = none then some index else firstTombstone
      if entry.state = .empty then .claim (firstTombstone.getD index)
      else probePortStats t k left (probe + 1) firstTombstone

/-- `record_port_intercept` after its call of `record_kmod_intercept`. -/
def recordPortEntry (st : PortStats) (k : PortKey) (jiffies : UInt64) : PortStats :=
  match st.table with
  | none => st
  | some t =>
    if k.port = 0 ∨ k.protocol > protoUdp then st
    else match probePortStats t k portStatsCapacity 0 none with
      | .hit i =>
        let entry := t.get i
        { st with table := some (t.set i { entry with count := entry.count + 1, lastSeen := jiffies } i.isLt) }
      | .claim i => { st with table := some (t.set i ⟨k.uid, k.port, k.protocol, .used, 1, jiffies⟩ i.isLt) }
      | .full => { st with dropped := st.dropped + 1 }

/-! ### Expiry and clearing -/

def timeAfter (a b : UInt64) : Bool := (b - a).toInt64 < 0

/-- `VPNHIDE_PORT_STATS_TTL`, for a kernel that ticks `hz` times a second. -/
def portStatsTtl (hz : UInt64) : UInt64 := 6 * 60 * 60 * hz

def expirePortEntry (hz jiffies : UInt64) (entry : PortStatsEntry) : PortStatsEntry :=
  if entry.state = .used ∧ timeAfter jiffies (entry.lastSeen + portStatsTtl hz) then
    { entry with state := .tombstone }
  else entry

def livePortEntries (t : PortTable) : List PortStatsEntry := t.toList.filter fun entry => entry.state = .used

/-- `count_live_port_stats_locked`: buries what has expired and counts the rest. -/
def countLivePortStats (hz jiffies : UInt64) (st : PortStats) : ℕ × PortStats :=
  match st.table with
  | none => (0, st)
  | some t =>
    let t := t.map (expirePortEntry hz jiffies)
    ((livePortEntries t).length, { st with table := some t })

/-- The port part of `VH_CLEAR_STATS`, its allocation given. -/
def clearPortStats : PortStats := ⟨some portTableZero, 0⟩

/-! ### The map a table stands for -/

def PortStatsEntry.kind (e : PortStatsEntry) : SlotKind PortKey :=
  match e.state with
  | .empty => .empty
  | .used => .used e.key
  | .tombstone => .dead

/-- The entry of a key. -/
def findPortEntry (t : PortTable) (k : PortKey) : Option PortStatsEntry :=
  t.toList.find? fun e => e.state = .used ∧ e.key = k

def slotKind (t : PortTable) (i : ℕ) : SlotKind PortKey := (t[i]?).elim .empty PortStatsEntry.kind

/-- Each key in one slot, with no empty slot between its hash position and that slot. -/
def PortTableOk (t : PortTable) : Prop :=
  Probed portStatsCapacity (fun k => (portStatsHash k).toNat) (slotKind t)

section Slots
variable {t : PortTable} {e : PortStatsEntry} {k : PortKey} {i : Fin portStatsCapacity}

theorem kind_eq_used : e.kind = .used k ↔ e.state = .used ∧ e.key = k := by
  unfold PortStatsEntry.kind
  cases e.state <;> simp

theorem kind_eq_empty : e.kind = .empty ↔ e.state = .empty := by
  unfold PortStatsEntry.kind
  cases e.state <;> simp

theorem kind_eq_dead : e.kind = .dead ↔ e.state = .tombstone := by
  unfold PortStatsEntry.kind
  cases e.state <;> simp

@[simp] theorem slotKind_val : slotKind t i = (t.get i).kind := by
  have hget : t[i.val]? = some (t.get i) := Vector.getElem?_eq_getElem i.isLt
  rw [slotKind, hget, Option.elim_some]

theorem slotKind_set (e : PortStatsEntry) :
    slotKind (t.set i e i.isLt) = Function.update (slotKind t) i e.kind := by
  funext j
  by_cases hj : j = i
  · subst hj
    rw [Function.update_self, slotKind_val]
    exact congrArg _ (Vector.getElem_set_self i.isLt)
  · rw [Function.update_of_ne hj, slotKind, slotKind, Vector.getElem?_set_ne _ (Ne.symm hj)]

theorem mem_portTable : e ∈ t.toList ↔ ∃ i, t.get i = e := by
  rw [Vector.mem_toList_iff, Vector.mem_iff_getElem]
  exact ⟨fun ⟨i, hi, heq⟩ => ⟨⟨i, hi⟩, heq⟩, fun ⟨i, heq⟩ => ⟨i, i.isLt, heq⟩⟩

theorem PortTableOk.unique (h : PortTableOk t) {j : Fin portStatsCapacity} (hi : (t.get i).kind = .used k)
    (hj : (t.get j).kind = .used k) : i = j :=
  Fin.ext (Probed.unique h i j k i.isLt j.isLt (slotKind_val.trans hi) (slotKind_val.trans hj))

theorem findPortEntry_eq_some (h : PortTableOk t) :
    findPortEntry t k = some e ↔ ∃ i, t.get i = e ∧ e.kind = .used k := by
  constructor
  · intro hfind
    obtain ⟨i, hi⟩ := mem_portTable.1 (List.mem_of_find?_eq_some hfind)
    exact ⟨i, hi, kind_eq_used.2 (by simpa using List.find?_some hfind)⟩
  · rintro ⟨i, rfl, hk⟩
    cases hfind : findPortEntry t k with
    | none =>
      have hnone := List.find?_eq_none.1 hfind _ (mem_portTable.2 ⟨i, rfl⟩)
      exact absurd (kind_eq_used.1 hk) (by simpa using hnone)
    | some e' =>
      obtain ⟨j, hj⟩ := mem_portTable.1 (List.mem_of_find?_eq_some hfind)
      have hk' : e'.kind = .used k := kind_eq_used.2 (by simpa using List.find?_some hfind)
      subst hj
      rw [h.unique hk hk']

theorem findPortEntry_eq_none : findPortEntry t k = none ↔ ∀ i, (t.get i).kind ≠ .used k := by
  rw [findPortEntry, List.find?_eq_none]
  constructor
  · intro hnone i hk
    exact absurd (kind_eq_used.1 hk) (by simpa using hnone _ (mem_portTable.2 ⟨i, rfl⟩))
  · intro hnone e he
    obtain ⟨i, rfl⟩ := mem_portTable.1 he
    simpa using mt kind_eq_used.2 (hnone i)

theorem get_set (e : PortStatsEntry) (j : Fin portStatsCapacity) :
    (t.set i e i.isLt).get j = if i = j then e else t.get j := by
  by_cases hij : i = j
  · rw [if_pos hij, ← hij]
    exact Vector.getElem_set_self i.isLt
  · rw [if_neg hij]
    exact Vector.getElem_set_ne i.isLt j.isLt fun h => hij (Fin.ext h)

theorem findPortEntry_set (h : PortTableOk t) (h' : PortTableOk (t.set i e i.isLt)) (he : e.kind = .used k)
    (hi : ∀ k', (t.get i).kind = .used k' → k' = k) :
    findPortEntry (t.set i e i.isLt) k = some e ∧
      ∀ k' ≠ k, findPortEntry (t.set i e i.isLt) k' = findPortEntry t k' := by
  refine ⟨(findPortEntry_eq_some h').2 ⟨i, by rw [get_set, if_pos rfl], he⟩, fun k' hne => ?_⟩
  refine Option.ext fun e' => ?_
  rw [findPortEntry_eq_some h, findPortEntry_eq_some h']
  refine exists_congr fun j => ?_
  by_cases hij : i = j
  · subst hij
    rw [get_set, if_pos rfl]
    constructor
    · rintro ⟨rfl, hk⟩
      rw [he] at hk
      cases hk
      exact absurd rfl hne
    · rintro ⟨rfl, hk⟩
      exact absurd (hi k' hk) hne
  · rw [get_set, if_neg hij]

end Slots

/-! ### The probe loop -/

section Probe
variable {t : PortTable} {k : PortKey}

/-- The slot of the `d`-th probe. -/
def probeSlot (k : PortKey) (d : ℕ) : ℕ := slotAt portStatsCapacity (portStatsHash k).toNat d

/-- What the loop knows about `first_tombstone` after `d` probes. -/
def TombstoneSeen (t : PortTable) (k : PortKey) (d : ℕ) : Option (Fin portStatsCapacity) → Prop
  | none => ∀ d' < d, slotKind t (probeSlot k d') ≠ .dead
  | some i => ∃ d' < d, probeSlot k d' = i ∧ slotKind t i = .dead

/-- What the end of the loop says about the table. -/
def PortProbe.Spec (t : PortTable) (k : PortKey) : PortProbe → Prop
  | .hit i => (t.get i).kind = .used k
  | .claim i => (∀ j, (t.get j).kind ≠ .used k) ∧ (∀ k', (t.get i).kind ≠ .used k') ∧
      ∃ d < portStatsCapacity, probeSlot k d = i ∧ ∀ d' < d, slotKind t (probeSlot k d') ≠ .empty
  | .full => (∀ j, (t.get j).kind ≠ .used k) ∧ ∀ j, (t.get j).state = .used

theorem TombstoneSeen.succ {d : ℕ} {tombstone : Option (Fin portStatsCapacity)} {i : Fin portStatsCapacity}
    (h : TombstoneSeen t k d tombstone) (hi : probeSlot k d = i) :
    TombstoneSeen t k (d + 1)
      (if (t.get i).state = .tombstone ∧ tombstone = none then some i else tombstone) := by
  cases tombstone with
  | some j =>
    obtain ⟨d', hd', hslot, hdead⟩ := h
    rw [if_neg (by simp)]
    exact ⟨d', Nat.lt_succ_of_lt hd', hslot, hdead⟩
  | none =>
    by_cases hstate : (t.get i).state = .tombstone
    · rw [if_pos ⟨hstate, rfl⟩]
      exact ⟨d, Nat.lt_succ_self d, hi, slotKind_val.trans (kind_eq_dead.2 hstate)⟩
    · rw [if_neg fun hand => hstate hand.1]
      intro d' hd'
      rcases Nat.lt_succ_iff_lt_or_eq.1 hd' with hlt | rfl
      · exact h d' hlt
      · rw [hi, slotKind_val]
        exact mt kind_eq_dead.1 hstate

theorem probeSlot_index (k : PortKey) (probe : UInt32) :
    probeSlot k probe.toNat = (portStatsIndex (portStatsHash k) probe).val :=
  (toNat_portStatsIndex _ _).symm

theorem TombstoneSeen.claim {d : ℕ} {i : Fin portStatsCapacity} (h : TombstoneSeen t k d (some i))
    (hd : d ≤ portStatsCapacity)
    (hpassed : Passed portStatsCapacity (fun k => (portStatsHash k).toNat) (slotKind t) k d)
    (habsent : ∀ j, (t.get j).kind ≠ .used k) : (PortProbe.claim i).Spec t k := by
  obtain ⟨d', hd', hslot, hdead⟩ := h
  rw [slotKind_val] at hdead
  refine ⟨habsent, fun k' => by rw [hdead]; nofun, d', Nat.lt_of_lt_of_le hd' hd, hslot, fun d'' hd'' => ?_⟩
  exact (hpassed d'' (Nat.lt_trans hd'' hd')).1

theorem state_used_of_round
    (hpassed : Passed portStatsCapacity (fun k => (portStatsHash k).toNat) (slotKind t) k portStatsCapacity)
    (htomb : TombstoneSeen t k portStatsCapacity none) (j : Fin portStatsCapacity) : (t.get j).state = .used := by
  obtain ⟨d, hd, hslot⟩ := exists_slotAt j.isLt (portStatsHash k).toNat
  have hkind : slotKind t (probeSlot k d) = (t.get j).kind := by rw [← slotKind_val, ← hslot]; rfl
  cases hstate : (t.get j).state with
  | used => rfl
  | empty => exact absurd (hkind.trans (kind_eq_empty.2 hstate)) (hpassed d hd).1
  | tombstone => exact absurd (hkind.trans (kind_eq_dead.2 hstate)) (htomb d hd)

/-- The loop invariant: the slots probed so far are neither empty nor the key's, and the first tombstone among
them is remembered. -/
theorem probePortStats_spec (h : PortTableOk t) (left : ℕ) (probe : UInt32)
    (tombstone : Option (Fin portStatsCapacity)) (hleft : probe.toNat + left = portStatsCapacity)
    (hpassed : Passed portStatsCapacity (fun k => (portStatsHash k).toNat) (slotKind t) k probe.toNat)
    (htomb : TombstoneSeen t k probe.toNat tombstone) :
    (probePortStats t k left probe tombstone).Spec t k := by
  induction left generalizing probe tombstone with
  | zero =>
    have hround : probe.toNat = portStatsCapacity := hleft
    rw [hround] at hpassed htomb
    have habsent (j : Fin portStatsCapacity) : (t.get j).kind ≠ .used k := by
      rw [← slotKind_val]
      exact Probed.absent_of_full hpassed j.isLt
    cases tombstone with
    | some i => exact htomb.claim le_rfl hpassed habsent
    | none => exact ⟨habsent, state_used_of_round hpassed htomb⟩
  | succ left ih =>
    have hindex := probeSlot_index k probe
    rw [probePortStats]
    generalize portStatsIndex (portStatsHash k) probe = index at hindex ⊢
    dsimp only
    by_cases hhit : (t.get index).state = .used ∧ (t.get index).key = k
    · rw [if_pos hhit]
      exact kind_eq_used.2 hhit
    rw [if_neg hhit]
    by_cases hempty : (t.get index).state = .empty
    · -- an empty slot ends the scan; the first tombstone is taken before it
      have hkind : slotKind t (probeSlot k probe.toNat) = .empty := by
        rw [hindex, slotKind_val, kind_eq_empty, hempty]
      have habsent (j : Fin portStatsCapacity) : (t.get j).kind ≠ .used k := by
        rw [← slotKind_val]
        exact Probed.absent_of_empty h hpassed hkind j.isLt
      rw [if_pos hempty, if_neg (by simp [hempty])]
      cases tombstone with
      | some i => exact htomb.claim (by omega) hpassed habsent
      | none =>
        have hfree : (t.get index).kind = .empty := kind_eq_empty.2 hempty
        exact ⟨habsent, fun k' => by rw [Option.getD_none, hfree]; nofun, probe.toNat, by omega, hindex,
          fun d' hd' => (hpassed d' hd').1⟩
    · have hnext : (probe + 1).toNat = probe.toNat + 1 := by
        have hlt : probe.toNat + 1 < 2 ^ 32 := by
          have : portStatsCapacity < 2 ^ 32 := by decide
          omega
        rw [UInt32.toNat_add, UInt32.toNat_one, Nat.mod_eq_of_lt hlt]
      have hkind : slotKind t (probeSlot k probe.toNat) = (t.get index).kind := by rw [hindex, slotKind_val]
      rw [if_neg hempty]
      refine ih (probe + 1) _ (by omega) ?_ ?_
      · rw [hnext]
        refine hpassed.succ (hkind.trans_ne (mt kind_eq_empty.1 hempty)) ?_
        exact hkind.trans_ne (mt kind_eq_used.1 hhit)
      · rw [hnext]
        exact htomb.succ hindex

end Probe

/-! ### What each operation does to the map -/

section Operations
variable {t : PortTable} {k : PortKey}

theorem PortTableOk.zero : PortTableOk portTableZero := by
  refine Probed.of_empty fun i hi => ?_
  have hget : portTableZero[i]? = some ⟨0, 0, 0, .empty, 0, 0⟩ := Vector.getElem?_replicate_of_lt hi
  rw [slotKind, hget]
  rfl

theorem PortTableOk.hit (h : PortTableOk t) {i : Fin portStatsCapacity} {e : PortStatsEntry}
    (he : e.kind = (t.get i).kind) : PortTableOk (t.set i e i.isLt) := by
  have hsame : slotKind (t.set i e i.isLt) = slotKind t := by
    rw [slotKind_set, he, ← slotKind_val, Function.update_eq_self]
  rw [PortTableOk, hsame]
  exact h

theorem PortTableOk.claim (h : PortTableOk t) {i : Fin portStatsCapacity} {e : PortStatsEntry}
    (hi : (PortProbe.claim i).Spec t k) (he : e.kind = .used k) : PortTableOk (t.set i e i.isLt) := by
  obtain ⟨habsent, hfree, d, hd, hslot, hbefore⟩ := hi
  have habsent' : ∀ j < portStatsCapacity, slotKind t j ≠ .used k := by
    intro j hj
    have := slotKind_val (t := t) (i := ⟨j, hj⟩)
    rw [this]
    exact habsent ⟨j, hj⟩
  have hfree' (k' : PortKey) : slotKind t (probeSlot k d) ≠ .used k' := by
    rw [hslot, slotKind_val]
    exact hfree k'
  rw [PortTableOk, slotKind_set, he, ← hslot]
  exact Probed.insert h habsent' hd hbefore hfree'

/-- The count of a key, zero when it has no entry. -/
def portCount (t : PortTable) (k : PortKey) : UInt64 := (findPortEntry t k).elim 0 PortStatsEntry.count

/-- A recorded key gains one; only a full table that does not hold the key drops it. -/
theorem recordPortEntry_spec (h : PortTableOk t) (hport : k.port ≠ 0) (hproto : k.protocol ≤ protoUdp)
    (dropped jiffies : UInt64) :
    (∃ t', recordPortEntry ⟨some t, dropped⟩ k jiffies = ⟨some t', dropped⟩ ∧ PortTableOk t' ∧
      findPortEntry t' k = some ⟨k.uid, k.port, k.protocol, .used, portCount t k + 1, jiffies⟩ ∧
      ∀ k' ≠ k, findPortEntry t' k' = findPortEntry t k') ∨
    ((∀ i, (t.get i).state = .used) ∧ findPortEntry t k = none ∧
      recordPortEntry ⟨some t, dropped⟩ k jiffies = ⟨some t, dropped + 1⟩) := by
  have hspec := probePortStats_spec (k := k) h portStatsCapacity 0 none (Nat.zero_add _) (fun d' hd' => by cases hd')
    (fun d' hd' => by cases hd')
  have hguard : ¬ (k.port = 0 ∨ k.protocol > protoUdp) := by
    rw [not_or]
    exact ⟨hport, UInt8.not_lt.2 hproto⟩
  simp only [recordPortEntry, if_neg hguard]
  generalize probePortStats t k portStatsCapacity 0 none = outcome at hspec
  cases outcome with
  | hit i =>
    have hused : (t.get i).kind = .used k := hspec
    have hcount : portCount t k = (t.get i).count := by
      rw [portCount, (findPortEntry_eq_some h).2 ⟨i, rfl, hused⟩, Option.elim_some]
    obtain ⟨hstate, hkey⟩ := kind_eq_used.1 hused
    have hentry : ({ t.get i with count := (t.get i).count + 1, lastSeen := jiffies } : PortStatsEntry) =
        ⟨k.uid, k.port, k.protocol, .used, portCount t k + 1, jiffies⟩ := by
      rw [hcount, ← hkey, ← hstate]
      rfl
    have hkind : (⟨k.uid, k.port, k.protocol, .used, portCount t k + 1, jiffies⟩ : PortStatsEntry).kind =
        .used k := rfl
    have hok := h.hit (hkind.trans hused.symm)
    refine .inl ⟨_, rfl, ?_, ?_⟩
    · rw [hentry]
      exact hok
    · rw [hentry]
      refine findPortEntry_set h hok hkind fun k' hk' => ?_
      rw [hused] at hk'
      cases hk'
      rfl
  | claim i =>
    have ⟨habsent, hfree, _⟩ := hspec
    have hcount : portCount t k = 0 := by rw [portCount, findPortEntry_eq_none.2 habsent, Option.elim_none]
    have hok := h.claim hspec (e := ⟨k.uid, k.port, k.protocol, .used, 1, jiffies⟩) rfl
    refine .inl ⟨_, rfl, hok, ?_⟩
    rw [hcount]
    exact findPortEntry_set h hok rfl fun k' hk' => absurd hk' (hfree k')
  | full => exact .inr ⟨hspec.2, findPortEntry_eq_none.2 hspec.1, rfl⟩

theorem expirePortEntry_kind {hz jiffies : UInt64} {e : PortStatsEntry} :
    (∀ k, (expirePortEntry hz jiffies e).kind = .used k → e.kind = .used k) ∧
      ((expirePortEntry hz jiffies e).kind = .empty → e.kind = .empty) := by
  unfold expirePortEntry
  split
  · exact ⟨nofun, nofun⟩
  · exact ⟨fun _ => id, id⟩

theorem PortTableOk.expire (h : PortTableOk t) (hz jiffies : UInt64) :
    PortTableOk (t.map (expirePortEntry hz jiffies)) := by
  have hkind (i : ℕ) : slotKind (t.map (expirePortEntry hz jiffies)) i =
      (t[i]?).elim .empty fun e => (expirePortEntry hz jiffies e).kind := by
    rw [slotKind, Vector.getElem?_map]
    cases t[i]? <;> rfl
  refine Probed.mono h (fun i k hk => ?_) (fun i hk => ?_)
  · rw [hkind] at hk
    rw [slotKind]
    cases hi : t[i]? with
    | none => rw [hi] at hk; cases hk
    | some e => rw [hi] at hk; exact expirePortEntry_kind.1 k hk
  · rw [hkind] at hk
    rw [slotKind]
    cases hi : t[i]? with
    | none => rfl
    | some e => rw [hi] at hk; exact expirePortEntry_kind.2 hk

end Operations

/-! ### Runs -/

/-- What happens to the table, each at its own time. `kvcalloc` says whether the new table of a clear was
allocated. -/
inductive PortStatsOp where
  | record (k : PortKey) (jiffies : UInt64)
  | sweep (jiffies : UInt64)
  | clear (kvcalloc : Bool)

def PortStatsOp.run (hz : UInt64) (st : PortStats) : PortStatsOp → PortStats
  | .record k jiffies => recordPortEntry st k jiffies
  | .sweep jiffies => (countLivePortStats hz jiffies st).2
  | .clear kvcalloc => if kvcalloc then clearPortStats else st

def portStatsSystem (hz : UInt64) : System PortStats PortStatsOp where
  init st := st = clearPortStats
  step st op st' := st' = op.run hz st

/-- A loaded module has a table, and a good one. -/
def PortStatsInv (st : PortStats) : Prop := ∃ t, st.table = some t ∧ PortTableOk t

theorem PortStatsInv.clear : PortStatsInv clearPortStats := ⟨_, rfl, .zero⟩

theorem PortStatsInv.record {st : PortStats} (h : PortStatsInv st) (k : PortKey) (jiffies : UInt64) :
    PortStatsInv (recordPortEntry st k jiffies) := by
  obtain ⟨table, dropped⟩ := st
  obtain ⟨t, rfl, hok⟩ := h
  by_cases hguard : k.port = 0 ∨ k.protocol > protoUdp
  · simp only [recordPortEntry, if_pos hguard]
    exact ⟨t, rfl, hok⟩
  · rw [not_or] at hguard
    rcases recordPortEntry_spec hok hguard.1 (UInt8.not_lt.1 hguard.2) dropped jiffies with
      ⟨t', heq, hok', -⟩ | ⟨-, -, heq⟩
    · rw [heq]
      exact ⟨t', rfl, hok'⟩
    · rw [heq]
      exact ⟨t, rfl, hok⟩

theorem PortStatsInv.sweep {st : PortStats} (h : PortStatsInv st) (hz jiffies : UInt64) :
    PortStatsInv (countLivePortStats hz jiffies st).2 := by
  obtain ⟨table, dropped⟩ := st
  obtain ⟨t, rfl, hok⟩ := h
  exact ⟨_, rfl, hok.expire hz jiffies⟩

theorem PortStatsInv.run {hz : UInt64} {st : PortStats} (h : PortStatsInv st) (op : PortStatsOp) :
    PortStatsInv (op.run hz st) := by
  cases op with
  | record k jiffies => exact h.record k jiffies
  | sweep jiffies => exact h.sweep hz jiffies
  | clear kvcalloc =>
    cases kvcalloc
    · exact h
    · exact .clear

/-- In every run the table is a finite map with no duplicate and no lost key, and a recorded connection is
counted once: in the entry of its key, or as dropped when every slot is in use by another key. The hooks
record a connection as TCP or as UDP. -/
theorem portStats_refines {hz : UInt64} {st : PortStats} (h : (portStatsSystem hz).Reachable st) :
    ∃ t, st.table = some t ∧
      (∀ i j, (t.get i).state = .used → (t.get j).state = .used → (t.get i).key = (t.get j).key → i = j) ∧
      (∀ i, (t.get i).state = .used → ∃ probe : UInt32, probe.toNat < portStatsCapacity ∧
        portStatsIndex (portStatsHash (t.get i).key) probe = i ∧
          ∀ p < probe, (t.get (portStatsIndex (portStatsHash (t.get i).key) p)).state ≠ .empty) ∧
      ∀ (k : PortKey) (jiffies : UInt64), k.port ≠ 0 → k.protocol = protoTcp ∨ k.protocol = protoUdp →
        (∃ t', recordPortEntry st k jiffies = { st with table := some t' } ∧
          findPortEntry t' k = some ⟨k.uid, k.port, k.protocol, .used, portCount t k + 1, jiffies⟩ ∧
          ∀ k' ≠ k, findPortEntry t' k' = findPortEntry t k') ∨
        ((∀ i, (t.get i).state = .used) ∧ findPortEntry t k = none ∧
          recordPortEntry st k jiffies = { st with dropped := st.dropped + 1 }) := by
  have hinv : PortStatsInv st :=
    h.invariant (fun s hs => by rw [hs]; exact .clear) fun s op s' hs hstep => by rw [hstep]; exact hs.run op
  obtain ⟨table, dropped⟩ := st
  obtain ⟨t, rfl, hok⟩ := hinv
  refine ⟨t, rfl, ?_, ?_, ?_⟩
  · intro i j hi hj hkey
    exact hok.unique (kind_eq_used.2 ⟨hi, rfl⟩) (kind_eq_used.2 ⟨hj, hkey.symm⟩)
  · intro i hi
    have hused : slotKind t i = .used (t.get i).key := by rw [slotKind_val, kind_eq_used]; exact ⟨hi, rfl⟩
    obtain ⟨d, hd, hslot, hbefore⟩ := Probed.reach hok i _ i.isLt hused
    have hprobe : (UInt32.ofNat d).toNat = d := UInt32.toNat_ofNat_of_lt' (Nat.lt_trans hd (by decide))
    refine ⟨.ofNat d, hprobe.symm ▸ hd, ?_, fun p hp hempty => ?_⟩
    · rw [← hprobe] at hslot
      exact Fin.ext ((probeSlot_index _ _).symm.trans hslot)
    · rw [UInt32.lt_iff_toNat_lt, hprobe] at hp
      refine hbefore p.toNat hp ?_
      show slotKind t (probeSlot _ p.toNat) = .empty
      rw [probeSlot_index, slotKind_val]
      exact kind_eq_empty.2 hempty
  · intro k jiffies hport hproto
    have hle : k.protocol ≤ protoUdp := by rcases hproto with hp | hp <;> rw [hp] <;> decide
    rcases recordPortEntry_spec hok hport hle dropped jiffies with ⟨t', heq, -, hrest⟩ | hfull
    · exact .inl ⟨t', heq, hrest⟩
    · exact .inr hfull

theorem portStats_refines_fresh :
    ∃ t', recordPortEntry clearPortStats ⟨10001, 443, protoTcp⟩ 5 = ⟨some t', 0⟩ ∧
      findPortEntry t' ⟨10001, 443, protoTcp⟩ = some ⟨10001, 443, protoTcp, .used, 1, 5⟩ := by
  obtain ⟨t, ht, -, -, hrecord⟩ := @portStats_refines 250 _ (.init rfl)
  have hzero : t = portTableZero := (Option.some.inj ht).symm
  have hget (i : Fin portStatsCapacity) : t.get i = ⟨0, 0, 0, .empty, 0, 0⟩ := by
    rw [hzero]
    exact Vector.getElem_replicate i.isLt
  rcases hrecord ⟨10001, 443, protoTcp⟩ 5 (by decide) (.inl rfl) with ⟨t', heq, hfind, -⟩ | ⟨hfull, -⟩
  · have hcount : portCount t ⟨10001, 443, protoTcp⟩ = 0 := by
      rw [portCount, findPortEntry_eq_none.2 fun i => by rw [hget]; nofun, Option.elim_none]
    rw [hcount] at hfind
    exact ⟨t', heq, hfind⟩
  · have hused := hfull ⟨0, by decide⟩
    rw [hget] at hused
    cases hused

end VpnHide
