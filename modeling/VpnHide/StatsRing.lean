import VpnHide.Stats
import VpnHide.PortStats
import VpnHide.Lib.Buffers
import VpnHide.Lib.Counters

/-!
# The daemon's history of statistics (`daemon/stats.c`)

The daemon samples the kernel's cumulative counters, subtracts the sample before and keeps the differences as points
of a ring. Whatever allocations fail, the points add up to what the counters grew by (`statsDeltas_telescope`).
-/

namespace VpnHide

/-! ### The code -/

/-- `struct vpnhide_port_stats`. -/
structure PortCount where
  uid : UInt32
  port : UInt16
  protocol : UInt8
  count : UInt64
  deriving DecidableEq, Repr

def PortCount.key (e : PortCount) : PortKey := ⟨e.uid, e.port, e.protocol⟩

/-- What `read_kernel_stats` hands over. -/
structure KernelStats where
  uids : List UidStats
  ports : List PortCount
  sequence : UInt64
  droppedPortEntries : UInt64

/-- `struct daemon_stats_point`. -/
structure StatsPoint where
  timestampMs : UInt64
  gap : Bool
  entries : List UidStats
  ports : List PortCount
  deriving DecidableEq

def StatsPoint.zero : StatsPoint := ⟨0, false, [], []⟩

def statsRingPoints : ℕ := 360

def statsRetentionSec : UInt64 := 6 * 60 * 60

/-- `struct daemon_stats_ring` without the session id. -/
structure StatsRing where
  points : RingBuffer StatsPoint statsRingPoints
  droppedIntervals : UInt64
  latestSequence : UInt64
  previousSequence : UInt64
  previous : List UidStats
  previousCapacity : ℕ
  previousPorts : List PortCount
  previousPortCapacity : ℕ
  droppedPortEntries : UInt64
  baselineValid : Bool

/-- The ring as it starts and as `clear_stats_ring` leaves it. -/
def StatsRing.cleared : StatsRing where
  points := ⟨Vector.replicate statsRingPoints .zero, 0, 0, by decide, by decide⟩
  droppedIntervals := 0
  latestSequence := 0
  previousSequence := 0
  previous := []
  previousCapacity := 0
  previousPorts := []
  previousPortCapacity := 0
  droppedPortEntries := 0
  baselineValid := false

/-- The counters in the order in which they are compared. -/
def StatsCounters.fields : List (StatsCounters → UInt64) :=
  [ioctl, netlink, proc, sockopt, connect, getname, port, javaPm, javaUm, javaNc, javaNi, javaNet, javaLp, javaCs]

def findUidStats (entries : List UidStats) (uid : UInt32) : Option UidStats :=
  (entries[lowerBound (fun e => e.uid < uid) entries entries.length 0 entries.length]?).filter fun e => e.uid = uid

def findPortStats (entries : List PortCount) (uid : UInt32) (port : UInt16) (protocol : UInt8) : Option PortCount :=
  let before (e : PortCount) : Bool := e.uid < uid ∨ (e.uid = uid ∧ e.protocol < protocol) ∨
    (e.uid = uid ∧ e.protocol = protocol ∧ e.port < port)
  (entries[lowerBound before entries entries.length 0 entries.length]?).filter fun e =>
    e.uid = uid ∧ e.port = port ∧ e.protocol = protocol

def portStatsCompare (a b : PortCount) : Int :=
  if a.uid ≠ b.uid then if a.uid < b.uid then -1 else 1
  else if a.protocol ≠ b.protocol then (a.protocol.toNat : Int) - b.protocol.toNat
  else if a.port ≠ b.port then if a.port < b.port then -1 else 1
  else 0

def statsDelta (current previous : UInt64) : UInt64 := if current ≥ previous then current - previous else current

/-- The test by which the first pass of `append_stats_point` counts an entry. -/
def uidChanged (previous : List UidStats) (e : UidStats) : Bool :=
  match findUidStats previous e.uid with
  | none => true
  | some old => StatsCounters.fields.any fun f => statsDelta (f e.counters) (f old.counters) ≠ 0

def StatsCounters.delta (current old : StatsCounters) : StatsCounters where
  ioctl := statsDelta current.ioctl old.ioctl
  netlink := statsDelta current.netlink old.netlink
  proc := statsDelta current.proc old.proc
  sockopt := statsDelta current.sockopt old.sockopt
  connect := statsDelta current.connect old.connect
  getname := statsDelta current.getname old.getname
  port := statsDelta current.port old.port
  javaPm := statsDelta current.javaPm old.javaPm
  javaUm := statsDelta current.javaUm old.javaUm
  javaNc := statsDelta current.javaNc old.javaNc
  javaNi := statsDelta current.javaNi old.javaNi
  javaNet := statsDelta current.javaNet old.javaNet
  javaLp := statsDelta current.javaLp old.javaLp
  javaCs := statsDelta current.javaCs old.javaCs

/-- What the second pass writes for an entry, if it does not `continue`. -/
def uidDelta (previous : List UidStats) (e : UidStats) : Option UidStats :=
  let old := findUidStats previous e.uid
  if old.any fun old => StatsCounters.fields.all fun f => statsDelta (f e.counters) (f old.counters) = 0 then none
  else some ⟨e.uid, e.counters.delta (old.elim .zero UidStats.counters)⟩

def portDelta (previous : List PortCount) (e : PortCount) : Option PortCount :=
  let old := findPortStats previous e.uid e.port e.protocol
  let delta := statsDelta e.count (old.elim 0 PortCount.count)
  if delta = 0 then none else some { e with count := delta }

def portChanged (previous : List PortCount) (e : PortCount) : Bool :=
  statsDelta e.count ((findPortStats previous e.uid e.port e.protocol).elim 0 PortCount.count) ≠ 0

/-- Which of the four allocations of `append_stats_point` succeed. -/
structure PointAllocs where
  previous : Bool
  previousPorts : Bool
  entries : Bool
  ports : Bool

/-- The two `realloc`s; the flag is false where the function returns. -/
def growPrevious (alloc : PointAllocs) (current : KernelStats) (ring : StatsRing) : Bool × StatsRing :=
  if current.uids.length > ring.previousCapacity ∧ ¬ alloc.previous then (false, ring)
  else
    let ring := { ring with previousCapacity := max ring.previousCapacity current.uids.length }
    if current.ports.length > ring.previousPortCapacity ∧ ¬ alloc.previousPorts then (false, ring)
    else (true, { ring with previousPortCapacity := max ring.previousPortCapacity current.ports.length })

/-- The point for a sample; `none` where one of the two `calloc`s fails. -/
def makePoint (alloc : PointAllocs) (current : KernelStats) (timestampMs : UInt64) (ring : StatsRing) :
    Option StatsPoint :=
  let gap := !ring.baselineValid
  let gap := if ring.baselineValid ∧ current.sequence ≤ ring.previousSequence then true else gap
  let deltaCount := if gap then 0 else current.uids.countP (uidChanged ring.previous)
  let portDeltaCount := if gap then 0 else current.ports.countP (portChanged ring.previousPorts)
  if deltaCount ≠ 0 ∧ ¬ alloc.entries then none
  else if portDeltaCount ≠ 0 ∧ ¬ alloc.ports then none
  else some {
    timestampMs
    gap
    entries :=
      if gap then []
      else fill (uidDelta ring.previous) current.uids 0 (List.replicate deltaCount ⟨0, .zero⟩)
    ports :=
      if gap then []
      else fill (portDelta ring.previousPorts) current.ports 0 (List.replicate portDeltaCount ⟨0, 0, 0, 0⟩) }

/-- The loop that drops points older than the retention time, at most `fuel` of them. -/
def expirePoints (timestampMs : UInt64) : ℕ → StatsRing → StatsRing
  | 0, ring => ring
  | fuel + 1, ring =>
    if ring.points.count ≠ 0 ∧ (ring.points.get 0).timestampMs + statsRetentionSec * 1000 ≤ timestampMs then
      expirePoints timestampMs fuel
        { ring with points := ring.points.dropOldest .zero, droppedIntervals := ring.droppedIntervals + 1 }
    else ring

def pushPoint (point : StatsPoint) (ring : StatsRing) : StatsRing :=
  { ring with
    points := ring.points.push .zero point
    droppedIntervals :=
      if ring.points.count = statsRingPoints then ring.droppedIntervals + 1 else ring.droppedIntervals }

/-- `append_stats_point`: the point it appends, if it does not return early, and the ring it leaves. -/
def appendStatsPoint (alloc : PointAllocs) (current : KernelStats) (timestampMs : UInt64) (ring : StatsRing) :
    Option StatsPoint × StatsRing :=
  let (grown, ring) := growPrevious alloc current ring
  if !grown then (none, ring)
  else match makePoint alloc current timestampMs ring with
    | none => (none, ring)
    | some point =>
      let ring := pushPoint point (expirePoints timestampMs ring.points.count ring)
      (some point, { ring with
        previous := current.uids
        previousPorts := current.ports
        previousSequence := current.sequence
        latestSequence := current.sequence
        droppedPortEntries := current.droppedPortEntries
        baselineValid := true })

/-- `qsort` of the ports by `sample_stats`. -/
def KernelStats.sortPorts (current : KernelStats) : KernelStats :=
  if current.ports.length > 1 then { current with ports := sortCmp portStatsCompare current.ports } else current

/-- A `sample_stats` for which the kernel has been read. -/
structure Sampling where
  alloc : PointAllocs
  stats : KernelStats
  timestampMs : UInt64

def sampleStats (s : Sampling) (ring : StatsRing) : Option StatsPoint × StatsRing :=
  appendStatsPoint s.alloc s.stats.sortPorts s.timestampMs ring

/-- A row of samples: those that were appended, each with its point, and the ring at the end. -/
def runSamples : List Sampling → StatsRing → List (KernelStats × StatsPoint) × StatsRing
  | [], ring => ([], ring)
  | s :: rest, ring =>
    let (point, ring) := sampleStats s ring
    let (appended, ring) := runSamples rest ring
    (point.toList.map (fun p => (s.stats, p)) ++ appended, ring)

/-! ### Searching the baseline -/

/-- The place of a key in the order of `port_stats_compare`. -/
def PortKey.rank (k : PortKey) : ℕ := (k.uid.toNat * 2 ^ 8 + k.protocol.toNat) * 2 ^ 16 + k.port.toNat

theorem PortKey.rank_inj {k k' : PortKey} : k.rank = k'.rank ↔ k = k' := by
  rw [rank, rank, digit_eq k.port.toNat_lt k'.port.toNat_lt, digit_eq k.protocol.toNat_lt k'.protocol.toNat_lt,
    UInt32.toNat_inj, UInt8.toNat_inj, UInt16.toNat_inj]
  cases k
  cases k'
  simp only [PortKey.mk.injEq]
  rw [and_right_comm, and_assoc]

theorem PortKey.rank_lt {k k' : PortKey} :
    k.rank < k'.rank ↔ k.uid < k'.uid ∨ (k.uid = k'.uid ∧ k.protocol < k'.protocol) ∨
    (k.uid = k'.uid ∧ k.protocol = k'.protocol ∧ k.port < k'.port) := by
  rw [rank, rank, digit_lt k.port.toNat_lt k'.port.toNat_lt, digit_lt k.protocol.toNat_lt k'.protocol.toNat_lt,
    digit_eq k.protocol.toNat_lt k'.protocol.toNat_lt]
  simp only [UInt32.toNat_inj, UInt8.toNat_inj, ← UInt32.lt_iff_toNat_lt, ← UInt16.lt_iff_toNat_lt,
    ← UInt8.lt_iff_toNat_lt]
  rw [or_assoc, and_assoc]

theorem cmpKey_ports : CmpKey portStatsCompare fun e => e.key.rank := by
  intro a b
  have hsign {c : Prop} [Decidable c] : (if c then (-1 : Int) else 1) ≤ 0 ↔ c := by
    by_cases hc : c <;> simp [hc]
  have heq : a.key = b.key ↔ a.uid = b.uid ∧ a.protocol = b.protocol ∧ a.port = b.port := by
    simp only [PortCount.key, PortKey.mk.injEq]
    tauto
  have hlt := @PortKey.rank_lt a.key b.key
  rw [Nat.le_iff_lt_or_eq, hlt, PortKey.rank_inj, heq, portStatsCompare]
  dsimp only [PortCount.key]
  by_cases hu : a.uid = b.uid
  case neg => simp only [hu, ne_eq, not_false_eq_true, if_true, hsign, false_and, or_false]
  rw [if_neg (not_not.2 hu), hu]
  by_cases hpr : a.protocol = b.protocol
  case neg =>
    have hne := mt UInt8.toNat_inj.1 hpr
    rw [if_pos hpr, UInt8.lt_iff_toNat_lt]
    simp only [UInt32.lt_irrefl, hpr, true_and, false_and, false_or, or_false]
    omega
  rw [if_neg (not_not.2 hpr), hpr]
  by_cases hp : a.port = b.port
  · rw [if_neg (not_not.2 hp), hp]
    simp
  · simp only [hp, ne_eq, not_false_eq_true, if_true, hsign, UInt32.lt_irrefl, UInt8.lt_irrefl, true_and, and_false,
      false_or, or_false]

theorem findUidStats_eq {entries : List UidStats} (h : StrictBy statsKey entries) (uid : UInt32) :
    findUidStats entries uid = entries.find? fun e => e.uid = uid :=
  lowerBound_eq_find? (k := uid.toNat) h (fun e => by rw [decide_eq_true_iff]; exact UInt32.lt_iff_toNat_lt)
    (fun e => by rw [decide_eq_true_iff]; exact UInt32.toNat_inj.symm)

theorem findPortStats_eq {entries : List PortCount} (h : StrictBy (fun e => e.key.rank) entries) (k : PortKey) :
    findPortStats entries k.uid k.port k.protocol = entries.find? fun e => e.key = k := by
  have hkey (e : PortCount) : (e.uid = k.uid ∧ e.port = k.port ∧ e.protocol = k.protocol) ↔ e.key = k := by
    cases k
    simp [PortCount.key]
  have hbefore (e : PortCount) : decide (e.uid < k.uid ∨ (e.uid = k.uid ∧ e.protocol < k.protocol) ∨
      (e.uid = k.uid ∧ e.protocol = k.protocol ∧ e.port < k.port)) = true ↔ e.key.rank < k.rank := by
    rw [decide_eq_true_iff]
    exact (PortKey.rank_lt (k := e.key)).symm
  have hhere (e : PortCount) : decide (e.key = k) = true ↔ e.key.rank = k.rank := by
    rw [decide_eq_true_iff, PortKey.rank_inj]
  simp only [findPortStats, hkey]
  exact lowerBound_eq_find? h hbefore hhere

/-! ### Appending a point -/

section Passes
variable {previous : List UidStats} {previousPorts : List PortCount}

/-- Both passes over the uids agree on which entries have changed. -/
theorem uidChanged_eq (e : UidStats) : uidChanged previous e = (uidDelta previous e).isSome := by
  unfold uidChanged uidDelta
  cases findUidStats previous e.uid with
  | none => rfl
  | some old =>
    dsimp only [Option.any_some]
    by_cases h : StatsCounters.fields.all fun f => statsDelta (f e.counters) (f old.counters) = 0
    · rw [if_pos h, Option.isSome_none]
      simpa using h
    · rw [if_neg h, Option.isSome_some]
      simpa using h

theorem portChanged_eq (e : PortCount) : portChanged previousPorts e = (portDelta previousPorts e).isSome := by
  unfold portChanged portDelta
  dsimp only
  by_cases h : statsDelta e.count ((findPortStats previousPorts e.uid e.port e.protocol).elim 0 PortCount.count) = 0
  · rw [if_pos h, h]
    rfl
  · rw [if_neg h]
    simpa using h

theorem uidDelta_uid {e e' : UidStats} (h : uidDelta previous e = some e') : e'.uid = e.uid := by
  unfold uidDelta at h
  dsimp only at h
  split_ifs at h
  cases h
  rfl

theorem portDelta_key {e e' : PortCount} (h : portDelta previousPorts e = some e') : e'.key = e.key := by
  unfold portDelta at h
  dsimp only at h
  split_ifs at h
  cases h
  rfl

/-- So the second pass fills the array that the first one asked for. -/
theorem fill_counted {α β : Type} {f : α → Option β} {changed : α → Bool} (h : ∀ x, changed x = (f x).isSome)
    (xs : List α) (zero : β) : fill f xs 0 (List.replicate (xs.countP changed) zero) = xs.filterMap f := by
  have hcount : xs.countP changed = (xs.filterMap f).length := by
    rw [List.length_filterMap_eq_countP]
    exact List.countP_congr fun x _ => by rw [h x]
  exact fill_eq f xs [] _ (by rw [List.length_replicate, hcount])

end Passes

/-- The reference that later samples are compared with. -/
structure StatsRing.Baseline where
  valid : Bool
  sequence : UInt64
  uids : List UidStats
  ports : List PortCount

def StatsRing.baseline (ring : StatsRing) : StatsRing.Baseline :=
  ⟨ring.baselineValid, ring.previousSequence, ring.previous, ring.previousPorts⟩

/-- No baseline, or a sequence number that has not grown. -/
def StatsRing.gapAt (ring : StatsRing) (sequence : UInt64) : Bool :=
  !ring.baselineValid || decide (sequence ≤ ring.previousSequence)

/-- What appending the point of a sample does to a ring. -/
structure StatsRing.Appends (ring : StatsRing) (current : KernelStats) (p : StatsPoint) (ring' : StatsRing) : Prop where
  gap : p.gap = ring.gapAt current.sequence
  entries : p.entries = if p.gap then [] else current.uids.filterMap (uidDelta ring.previous)
  ports : p.ports = if p.gap then [] else current.ports.filterMap (portDelta ring.previousPorts)
  baseline : ring'.baseline = ⟨true, current.sequence, current.uids, current.ports⟩
  contents : ∃ old, ring'.points.contents = ring.points.contents.drop old ++ [p]

section Append
variable {alloc : PointAllocs} {current : KernelStats} {timestampMs : UInt64} {ring : StatsRing} {p : StatsPoint}

theorem makePoint_eq_some (h : makePoint alloc current timestampMs ring = some p) :
    p.timestampMs = timestampMs ∧ p.gap = ring.gapAt current.sequence ∧
      (p.entries = if p.gap then [] else current.uids.filterMap (uidDelta ring.previous)) ∧
      p.ports = if p.gap then [] else current.ports.filterMap (portDelta ring.previousPorts) := by
  unfold makePoint at h
  have hgap : (if ring.baselineValid ∧ current.sequence ≤ ring.previousSequence then true else !ring.baselineValid) =
      ring.gapAt current.sequence := by
    cases hvalid : ring.baselineValid <;> simp [StatsRing.gapAt, hvalid]
  simp only [hgap] at h
  generalize ring.gapAt current.sequence = gap at h
  by_cases hentries : (if gap then 0 else current.uids.countP (uidChanged ring.previous)) ≠ 0 ∧ ¬ alloc.entries
  · rw [if_pos hentries] at h
    cases h
  rw [if_neg hentries] at h
  by_cases hports : (if gap then 0 else current.ports.countP (portChanged ring.previousPorts)) ≠ 0 ∧ ¬ alloc.ports
  · rw [if_pos hports] at h
    cases h
  rw [if_neg hports] at h
  cases h
  cases gap with
  | true => exact ⟨rfl, rfl, rfl, rfl⟩
  | false => exact ⟨rfl, rfl, fill_counted uidChanged_eq .., fill_counted portChanged_eq ..⟩

/-- Older than the retention time when the clock shows `timestampMs`. -/
def StatsPoint.expired (timestampMs : UInt64) (p : StatsPoint) : Bool :=
  p.timestampMs + statsRetentionSec * 1000 ≤ timestampMs

/-- The points that the ring has counted: those it dropped and those it has. -/
def StatsRing.counted (ring : StatsRing) : UInt64 := ring.droppedIntervals + UInt64.ofNat ring.points.count

theorem expirePoints_eq (timestampMs : UInt64) {fuel : ℕ} (ring : StatsRing) (hfuel : ring.points.count ≤ fuel) :
    ∃ points dropped, expirePoints timestampMs fuel ring = { ring with points, droppedIntervals := dropped } ∧
      points.contents = ring.points.contents.dropWhile (StatsPoint.expired timestampMs) ∧
      dropped + UInt64.ofNat points.count = ring.counted := by
  induction fuel generalizing ring with
  | zero =>
    refine ⟨_, _, rfl, ?_, rfl⟩
    rw [List.length_eq_zero_iff.1 (RingBuffer.length_contents.trans (Nat.le_zero.1 hfuel)), List.dropWhile_nil]
  | succ fuel ih =>
    rw [expirePoints]
    cases hcount : ring.points.count with
    | zero =>
      rw [if_neg (fun h => h.1 rfl)]
      refine ⟨_, _, rfl, ?_, rfl⟩
      rw [List.length_eq_zero_iff.1 (RingBuffer.length_contents.trans hcount), List.dropWhile_nil]
    | succ c =>
      have hcontents := RingBuffer.contents_succ hcount
      by_cases hold : (ring.points.get 0).expired timestampMs = true
      · have hold' : (ring.points.get 0).timestampMs + statsRetentionSec * 1000 ≤ timestampMs := of_decide_eq_true hold
        rw [if_pos ⟨Nat.succ_ne_zero c, hold'⟩]
        have hless : (ring.points.dropOldest .zero).count = c := by
          show ring.points.count - 1 = c
          omega
        obtain ⟨points, dropped, hring, hpoints, hdropped⟩ := ih
          { ring with points := ring.points.dropOldest .zero, droppedIntervals := ring.droppedIntervals + 1 }
          (by rw [hless]; omega)
        refine ⟨points, dropped, hring, ?_, ?_⟩
        · rw [hpoints, RingBuffer.contents_dropOldest, hcontents, List.dropWhile_cons_of_pos hold, List.tail_cons]
        · rw [hdropped, StatsRing.counted, StatsRing.counted, hless, hcount, UInt64.ofNat_add, UInt64.add_assoc,
            UInt64.add_comm 1]
          rfl
      · have hold' : ¬ (ring.points.get 0).timestampMs + statsRetentionSec * 1000 ≤ timestampMs :=
          fun h => hold (decide_eq_true h)
        rw [if_neg (fun h => hold' h.2)]
        refine ⟨_, _, rfl, ?_, rfl⟩
        rw [hcontents, List.dropWhile_cons_of_neg hold]

theorem contents_pushPoint (p : StatsPoint) (ring : StatsRing) :
    ∃ old, (pushPoint p ring).points.contents = ring.points.contents.drop old ++ [p] := by
  have hpush : (pushPoint p ring).points.contents = _ := RingBuffer.contents_push
  by_cases hfull : ring.points.count = statsRingPoints
  · exact ⟨1, by rw [hpush, if_pos hfull, List.drop_one]⟩
  · exact ⟨0, by rw [hpush, if_neg hfull, List.drop_zero]⟩

theorem appendStatsPoint_allocated (current : KernelStats) (timestampMs : UInt64) (ring : StatsRing) :
    ∃ p ring', appendStatsPoint ⟨true, true, true, true⟩ current timestampMs ring = (some p, ring') := by
  simp [appendStatsPoint, growPrevious, makePoint]

/-- Either an allocation fails and only capacities change, or the point of the grown ring is pushed to it. -/
theorem appendStatsPoint_eq (alloc : PointAllocs) (current : KernelStats) (timestampMs : UInt64) (ring : StatsRing) :
    ∃ grown : StatsRing, (∃ capacity portCapacity, grown =
        { ring with previousCapacity := capacity, previousPortCapacity := portCapacity }) ∧
      (appendStatsPoint alloc current timestampMs ring = (none, grown) ∨
      ∃ p, makePoint alloc current timestampMs grown = some p ∧
        appendStatsPoint alloc current timestampMs ring =
          (some p, { pushPoint p (expirePoints timestampMs grown.points.count grown) with
            previous := current.uids
            previousPorts := current.ports
            previousSequence := current.sequence
            latestSequence := current.sequence
            droppedPortEntries := current.droppedPortEntries
            baselineValid := true })) := by
  have hgrow : ∃ ok capacity portCapacity, growPrevious alloc current ring =
      (ok, { ring with previousCapacity := capacity, previousPortCapacity := portCapacity }) := by
    unfold growPrevious
    split_ifs
    · exact ⟨_, _, _, rfl⟩
    · dsimp only
      split_ifs
      · exact ⟨_, _, _, rfl⟩
      · exact ⟨_, _, _, rfl⟩
  obtain ⟨ok, capacity, portCapacity, hgrow⟩ := hgrow
  refine ⟨_, ⟨capacity, portCapacity, rfl⟩, ?_⟩
  unfold appendStatsPoint
  rw [hgrow]
  dsimp only
  cases ok with
  | false => exact .inl rfl
  | true =>
    cases hpoint : makePoint alloc current timestampMs
        { ring with previousCapacity := capacity, previousPortCapacity := portCapacity } with
    | none => exact .inl rfl
    | some p => exact .inr ⟨p, rfl, rfl⟩

theorem appendStatsPoint_cases (alloc : PointAllocs) (current : KernelStats) (timestampMs : UInt64) (ring : StatsRing) :
    (∃ capacity portCapacity, appendStatsPoint alloc current timestampMs ring =
      (none, { ring with previousCapacity := capacity, previousPortCapacity := portCapacity })) ∨
    ∃ p ring', appendStatsPoint alloc current timestampMs ring = (some p, ring') ∧ ring.Appends current p ring' := by
  obtain ⟨_, ⟨capacity, portCapacity, rfl⟩, hnone | ⟨p, hpoint, hsome⟩⟩ :=
    appendStatsPoint_eq alloc current timestampMs ring
  · exact .inl ⟨_, _, hnone⟩
  · obtain ⟨-, hgap, hentries, hports⟩ := makePoint_eq_some hpoint
    refine .inr ⟨p, _, hsome, hgap, hentries, hports, rfl, ?_⟩
    obtain ⟨old', hpush⟩ := contents_pushPoint p (expirePoints timestampMs ring.points.count
      { ring with previousCapacity := capacity, previousPortCapacity := portCapacity })
    obtain ⟨points, dropped, hring, hcontents, -⟩ := expirePoints_eq timestampMs
      { ring with previousCapacity := capacity, previousPortCapacity := portCapacity } (Nat.le_refl _)
    rw [List.dropWhile_eq_drop_findIdx_not] at hcontents
    exact ⟨_, hpush.trans (by rw [hring, hcontents, List.drop_drop])⟩

end Append

/-! ### Deltas -/

/-- A counter of a uid in a sample, 0 if the uid is absent. -/
def KernelStats.uidValue (s : KernelStats) (f : StatsCounters → UInt64) (uid : UInt32) : ℕ :=
  valueAt UidStats.uid (fun e => (f e.counters).toNat) s.uids uid

def KernelStats.portValue (s : KernelStats) (k : PortKey) : ℕ :=
  valueAt PortCount.key (fun e => e.count.toNat) s.ports k

/-- What a point adds to a counter of a uid. -/
def StatsPoint.uidTotal (p : StatsPoint) (f : StatsCounters → UInt64) (uid : UInt32) : ℕ :=
  totalAt UidStats.uid (fun e => (f e.counters).toNat) p.entries uid

def StatsPoint.portTotal (p : StatsPoint) (k : PortKey) : ℕ := totalAt PortCount.key (fun e => e.count.toNat) p.ports k

/-- A snapshot as the kernel makes it: sorted by uid, one entry for each port key. -/
structure KernelStats.Ok (s : KernelStats) : Prop where
  uids : StrictBy statsKey s.uids
  ports : (s.ports.map PortCount.key).Nodup

/-- Counters do not decrease and entries do not disappear from `s` to `s'`. -/
structure KernelStats.Grows (s s' : KernelStats) : Prop where
  sequence : s.sequence < s'.sequence
  uids : ∀ e ∈ s.uids, ∃ e' ∈ s'.uids, e'.uid = e.uid ∧ ∀ f ∈ StatsCounters.fields, f e.counters ≤ f e'.counters
  ports : ∀ e ∈ s.ports, ∃ e' ∈ s'.ports, e'.key = e.key ∧ e.count ≤ e'.count

theorem toNat_statsDelta {current previous : UInt64} (h : previous ≤ current) :
    (statsDelta current previous).toNat = current.toNat - previous.toNat := by
  rw [statsDelta, if_pos h, UInt64.toNat_sub_of_le _ _ h]

theorem fields_delta {f : StatsCounters → UInt64} (h : f ∈ StatsCounters.fields) (c old : StatsCounters) :
    f (c.delta old) = statsDelta (f c) (f old) := by
  simp only [StatsCounters.fields, List.mem_cons, List.not_mem_nil, or_false] at h
  rcases h with rfl | rfl | rfl | rfl | rfl | rfl | rfl | rfl | rfl | rfl | rfl | rfl | rfl | rfl <;> rfl

theorem fields_zero {f : StatsCounters → UInt64} (h : f ∈ StatsCounters.fields) : f .zero = 0 := by
  simp only [StatsCounters.fields, List.mem_cons, List.not_mem_nil, or_false] at h
  rcases h with rfl | rfl | rfl | rfl | rfl | rfl | rfl | rfl | rfl | rfl | rfl | rfl | rfl | rfl <;> rfl

theorem uidDelta_value {previous : List UidStats} (hs : StrictBy statsKey previous) {f : StatsCounters → UInt64}
    (hf : f ∈ StatsCounters.fields) (e : UidStats)
    (hle : valueAt UidStats.uid (fun e => (f e.counters).toNat) previous e.uid ≤ (f e.counters).toNat) :
    valueAt UidStats.uid (fun e => (f e.counters).toNat) previous e.uid +
      (uidDelta previous e).elim 0 (fun e => (f e.counters).toNat) = (f e.counters).toNat := by
  unfold uidDelta
  rw [findUidStats_eq hs]
  unfold valueAt at hle ⊢
  generalize (previous.find? fun x => x.uid = e.uid) = old at hle ⊢
  cases old with
  | none =>
    show 0 + (f (e.counters.delta .zero)).toNat = _
    rw [fields_delta hf, fields_zero hf, toNat_statsDelta UInt64.zero_le, UInt64.toNat_zero]
    omega
  | some old =>
    have hle : f old.counters ≤ f e.counters := UInt64.le_iff_toNat_le.2 hle
    have hdelta := toNat_statsDelta hle
    rw [UInt64.le_iff_toNat_le] at hle
    simp only [Option.any_some, Option.elim_some]
    by_cases hsame : StatsCounters.fields.all fun f => statsDelta (f e.counters) (f old.counters) = 0
    · rw [if_pos hsame]
      have hzero : statsDelta (f e.counters) (f old.counters) = 0 := by simpa using List.all_eq_true.1 hsame f hf
      rw [hzero, UInt64.toNat_zero] at hdelta
      rw [Option.elim_none]
      omega
    · rw [if_neg hsame, Option.elim_some, fields_delta hf, hdelta]
      omega

theorem portDelta_value {previous : List PortCount} (hs : StrictBy (fun e => e.key.rank) previous) (e : PortCount)
    (hle : valueAt PortCount.key (fun e => e.count.toNat) previous e.key ≤ e.count.toNat) :
    valueAt PortCount.key (fun e => e.count.toNat) previous e.key +
      (portDelta previous e).elim 0 (fun e => e.count.toNat) = e.count.toNat := by
  have hold : valueAt PortCount.key (fun e => e.count.toNat) previous e.key =
      ((findPortStats previous e.uid e.port e.protocol).elim 0 PortCount.count).toNat := by
    rw [valueAt, ← findPortStats_eq hs e.key]
    show (findPortStats previous e.uid e.port e.protocol).elim 0 _ = _
    cases findPortStats previous e.uid e.port e.protocol <;> rfl
  unfold portDelta
  dsimp only
  rw [hold] at hle ⊢
  generalize (findPortStats previous e.uid e.port e.protocol).elim 0 PortCount.count = old at hle
  have hdelta := toNat_statsDelta (UInt64.le_iff_toNat_le.2 hle)
  by_cases hzero : statsDelta e.count old = 0
  · rw [if_pos hzero, Option.elim_none]
    rw [hzero, UInt64.toNat_zero] at hdelta
    omega
  · rw [if_neg hzero, Option.elim_some]
    dsimp only
    omega

theorem nodup_uids {entries : List UidStats} (h : StrictBy statsKey entries) : (entries.map UidStats.uid).Nodup :=
  List.Nodup.of_map UInt32.toNat (by rw [List.map_map]; exact h.nodup)

theorem KernelStats.Ok.nodup {s : KernelStats} (h : s.Ok) : (s.uids.map UidStats.uid).Nodup := nodup_uids h.uids

theorem KernelStats.sortPorts_perm (s : KernelStats) : s.sortPorts.ports.Perm s.ports := by
  unfold KernelStats.sortPorts
  split_ifs
  · exact sortCmp_perm ..
  · exact .refl _

theorem KernelStats.sortPorts_uids (s : KernelStats) : s.sortPorts.uids = s.uids := by
  unfold KernelStats.sortPorts
  split_ifs <;> rfl

theorem KernelStats.sortPorts_sequence (s : KernelStats) : s.sortPorts.sequence = s.sequence := by
  unfold KernelStats.sortPorts
  split_ifs <;> rfl

theorem KernelStats.Ok.sortPorts {s : KernelStats} (h : s.Ok) : StrictBy (fun e => e.key.rank) s.sortPorts.ports := by
  unfold KernelStats.sortPorts
  by_cases hlen : s.ports.length > 1
  · rw [if_pos hlen]
    refine (strictBy_sortCmp_iff cmpKey_ports s.ports).2 ?_
    have hranks := h.ports.map (f := PortKey.rank) fun _ _ => PortKey.rank_inj.1
    rwa [List.map_map] at hranks
  · rw [if_neg hlen]
    generalize s.ports = ports at hlen ⊢
    rcases ports with _ | ⟨e, _ | ⟨e', rest⟩⟩
    · exact .nil
    · exact List.pairwise_singleton ..
    · exact absurd (Nat.succ_lt_succ (Nat.succ_pos _)) hlen

/-- The baseline is the sample `s`. -/
def StatsRing.HasBaseline (ring : StatsRing) (s : KernelStats) : Prop :=
  ring.baseline = ⟨true, s.sequence, s.uids, s.sortPorts.ports⟩

section Growth
variable {ring ring' : StatsRing} {s' : KernelStats} {p : StatsPoint}

/-- A point that is no gap contains what a counter that has not decreased has grown by. -/
theorem StatsRing.Appends.uid_growth (h : ring.Appends s'.sortPorts p ring') (hgap : p.gap = false)
    (hprevious : StrictBy statsKey ring.previous) (hs' : s'.Ok) {f : StatsCounters → UInt64}
    (hf : f ∈ StatsCounters.fields)
    (hle : ∀ uid, valueAt UidStats.uid (fun e => (f e.counters).toNat) ring.previous uid ≤ s'.uidValue f uid)
    (uid : UInt32) :
    valueAt UidStats.uid (fun e => (f e.counters).toNat) ring.previous uid + p.uidTotal f uid = s'.uidValue f uid := by
  have hentries := h.entries
  rw [hgap, s'.sortPorts_uids] at hentries
  rw [StatsPoint.uidTotal, hentries]
  exact totalAt_growth hs'.nodup (fun _ _ => uidDelta_uid) hle (fun e _ => uidDelta_value hprevious hf e) uid

theorem StatsRing.Appends.port_growth (h : ring.Appends s'.sortPorts p ring') (hgap : p.gap = false)
    (hprevious : StrictBy (fun e => e.key.rank) ring.previousPorts) (hs' : s'.Ok)
    (hle : ∀ k, valueAt PortCount.key (fun e => e.count.toNat) ring.previousPorts k ≤ s'.portValue k) (k : PortKey) :
    valueAt PortCount.key (fun e => e.count.toNat) ring.previousPorts k + p.portTotal k = s'.portValue k := by
  have hpoints := h.ports
  rw [hgap] at hpoints
  have hperm := s'.sortPorts_perm
  have hn : (s'.sortPorts.ports.map PortCount.key).Nodup := (hperm.map _).nodup_iff.2 hs'.ports
  unfold KernelStats.portValue at hle ⊢
  simp only [← valueAt_perm hn hperm] at hle ⊢
  rw [StatsPoint.portTotal, hpoints]
  exact totalAt_growth hn (fun _ _ => portDelta_key) hle (fun e _ => portDelta_value hprevious e) k

end Growth

/-- A point contains exactly what the counters have grown by since the baseline. -/
theorem StatsRing.Appends.growth {ring ring' : StatsRing} {s s' : KernelStats} {p : StatsPoint}
    (h : ring.Appends s'.sortPorts p ring') (hbase : ring.HasBaseline s) (hs : s.Ok) (hs' : s'.Ok)
    (hgrows : s.Grows s') :
    p.gap = false ∧
      (∀ f ∈ StatsCounters.fields, ∀ uid, s.uidValue f uid + p.uidTotal f uid = s'.uidValue f uid) ∧
      ∀ k, s.portValue k + p.portTotal k = s'.portValue k := by
  obtain ⟨hvalid, hsequence, huids, hports⟩ := StatsRing.Baseline.mk.inj hbase
  have hgap : p.gap = false := by
    rw [h.gap, StatsRing.gapAt, hvalid, hsequence, s'.sortPorts_sequence]
    simpa using hgrows.sequence
  refine ⟨hgap, fun f hf => ?_, ?_⟩
  · have hgrowth := h.uid_growth hgap (huids ▸ hs.uids) hs' hf
    rw [huids] at hgrowth
    refine hgrowth (valueAt_le_valueAt hs'.nodup fun e he => ?_)
    obtain ⟨e', he', huid, hle⟩ := hgrows.uids e he
    exact ⟨e', he', huid, UInt64.le_iff_toNat_le.1 (hle f hf)⟩
  · have hgrowth := h.port_growth hgap (hports ▸ hs.sortPorts) hs'
    rw [hports, ← funext (valueAt_perm hs.ports s.sortPorts_perm.symm)] at hgrowth
    refine hgrowth (valueAt_le_valueAt hs'.ports fun e he => ?_)
    obtain ⟨e', he', hkey, hle⟩ := hgrows.ports e he
    exact ⟨e', he', hkey, UInt64.le_iff_toNat_le.1 hle⟩

/-! ### Runs -/

/-- Samples of counters that only grow. -/
structure Cumulative (samples : List Sampling) : Prop where
  ok : ∀ s ∈ samples, s.stats.Ok
  grows : samples.Pairwise fun s s' => s.stats.Grows s'.stats

theorem sampleStats_cases (s : Sampling) (ring : StatsRing) :
    ((sampleStats s ring).1 = none ∧ (sampleStats s ring).2.points = ring.points ∧
      (sampleStats s ring).2.baseline = ring.baseline) ∨
    ∃ p, (sampleStats s ring).1 = some p ∧ ring.Appends s.stats.sortPorts p (sampleStats s ring).2 := by
  rcases appendStatsPoint_cases s.alloc s.stats.sortPorts s.timestampMs ring with ⟨_, _, h⟩ | ⟨p, ring', h, happ⟩
  · refine .inl ?_
    rw [sampleStats, h]
    exact ⟨rfl, rfl, rfl⟩
  · refine .inr ⟨p, ?_⟩
    rw [sampleStats, h]
    exact ⟨rfl, happ⟩

theorem StatsRing.Appends.hasBaseline {ring ring' : StatsRing} {s : KernelStats} {p : StatsPoint}
    (h : ring.Appends s.sortPorts p ring') : ring'.HasBaseline s := by
  rw [StatsRing.HasBaseline, h.baseline, s.sortPorts_sequence, s.sortPorts_uids]

theorem runSamples_dropped {s : Sampling} {ring : StatsRing} (h : (sampleStats s ring).1 = none)
    (rest : List Sampling) :
    runSamples (s :: rest) ring = runSamples rest (sampleStats s ring).2 := by
  show ((sampleStats s ring).1.toList.map (fun p => (s.stats, p)) ++ _, _) = _
  rw [h]
  rfl

theorem runSamples_appended {s : Sampling} {ring : StatsRing} {p : StatsPoint} (h : (sampleStats s ring).1 = some p)
    (rest : List Sampling) :
    (runSamples (s :: rest) ring).1 = (s.stats, p) :: (runSamples rest (sampleStats s ring).2).1 := by
  show (sampleStats s ring).1.toList.map (fun p => (s.stats, p)) ++ _ = _
  rw [h]
  rfl

theorem runSamples_growth {samples : List Sampling} (hcum : Cumulative samples) {s : KernelStats} (hs : s.Ok)
    (hgrows : ∀ x ∈ samples, s.Grows x.stats) {ring : StatsRing} (hbase : ring.HasBaseline s) :
    (∀ a ∈ (runSamples samples ring).1, a.2.gap = false) ∧
      (∀ f ∈ StatsCounters.fields, ∀ uid,
        s.uidValue f uid + ((runSamples samples ring).1.map fun a => a.2.uidTotal f uid).sum =
          (((runSamples samples ring).1.map Prod.fst).getLastD s).uidValue f uid) ∧
      ∀ k, s.portValue k + ((runSamples samples ring).1.map fun a => a.2.portTotal k).sum =
        (((runSamples samples ring).1.map Prod.fst).getLastD s).portValue k := by
  induction samples generalizing s ring with
  | nil => exact ⟨nofun, fun _ _ _ => rfl, fun _ => rfl⟩
  | cons x rest ih =>
    obtain ⟨hx, hok⟩ := List.forall_mem_cons.1 hcum.ok
    obtain ⟨hxrest, hrest⟩ := List.pairwise_cons.1 hcum.grows
    obtain ⟨hsx, hsrest⟩ := List.forall_mem_cons.1 hgrows
    rcases sampleStats_cases x ring with ⟨hnone, -, hsame⟩ | ⟨p, hsome, happ⟩
    · -- the baseline stays that of `s`, so the next point covers this sample as well
      rw [runSamples_dropped hnone]
      exact ih ⟨hok, hrest⟩ hs hsrest (hsame.trans hbase)
    · rw [runSamples_appended hsome]
      obtain ⟨hgap, huid, hport⟩ := happ.growth hbase hs hx hsx
      obtain ⟨hgaps, huids, hports⟩ := ih ⟨hok, hrest⟩ hx hxrest happ.hasBaseline
      refine ⟨List.forall_mem_cons.2 ⟨hgap, hgaps⟩, fun f hf uid => ?_, fun k => ?_⟩
      · rw [List.map_cons, List.sum_cons, ← Nat.add_assoc, huid f hf, List.map_cons, List.getLastD_cons, huids f hf]
      · rw [List.map_cons, List.sum_cons, ← Nat.add_assoc, hport, List.map_cons, List.getLastD_cons, hports]

/-- The points after the first one add up to the growth of the counters since then, for each counter of each uid
and for each port. A sample that is dropped changes neither the points nor the baseline; the point of any other
becomes the newest one. -/
theorem statsDeltas_telescope (samples : List Sampling) (hcum : Cumulative samples) (ring : StatsRing)
    (hring : ring.baselineValid = false) :
    (∀ baseline p₀ appended, (runSamples samples ring).1 = (baseline, p₀) :: appended →
      p₀.gap = true ∧ (∀ a ∈ appended, a.2.gap = false) ∧
      (∀ f ∈ StatsCounters.fields, ∀ uid,
        baseline.uidValue f uid + (appended.map fun a => a.2.uidTotal f uid).sum =
          ((appended.map Prod.fst).getLastD baseline).uidValue f uid) ∧
      ∀ k, baseline.portValue k + (appended.map fun a => a.2.portTotal k).sum =
        ((appended.map Prod.fst).getLastD baseline).portValue k) ∧
    ∀ (s : Sampling) (ring : StatsRing),
      ((sampleStats s ring).1 = none →
        (sampleStats s ring).2.points.contents = ring.points.contents ∧
        (sampleStats s ring).2.baseline = ring.baseline) ∧
      ∀ p, (sampleStats s ring).1 = some p →
        (∃ old, (sampleStats s ring).2.points.contents = ring.points.contents.drop old ++ [p]) ∧
        (sampleStats s ring).2.HasBaseline s.stats := by
  constructor
  · induction samples generalizing ring with
    | nil => exact nofun
    | cons x rest ih =>
      intro baseline p₀ appended hrun
      obtain ⟨hx, hok⟩ := List.forall_mem_cons.1 hcum.ok
      obtain ⟨hxrest, hrest⟩ := List.pairwise_cons.1 hcum.grows
      rcases sampleStats_cases x ring with ⟨hnone, -, hsame⟩ | ⟨p, hsome, happ⟩
      · rw [runSamples_dropped hnone] at hrun
        exact ih ⟨hok, hrest⟩ _ ((congrArg StatsRing.Baseline.valid hsame).trans hring) _ _ _ hrun
      · rw [runSamples_appended hsome] at hrun
        cases hrun
        refine ⟨?_, runSamples_growth ⟨hok, hrest⟩ hx hxrest happ.hasBaseline⟩
        rw [happ.gap, StatsRing.gapAt, hring]
        rfl
  · intro s ring
    rcases sampleStats_cases s ring with ⟨hnone, hpoints, hsame⟩ | ⟨p, hsome, happ⟩
    · exact ⟨fun _ => ⟨congrArg _ hpoints, hsame⟩, fun p hp => absurd (hnone.symm.trans hp) nofun⟩
    · refine ⟨fun hnone => absurd (hnone.symm.trans hsome) nofun, fun p' hp => ?_⟩
      rw [hsome] at hp
      cases hp
      exact ⟨happ.contents, happ.hasBaseline⟩

/-- Three samples, the second of which finds no memory for its point. -/
def sampleRow : List Sampling :=
  let counters (port : UInt64) : StatsCounters := { StatsCounters.zero with port }
  [⟨⟨true, true, true, true⟩, ⟨[⟨10001, counters 2⟩], [⟨10001, 443, 0, 2⟩], 1, 0⟩, 1000⟩,
   ⟨⟨true, true, false, true⟩, ⟨[⟨10001, counters 3⟩], [⟨10001, 443, 0, 3⟩], 2, 0⟩, 61000⟩,
   ⟨⟨true, true, true, true⟩,
     ⟨[⟨10001, counters 5⟩, ⟨10002, counters 1⟩], [⟨10002, 80, 1, 1⟩, ⟨10001, 443, 0, 5⟩], 3, 0⟩, 121000⟩]

theorem statsDeltas_telescope_sample :
    ∃ baseline last p₀ p, (runSamples sampleRow .cleared).1 = [(baseline, p₀), (last, p)] ∧
      ∀ uid, baseline.uidValue StatsCounters.port uid + p.uidTotal StatsCounters.port uid =
        last.uidValue StatsCounters.port uid := by
  have hcum : Cumulative sampleRow := by
    refine ⟨fun s hs => ?_, ?_⟩
    · simp only [sampleRow, List.mem_cons, List.not_mem_nil, or_false] at hs
      rcases hs with rfl | rfl | rfl <;>
        exact ⟨by simp [StrictBy, statsKey], by simp [PortCount.key]⟩
    · simp only [sampleRow, List.pairwise_cons, List.mem_cons, List.not_mem_nil, or_false, forall_eq_or_imp, forall_eq]
      refine ⟨⟨?_, ?_⟩, ?_, fun _ => False.elim, .nil⟩ <;> exact ⟨by decide, by decide, by decide⟩
  obtain ⟨-, -, h, -⟩ := (statsDeltas_telescope sampleRow hcum .cleared rfl).1 _ _ _ rfl
  exact ⟨_, _, _, _, rfl, fun uid => h _ (by simp [StatsCounters.fields]) uid⟩

end VpnHide
