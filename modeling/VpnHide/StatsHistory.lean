import VpnHide.StatsRing

/-!
# What the ring remembers (`daemon/stats.c`)

Which uids a point names (`appendStatsPoint_activity`), and which of the points appended since the last clear the ring
still has (`statsRing_window`).
-/

namespace VpnHide

/-! ### The uids of a point -/

/-- A counter of a uid in a snapshot, 0 if the uid is absent. -/
def counterOf (entries : List UidStats) (f : StatsCounters → UInt64) (uid : UInt32) : UInt64 :=
  (entries.find? fun e => e.uid = uid).elim 0 fun e => f e.counters

/-- What `stats_delta` gives for a counter of a uid between two snapshots. -/
def deltaOf (previous current : List UidStats) (f : StatsCounters → UInt64) (uid : UInt32) : UInt64 :=
  statsDelta (counterOf current f uid) (counterOf previous f uid)

def UidActive (previous current : List UidStats) (uid : UInt32) : Prop :=
  ∃ f ∈ StatsCounters.fields, deltaOf previous current f uid ≠ 0

/-- A point from which the activity of every uid can be read off. -/
structure StatsPoint.OnlyActivity (p : StatsPoint) (previous current : List UidStats) : Prop where
  entries_ne : ∀ e ∈ p.entries, ∃ f ∈ StatsCounters.fields, f e.counters ≠ 0
  entries_delta : ∀ e ∈ p.entries, ∀ f ∈ StatsCounters.fields, f e.counters = deltaOf previous current f e.uid
  ports_ne : ∀ e ∈ p.ports, e.count ≠ 0
  once : ∀ e ∈ current, UidActive previous current e.uid → (p.entries.filter fun x => x.uid = e.uid).length = 1
  present_iff : ∀ uid, (∃ e ∈ p.entries, e.uid = uid) ↔ UidActive previous current uid

section Activity
variable {previous current : List UidStats}

theorem counterOf_mem (h : StrictBy statsKey current) {e : UidStats} (he : e ∈ current) (f : StatsCounters → UInt64) :
    counterOf current f e.uid = f e.counters := by
  rw [counterOf, find?_key (nodup_uids h) he rfl, Option.elim_some]

theorem counterOf_absent {uid : UInt32} (h : ∀ e ∈ previous, e.uid ≠ uid) (f : StatsCounters → UInt64) :
    counterOf previous f uid = 0 := by
  have hnone : (previous.find? fun e => e.uid = uid) = none := by
    rw [List.find?_eq_none]
    intro e he
    simpa using h e he
  rw [counterOf, hnone, Option.elim_none]

theorem statsDelta_zero (c : UInt64) : statsDelta c 0 = c := by
  rw [statsDelta, if_pos UInt64.zero_le, UInt64.sub_zero]

theorem statsDelta_of_zero (c : UInt64) : statsDelta 0 c = 0 := by
  unfold statsDelta
  split_ifs with h
  · have hc : c = 0 := UInt64.le_zero_iff.1 h
    rw [hc, UInt64.sub_zero]
  · rfl

theorem UidActive.mem {uid : UInt32} (h : UidActive previous current uid) : ∃ e ∈ current, e.uid = uid := by
  by_contra hnone
  obtain ⟨f, -, hf⟩ := h
  rw [deltaOf, counterOf_absent (fun e he heq => hnone ⟨e, he, heq⟩), statsDelta_of_zero] at hf
  exact hf rfl

theorem uidActive_of_absent (hc : StrictBy statsKey current) {e : UidStats} (he : e ∈ current)
    (hnew : ∀ old ∈ previous, old.uid ≠ e.uid) :
    UidActive previous current e.uid ↔ ∃ f ∈ StatsCounters.fields, f e.counters ≠ 0 := by
  simp only [UidActive, deltaOf, counterOf_mem hc he, counterOf_absent hnew, statsDelta_zero]

theorem uidDelta_isSome (hp : StrictBy statsKey previous) (hc : StrictBy statsKey current) {e : UidStats}
    (he : e ∈ current) :
    (uidDelta previous e).isSome ↔ (∀ old ∈ previous, old.uid ≠ e.uid) ∨ UidActive previous current e.uid := by
  rw [← uidChanged_eq, uidChanged, findUidStats_eq hp]
  cases hold : previous.find? fun x => x.uid = e.uid with
  | none =>
    have hnew : ∀ old ∈ previous, old.uid ≠ e.uid := by simpa using hold
    exact iff_of_true rfl (.inl hnew)
  | some old =>
    have hmem : old ∈ previous := List.mem_of_find?_eq_some hold
    have huid : old.uid = e.uid := by simpa using List.find?_some hold
    have hknown : ¬ ∀ old ∈ previous, old.uid ≠ e.uid := fun h => h old hmem huid
    have hcount (f : StatsCounters → UInt64) : counterOf previous f e.uid = f old.counters := by
      rw [counterOf, hold, Option.elim_some]
    rw [or_iff_right hknown, UidActive]
    simp only [deltaOf, counterOf_mem hc he, hcount, List.any_eq_true, decide_eq_true_eq]

theorem uidDelta_counters (hp : StrictBy statsKey previous) (hc : StrictBy statsKey current) {e x : UidStats}
    (he : e ∈ current) (h : uidDelta previous e = some x) {f : StatsCounters → UInt64} (hf : f ∈ StatsCounters.fields) :
    f x.counters = deltaOf previous current f e.uid := by
  unfold uidDelta at h
  rw [findUidStats_eq hp] at h
  dsimp only at h
  split_ifs at h
  cases h
  rw [fields_delta hf, deltaOf, counterOf_mem hc he, counterOf]
  cases previous.find? fun x => x.uid = e.uid with
  | none => rw [Option.elim_none, Option.elim_none, fields_zero hf]
  | some old => rfl

theorem filterMap_uidDelta_sorted (hc : StrictBy statsKey current) :
    StrictBy statsKey (current.filterMap (uidDelta previous)) := by
  refine List.Pairwise.filterMap _ (fun a a' hlt b hb b' hb' => ?_) hc
  simp only [statsKey, uidDelta_uid hb, uidDelta_uid hb']
  exact hlt

/-- The entries of a point tell the active uids from the others unless a uid is new and has no counts yet. -/
theorem onlyActivity_iff (hp : StrictBy statsKey previous) (hc : StrictBy statsKey current) {p : StatsPoint}
    (hentries : p.entries = current.filterMap (uidDelta previous)) (hports : ∀ e ∈ p.ports, e.count ≠ 0) :
    p.OnlyActivity previous current ↔
      ∀ e ∈ current, (∀ old ∈ previous, old.uid ≠ e.uid) → ∃ f ∈ StatsCounters.fields, f e.counters ≠ 0 := by
  have hmem (x : UidStats) : x ∈ p.entries ↔ ∃ e ∈ current, uidDelta previous e = some x := by
    rw [hentries, List.mem_filterMap]
  constructor
  · intro h e he hnew
    obtain ⟨x, hx⟩ := Option.isSome_iff_exists.1 ((uidDelta_isSome hp hc he).2 (.inl hnew))
    have hpresent := (h.present_iff e.uid).1 ⟨x, (hmem x).2 ⟨e, he, hx⟩, uidDelta_uid hx⟩
    exact (uidActive_of_absent hc he hnew).1 hpresent
  · intro hcond
    have hactive {e : UidStats} (he : e ∈ current) :
        (uidDelta previous e).isSome ↔ UidActive previous current e.uid := by
      rw [uidDelta_isSome hp hc he, or_iff_right_iff_imp]
      exact fun hnew => (uidActive_of_absent hc he hnew).2 (hcond e he hnew)
    have hpresent (uid : UInt32) : (∃ x ∈ p.entries, x.uid = uid) ↔ UidActive previous current uid := by
      constructor
      · rintro ⟨x, hx, rfl⟩
        obtain ⟨e, he, hdelta⟩ := (hmem x).1 hx
        rw [uidDelta_uid hdelta, ← hactive he, hdelta, Option.isSome_some]
      · intro h
        obtain ⟨e, he, rfl⟩ := h.mem
        obtain ⟨x, hx⟩ := Option.isSome_iff_exists.1 ((hactive he).2 h)
        exact ⟨x, (hmem x).2 ⟨e, he, hx⟩, uidDelta_uid hx⟩
    have hdelta : ∀ x ∈ p.entries, ∀ f ∈ StatsCounters.fields, f x.counters = deltaOf previous current f x.uid := by
      intro x hx f hf
      obtain ⟨e, he, hdelta⟩ := (hmem x).1 hx
      rw [uidDelta_counters hp hc he hdelta hf, uidDelta_uid hdelta]
    refine ⟨fun x hx => ?_, hdelta, hports, fun e _ h => ?_, hpresent⟩
    · obtain ⟨f, hf, hne⟩ := (hpresent x.uid).1 ⟨x, hx, rfl⟩
      exact ⟨f, hf, by rwa [hdelta x hx f hf]⟩
    · obtain ⟨x, hx, huid⟩ := (hpresent e.uid).2 h
      have hn : (p.entries.map UidStats.uid).Nodup := nodup_uids (hentries ▸ filterMap_uidDelta_sorted hc)
      rw [filter_key hn, find?_key hn hx huid]
      rfl

end Activity

theorem portDelta_count_ne {previous : List PortCount} {e x : PortCount} (h : portDelta previous e = some x) :
    x.count ≠ 0 := by
  unfold portDelta at h
  dsimp only at h
  split_ifs at h with hzero
  cases h
  exact hzero

/-- A sample with a larger sequence number appends a point that names exactly the active uids, unless the snapshot has
a uid that the baseline has not and whose counters are all zero: the test `!old` lets its entry of zeros in. -/
theorem appendStatsPoint_activity {alloc : PointAllocs} {current : KernelStats} {timestampMs : UInt64}
    {ring ring' : StatsRing} {p : StatsPoint} (hprevious : StrictBy statsKey ring.previous)
    (hcurrent : StrictBy statsKey current.uids) (hvalid : ring.baselineValid = true)
    (hsequence : ring.previousSequence < current.sequence)
    (h : appendStatsPoint alloc current timestampMs ring = (some p, ring')) :
    p.gap = false ∧
      (p.OnlyActivity ring.previous current.uids ↔
        ∀ e ∈ current.uids, (∀ old ∈ ring.previous, old.uid ≠ e.uid) →
          ∃ f ∈ StatsCounters.fields, f e.counters ≠ 0) := by
  rcases appendStatsPoint_cases alloc current timestampMs ring with ⟨_, _, hnone⟩ | ⟨p', _, hsome, happ⟩
  · rw [hnone] at h
    cases h
  · rw [hsome] at h
    cases h
    have hgap : p.gap = false := by
      rw [happ.gap, StatsRing.gapAt, hvalid]
      simpa using hsequence
    have hentries := happ.entries
    have hports := happ.ports
    simp only [hgap, Bool.false_eq_true, if_false] at hentries hports
    refine ⟨hgap, onlyActivity_iff hprevious hcurrent hentries fun e he => ?_⟩
    rw [hports, List.mem_filterMap] at he
    obtain ⟨e', -, hdelta⟩ := he
    exact portDelta_count_ne hdelta

/-- Snapshots of uid 10001, which is active, and, from the second on, of uid 10002. -/
def twoSnapshots (new : StatsCounters) : KernelStats × KernelStats :=
  (⟨[⟨10001, { StatsCounters.zero with port := 2 }⟩], [], 1, 0⟩,
   ⟨[⟨10001, { StatsCounters.zero with port := 3 }⟩, ⟨10002, new⟩], [], 2, 0⟩)

/-- The ring after the first of them. -/
def oneSnapshotRing : StatsRing :=
  (appendStatsPoint ⟨true, true, true, true⟩ (twoSnapshots .zero).1 1000 .cleared).2

theorem appendStatsPoint_activity_sample :
    ∃ p ring', appendStatsPoint ⟨true, true, true, true⟩ (twoSnapshots { StatsCounters.zero with ioctl := 1 }).2 61000
        oneSnapshotRing = (some p, ring') ∧
      p.OnlyActivity oneSnapshotRing.previous (twoSnapshots { StatsCounters.zero with ioctl := 1 }).2.uids := by
  obtain ⟨p, ring', h⟩ := appendStatsPoint_allocated (twoSnapshots { StatsCounters.zero with ioctl := 1 }).2 61000
    oneSnapshotRing
  refine ⟨p, ring', h, (appendStatsPoint_activity ?_ ?_ rfl (by decide) h).2.2 ?_⟩
  · exact List.pairwise_singleton ..
  · simp [twoSnapshots, StrictBy, statsKey]
  · intro e he _
    simp only [twoSnapshots, List.mem_cons, List.not_mem_nil, or_false] at he
    rcases he with rfl | rfl
    · exact ⟨StatsCounters.port, by simp [StatsCounters.fields], by decide⟩
    · exact ⟨StatsCounters.ioctl, by simp [StatsCounters.fields], by decide⟩

/-- The kernel makes an entry of zeros for a new target at once, and the next point names it. -/
theorem appendStatsPoint_names_idle :
    ∃ p ring', appendStatsPoint ⟨true, true, true, true⟩ (twoSnapshots .zero).2 61000 oneSnapshotRing =
      (some p, ring') ∧
      p.gap = false ∧ ⟨10002, .zero⟩ ∈ p.entries ∧
        ¬ UidActive oneSnapshotRing.previous (twoSnapshots .zero).2.uids 10002 ∧
      ¬ p.OnlyActivity oneSnapshotRing.previous (twoSnapshots .zero).2.uids := by
  have hzero : (⟨10002, .zero⟩ : UidStats) ∈
      (twoSnapshots .zero).2.uids.filterMap (uidDelta oneSnapshotRing.previous) := by decide
  refine ⟨_, _, rfl, rfl, hzero, ?_, fun h => ?_⟩
  · rintro ⟨f, hf, hne⟩
    have hcount : deltaOf oneSnapshotRing.previous (twoSnapshots .zero).2.uids f 10002 = statsDelta (f .zero) 0 := rfl
    rw [hcount, statsDelta_zero, fields_zero hf] at hne
    exact hne rfl
  · obtain ⟨f, hf, hne⟩ := h.entries_ne _ hzero
    exact hne (fields_zero hf)

/-! ### The points of the ring -/

/-- A reading of `CLOCK_REALTIME`, within what the kernel lets the clock be set to: no more seconds than fit into a
signed number of nanoseconds of 64 bits. -/
structure WallClock where
  tvSec : ℕ
  tvNsec : ℕ
  sec_le : tvSec ≤ 9223372036
  nsec_lt : tvNsec < 1000000000

def daemonGetWallTimeMs (ts : WallClock) : UInt64 :=
  UInt64.ofNat ts.tvSec * 1000 + UInt64.ofNat (ts.tvNsec / 1000000)

def statsRetentionMs : ℕ := 6 * 60 * 60 * 1000

/-- Six hours later is still a number of 64 bits. -/
theorem daemonGetWallTimeMs_add_retention (ts : WallClock) :
    (daemonGetWallTimeMs ts).toNat + statsRetentionMs < 2 ^ 64 := by
  have hsec := ts.sec_le
  have hnsec := ts.nsec_lt
  rw [daemonGetWallTimeMs, UInt64.toNat_add, UInt64.toNat_mul, UInt64.toNat_ofNat', UInt64.toNat_ofNat',
    statsRetentionMs]
  have h1000 : (1000 : UInt64).toNat = 1000 := rfl
  rw [h1000, Nat.mod_eq_of_lt (a := ts.tvSec) (by omega), Nat.mod_eq_of_lt (a := ts.tvSec * 1000) (by omega),
    Nat.mod_eq_of_lt (a := ts.tvNsec / 1000000) (by omega), Nat.mod_eq_of_lt (by omega)]
  omega

/-- The calls that change a ring. -/
inductive RingOp where
  | append (alloc : PointAllocs) (current : KernelStats) (timestampMs : UInt64)
  | clear

/-- A ring and the points appended to it since the last clear. -/
structure RingRun where
  ring : StatsRing
  appended : List StatsPoint

def RingRun.start : RingRun := ⟨.cleared, []⟩

def RingOp.run (r : RingRun) : RingOp → RingRun
  | .append alloc current timestampMs =>
    let (point, ring) := appendStatsPoint alloc current timestampMs r.ring
    ⟨ring, r.appended ++ point.toList⟩
  | .clear => ⟨.cleared, []⟩

def newestMs (points : List StatsPoint) : UInt64 := points.getLast?.elim 0 StatsPoint.timestampMs

/-- Timestamps that do not decrease and stay below the end of the 64 bits by the retention time. -/
structure InOrder (points : List StatsPoint) : Prop where
  sorted : points.Pairwise fun a b => a.timestampMs ≤ b.timestampMs
  room : ∀ p ∈ points, p.timestampMs.toNat + statsRetentionMs < 2 ^ 64

structure RingRun.Inv (r : RingRun) : Prop where
  suffix : r.ring.points.contents <:+ r.appended
  counted : r.ring.counted = UInt64.ofNat r.appended.length
  window : InOrder r.appended → r.ring.points.contents =
    (r.appended.filter fun p => !p.expired (newestMs r.appended)).rtake statsRingPoints

section Points
variable {points : List StatsPoint} {p : StatsPoint} {timestampMs : UInt64}

theorem expired_iff (timestampMs : UInt64) (h : p.timestampMs.toNat + statsRetentionMs < 2 ^ 64) :
    p.expired timestampMs ↔ p.timestampMs.toNat + statsRetentionMs ≤ timestampMs.toNat := by
  have hms : (statsRetentionSec * 1000).toNat = statsRetentionMs := by decide
  rw [StatsPoint.expired, decide_eq_true_iff, UInt64.le_iff_toNat_le, UInt64.toNat_add, hms, Nat.mod_eq_of_lt h]

theorem InOrder.left (h : InOrder (points ++ [p])) : InOrder points :=
  ⟨(List.pairwise_append.1 h.sorted).1, fun x hx => h.room x (List.mem_append_left _ hx)⟩

theorem InOrder.expired_closed (h : InOrder points) (timestampMs : UInt64) :
    points.Pairwise fun a b => b.expired timestampMs → a.expired timestampMs := by
  refine h.sorted.imp_of_mem fun {a b} ha hb hle hexp => ?_
  rw [expired_iff _ (h.room a ha)]
  rw [expired_iff _ (h.room b hb)] at hexp
  rw [UInt64.le_iff_toNat_le] at hle
  omega

theorem newestMs_append (points : List StatsPoint) (p : StatsPoint) : newestMs (points ++ [p]) = p.timestampMs := by
  rw [newestMs, List.getLast?_concat, Option.elim_some]

theorem InOrder.newest_le (h : InOrder (points ++ [p])) : newestMs points ≤ p.timestampMs := by
  unfold newestMs
  cases hlast : points.getLast? with
  | none => exact UInt64.zero_le
  | some q =>
    obtain ⟨-, -, hle⟩ := List.pairwise_append.1 h.sorted
    exact hle q (List.mem_of_getLast? hlast) p (List.mem_singleton_self p)

end Points

theorem counted_pushPoint (p : StatsPoint) (ring : StatsRing) : (pushPoint p ring).counted = ring.counted + 1 := by
  have hcount : (pushPoint p ring).points.count = _ := RingBuffer.count_push
  rw [StatsRing.counted, hcount, StatsRing.counted, pushPoint]
  dsimp only
  split_ifs
  · rw [UInt64.add_assoc, UInt64.add_comm 1, UInt64.add_assoc]
  · rw [UInt64.ofNat_add, UInt64.add_assoc]
    rfl

theorem appendStatsPoint_points {alloc : PointAllocs} {current : KernelStats} {timestampMs : UInt64}
    {ring ring' : StatsRing} {p : StatsPoint} (h : appendStatsPoint alloc current timestampMs ring = (some p, ring')) :
    p.timestampMs = timestampMs ∧
      ring'.points.contents =
        (ring.points.contents.dropWhile (StatsPoint.expired timestampMs) ++ [p]).rtake statsRingPoints ∧
      ring'.counted = ring.counted + 1 := by
  obtain ⟨_, ⟨capacity, portCapacity, rfl⟩, hnone | ⟨p', hpoint, hsome⟩⟩ :=
    appendStatsPoint_eq alloc current timestampMs ring
  · rw [hnone] at h
    cases h
  · rw [hsome] at h
    cases h
    obtain ⟨points, dropped, hexpire, hcontents, hdropped⟩ := expirePoints_eq timestampMs
      { ring with previousCapacity := capacity, previousPortCapacity := portCapacity } (Nat.le_refl _)
    rw [hexpire]
    refine ⟨(makePoint_eq_some hpoint).1, ?_, ?_⟩
    · show (points.push .zero p).contents = _
      rw [RingBuffer.contents_push_eq_rtake, hcontents]
    · refine (counted_pushPoint p _).trans (congrArg (· + 1) ?_)
      exact hdropped

theorem RingRun.Inv.start : RingRun.start.Inv where
  suffix := List.suffix_refl []
  counted := rfl
  window _ := rfl

theorem RingRun.Inv.append {r : RingRun} (hr : r.Inv) {ring' : StatsRing} {p : StatsPoint}
    (hcontents : ring'.points.contents =
      (r.ring.points.contents.dropWhile (StatsPoint.expired p.timestampMs) ++ [p]).rtake statsRingPoints)
    (hcounted : ring'.counted = r.ring.counted + 1) : (RingRun.mk ring' (r.appended ++ [p])).Inv where
  suffix := by
    show ring'.points.contents <:+ r.appended ++ [p]
    rw [hcontents]
    refine (List.drop_suffix ..).trans ?_
    obtain ⟨front, hfront⟩ := (List.dropWhile_suffix _).trans hr.suffix
    exact ⟨front, by rw [← List.append_assoc, hfront]⟩
  counted := by
    show ring'.counted = UInt64.ofNat (r.appended ++ [p]).length
    rw [hcounted, hr.counted, List.length_append, List.length_singleton, UInt64.ofNat_add]
    rfl
  window horder := by
    have hleft := horder.left
    show ring'.points.contents = _
    rw [hcontents, hr.window hleft, newestMs_append]
    refine rtake_filter_push (fun x hx hexp => ?_) (hleft.expired_closed _) ?_ _
    · -- the newest timestamp has not decreased
      have hnewest := horder.newest_le
      rw [UInt64.le_iff_toNat_le] at hnewest
      rw [expired_iff _ (hleft.room x hx)] at hexp ⊢
      omega
    · rw [← Bool.not_eq_true, expired_iff _ (horder.room p (List.mem_append_right _ (List.mem_singleton_self p)))]
      have : 0 < statsRetentionMs := by decide
      omega

theorem RingRun.Inv.run {r : RingRun} (hr : r.Inv) (op : RingOp) : (op.run r).Inv := by
  cases op with
  | clear => exact .start
  | append alloc current timestampMs =>
    have hrun : (RingOp.append alloc current timestampMs).run r =
        ⟨(appendStatsPoint alloc current timestampMs r.ring).2,
          r.appended ++ (appendStatsPoint alloc current timestampMs r.ring).1.toList⟩ := rfl
    rw [hrun]
    cases hcall : appendStatsPoint alloc current timestampMs r.ring with
    | mk point ring' =>
      cases point with
      | none =>
        rcases appendStatsPoint_cases alloc current timestampMs r.ring with ⟨_, _, hnone⟩ | ⟨_, _, hsome, -⟩
        · rw [hnone] at hcall
          cases hcall
          rw [Option.toList_none, List.append_nil]
          exact ⟨hr.suffix, hr.counted, hr.window⟩
        · rw [hsome] at hcall
          cases hcall
      | some p =>
        obtain ⟨rfl, hcontents, hcounted⟩ := appendStatsPoint_points hcall
        exact hr.append hcontents hcounted

theorem RingRun.Inv.runs (ops : List RingOp) : (ops.foldl RingOp.run .start).Inv :=
  List.foldlRecOn ops RingOp.run .start fun _ hr op _ => hr.run op

/-- In every state of the ring: the indices are in range, the points are the last ones appended since the clear, the
dropped ones are counted, and, with a clock that does not go back, the points are the last 360 that are less than six
hours older than the newest. -/
theorem statsRing_window (ops : List RingOp) :
    let r := ops.foldl RingOp.run .start
    r.ring.points.head < 360 ∧ r.ring.points.count ≤ 360 ∧ r.ring.points.contents.length = r.ring.points.count ∧
      r.ring.points.contents <:+ r.appended ∧
      r.ring.droppedIntervals + UInt64.ofNat r.ring.points.count = UInt64.ofNat r.appended.length ∧
      (r.appended.length < 2 ^ 64 → r.ring.droppedIntervals.toNat + r.ring.points.count = r.appended.length) ∧
      (InOrder r.appended → ∀ newest, r.appended.getLast? = some newest →
        r.ring.points.contents =
          (r.appended.filter fun p =>
            newest.timestampMs.toNat < p.timestampMs.toNat + 6 * 60 * 60 * 1000).rtake 360) := by
  intro r
  have hr : r.Inv := RingRun.Inv.runs ops
  have hcount : r.ring.points.count ≤ 360 := r.ring.points.count_le
  refine ⟨r.ring.points.head_lt, hcount, RingBuffer.length_contents, hr.suffix, hr.counted, fun hlen => ?_,
    fun horder newest hnewest => ?_⟩
  · have hle : r.ring.points.count ≤ r.appended.length := by
      rw [← RingBuffer.length_contents]
      exact hr.suffix.length_le
    have hsum := congrArg UInt64.toNat hr.counted
    have hlt := r.ring.droppedIntervals.toNat_lt
    rw [StatsRing.counted, UInt64.toNat_add, UInt64.toNat_ofNat', UInt64.toNat_ofNat', Nat.mod_eq_of_lt hlen,
      Nat.mod_eq_of_lt (a := r.ring.points.count) (by omega)] at hsum
    omega
  · have hms : newestMs r.appended = newest.timestampMs := by rw [newestMs, hnewest, Option.elim_some]
    have hfilter : (r.appended.filter fun p => !p.expired newest.timestampMs) =
        r.appended.filter fun p => newest.timestampMs.toNat < p.timestampMs.toNat + statsRetentionMs := by
      refine List.filter_congr fun p hp => ?_
      have hexp := expired_iff newest.timestampMs (horder.room p hp)
      rw [Bool.eq_iff_iff, Bool.not_eq_true', ← Bool.not_eq_true, hexp, decide_eq_true_iff, Nat.not_le]
    rw [hr.window horder, hms, hfilter]
    rfl

/-- Two samples a minute apart, then a suspend of almost six hours. -/
def suspendedClock : List WallClock :=
  [⟨100, 0, by decide, by decide⟩, ⟨160, 0, by decide, by decide⟩, ⟨21700, 0, by decide, by decide⟩]

def suspendedOps : List RingOp :=
  suspendedClock.zipIdx.map fun (now, i) =>
    .append ⟨true, true, true, true⟩ ⟨[], [], UInt64.ofNat i + 1, 0⟩ (daemonGetWallTimeMs now)

theorem statsRing_window_sample :
    let r := suspendedOps.foldl RingOp.run .start
    ∃ first second third, r.appended = [first, second, third] ∧ r.ring.points.contents = [second, third] ∧
      r.ring.droppedIntervals.toNat + r.ring.points.count = 3 := by
  intro r
  have happ : r.appended = [⟨100000, true, [], []⟩, ⟨160000, false, [], []⟩, ⟨21700000, false, [], []⟩] := by
    decide +kernel
  have hclock : ∀ p ∈ r.appended, ∃ now, p.timestampMs = daemonGetWallTimeMs now := by
    rw [happ]
    simp only [List.mem_cons, List.not_mem_nil, or_false, forall_eq_or_imp, forall_eq]
    exact ⟨⟨⟨100, 0, by decide, by decide⟩, rfl⟩, ⟨⟨160, 0, by decide, by decide⟩, rfl⟩,
      ⟨⟨21700, 0, by decide, by decide⟩, rfl⟩⟩
  have horder : InOrder r.appended := by
    refine ⟨by rw [happ]; simp, fun p hp => ?_⟩
    obtain ⟨now, hnow⟩ := hclock p hp
    rw [hnow]
    exact daemonGetWallTimeMs_add_retention now
  obtain ⟨-, -, -, -, -, hcount, hwindow⟩ := statsRing_window suspendedOps
  have hcontents := hwindow horder ⟨21700000, false, [], []⟩ (by rw [happ]; rfl)
  have hthree := hcount (by rw [happ]; decide)
  rw [happ] at hcontents hthree
  exact ⟨_, _, _, happ, hcontents.trans (by decide +kernel), hthree⟩

end VpnHide
