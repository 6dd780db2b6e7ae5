import VpnHide.StatsRead

/-!
# The daemon beside the kernel

A sample of the daemon reads the kernel in one or more calls and appends a point to the ring. The daemon takes a
sequence number that has not grown for a sign that the statistics were cleared in between. Since every reader advances
the number, it may have grown past the old one again after a clear (`clear_gap_iff`).
-/

namespace VpnHide

/-- What one `sample_stats` meets. -/
structure SampleEnv where
  reads : List ReadEnv
  alloc : PointAllocs
  timestampMs : UInt64

/-- Kernel and daemon. The kernel as the last appended sample has read it is not in the source. -/
structure DaemonState where
  st : StatsKernel
  ring : StatsRing
  base : Option StatsKernel

/-- `sample_stats`: the point appended, if any, with the kernel as it was read for it. -/
def DaemonState.sample (hz : UInt64) (d : DaemonState) (env : SampleEnv) :
    Option (StatsPoint × StatsKernel) × DaemonState :=
  let run := readKernelStats hz env.reads 0 0 d.st
  match run.result, run.calls.getLast? with
  | .stats stats, some call =>
    let (point, ring) := sampleStats ⟨env.alloc, stats, env.timestampMs⟩ d.ring
    match point with
    | none => (none, ⟨run.st, ring, d.base⟩)
    | some point => (some (point, call.env.fill hz call.st), ⟨run.st, ring, some (call.env.fill hz call.st)⟩)
  | _, _ => (none, { d with st := run.st })

inductive DaemonOp where
  | other (op : StatsOp)
  | sample (env : SampleEnv)
  /-- a start of the daemon, or `CLEAR_HISTORY` -/
  | clearHistory

def DaemonOp.run (hz : UInt64) (d : DaemonState) : DaemonOp → DaemonState
  | .other op => { d with st := op.run hz d.st }
  | .sample env => (d.sample hz env).2
  | .clearHistory => ⟨d.st, .cleared, none⟩

def daemonSystem (hz : UInt64) : System DaemonState DaemonOp where
  init d := d = ⟨.init, .cleared, none⟩
  step d op d' := op.run hz d = d'

/-- A sample that appends a point, in terms of the call that succeeded; any other one leaves the history alone. -/
theorem DaemonState.sample_cases (hz : UInt64) (d : DaemonState) (env : SampleEnv) :
    let run := readKernelStats hz env.reads 0 0 d.st
    (d.sample hz env).2.st = run.st ∧
    ((d.sample hz env).1 = none ∧ (d.sample hz env).2.ring.baseline = d.ring.baseline ∧
        (d.sample hz env).2.base = d.base ∨
      ∃ c ∈ run.calls, ∃ p, run.st = c.env.portFill hz c.st ∧
        (d.sample hz env).1 = some (p, c.env.fill hz c.st) ∧
        d.ring.Appends (c.snapshot hz).sortPorts p (d.sample hz env).2.ring ∧
        (d.sample hz env).2.base = some (c.env.fill hz c.st)) := by
  have hstats := @readKernelStats_stats hz env.reads 0 0 d.st
  unfold DaemonState.sample
  generalize readKernelStats hz env.reads 0 0 d.st = run at hstats
  dsimp only
  cases hresult : run.result with
  | failed cause => exact ⟨rfl, .inl ⟨rfl, rfl, rfl⟩⟩
  | running => exact ⟨rfl, .inl ⟨rfl, rfl, rfl⟩⟩
  | stats s =>
    obtain ⟨c, hlast, rfl, hst⟩ := hstats hresult
    rw [hlast]
    dsimp only
    rcases sampleStats_cases ⟨env.alloc, c.snapshot hz, env.timestampMs⟩ d.ring with
      ⟨hnone, -, hsame⟩ | ⟨p, hsome, happ⟩
    · rw [hnone]
      exact ⟨rfl, .inl ⟨rfl, hsame, rfl⟩⟩
    · rw [hsome]
      exact ⟨rfl, .inr ⟨c, List.mem_of_getLast? hlast, p, hst, rfl, happ, rfl⟩⟩

/-! ### Sequence numbers -/

/-- The kernel's state is a good one, also as it was when the baseline was read, and the ring knows the sequence number
of the baseline. -/
structure DaemonInv (d : DaemonState) : Prop where
  st : StatsKernelInv d.st
  base : ∀ b, d.base = some b → StatsKernelInv b ∧ d.ring.baselineValid = true ∧ d.ring.previousSequence = b.sequence

theorem StatsKernelInv.read {st : StatsKernel} (h : StatsKernelInv st) (hz : UInt64) (envs : List ReadEnv) :
    StatsKernelInv (readKernelStats hz envs 0 0 st).st ∧
      ∀ c ∈ (readKernelStats hz envs 0 0 st).calls, StatsKernelInv c.st :=
  readKernelStats_invariant h fun c _ hc => ⟨hc.portPeek hz c.env, hc.portFill hz c.env⟩

theorem DaemonInv.sample {hz : UInt64} {d : DaemonState} (h : DaemonInv d) (env : SampleEnv) :
    DaemonInv (d.sample hz env).2 := by
  obtain ⟨hst, hcalls⟩ := h.st.read hz env.reads
  rcases d.sample_cases hz env with ⟨heq, ⟨-, hring, hbase⟩ | ⟨c, hc, p, -, -, happ, hbase⟩⟩
  · refine ⟨heq ▸ hst, fun b hb => ?_⟩
    obtain ⟨hinv, hvalid, hsequence⟩ := h.base b (hbase ▸ hb)
    exact ⟨hinv, (congrArg StatsRing.Baseline.valid hring).trans hvalid,
      (congrArg StatsRing.Baseline.sequence hring).trans hsequence⟩
  · refine ⟨heq ▸ hst, fun b hb => ?_⟩
    obtain rfl := Option.some.inj (hbase.symm.trans hb)
    obtain ⟨hvalid, hsequence, -⟩ := StatsRing.Baseline.mk.inj happ.hasBaseline
    exact ⟨(hcalls c hc).fill hz c.env, hvalid, hsequence⟩

theorem DaemonInv.run {hz : UInt64} {d : DaemonState} (h : DaemonInv d) (op : DaemonOp) : DaemonInv (op.run hz d) := by
  cases op with
  | other op => exact ⟨h.st.run hz op, h.base⟩
  | sample env => exact h.sample env
  | clearHistory => exact ⟨h.st, nofun⟩

theorem DaemonInv.of_reachable {hz : UInt64} {d : DaemonState} (h : (daemonSystem hz).Reachable d) : DaemonInv d := by
  refine h.invariant ?_ ?_
  · rintro _ rfl
    exact ⟨.init, nofun⟩
  · rintro d op _ hd rfl
    exact hd.run op

/-- In any run, let a sample append a point on top of an earlier sample. If the statistics were cleared in between, the
point is a gap without deltas exactly if there have been no more reads from the last clear up to the sample than there
had been, from the clear or the load before it, up to the earlier one, both counted in 64 bits. -/
theorem clear_gap_iff {hz : UInt64} {d : DaemonState} (h : (daemonSystem hz).Reachable d) {env : SampleEnv}
    {p : StatsPoint} {read base : StatsKernel} (hsample : (d.sample hz env).1 = some (p, read))
    (hbase : d.base = some base) :
    (base.clears < read.clears → p.gap = true ∧ p.entries = [] ∧ p.ports = []) ↔
      (base.clears < read.clears → UInt64.ofNat read.reads ≤ UInt64.ofNat base.reads) := by
  have hinv := DaemonInv.of_reachable h
  obtain ⟨hbaseInv, hvalid, hsequence⟩ := hinv.base base hbase
  refine imp_congr_right fun _ => ?_
  rcases d.sample_cases hz env with ⟨-, ⟨hnone, -⟩ | ⟨c, hc, p', -, hsome, happ, -⟩⟩
  · rw [hnone] at hsample
    cases hsample
  rw [hsome] at hsample
  cases hsample
  have hread : StatsKernelInv (c.env.fill hz c.st) := ((hinv.st.read hz env.reads).2 c hc).fill hz c.env
  have hgap : p.gap = true ↔ (c.env.fill hz c.st).sequence ≤ base.sequence := by
    rw [happ.gap, StatsRing.gapAt, hvalid, hsequence, KernelStats.sortPorts_sequence]
    exact decide_eq_true_iff
  rw [← hread.sequence, ← hbaseInv.sequence, ← hgap]
  refine ⟨fun h => h.1, fun hp => ⟨hp, ?_, ?_⟩⟩
  · rw [happ.entries, if_pos hp]
  · rw [happ.ports, if_pos hp]

/-! ### A clear that goes unnoticed -/

theorem readKernelStats_ok {hz : UInt64} {env : ReadEnv} {capacity portCapacity : ℕ} {st st' : StatsKernel}
    {reply : V2Reply} {uids : List UidStats} {ports : List PortCount}
    (h : vhGetStatsV2 hz env.call (.ofCapacities capacity portCapacity) st = (.ok reply uids ports, st'))
    (rest : List ReadEnv) :
    readKernelStats hz (env :: rest) capacity portCapacity st =
      ⟨.stats ⟨uids, ports, reply.sequence, reply.droppedPortEntries⟩,
        [⟨env.call, .ofCapacities capacity portCapacity, st⟩], st'⟩ := by
  rw [readKernelStats, h]

/-- Nothing happens while this sample is taken; its second call is made if there are entries. -/
def quietSample : SampleEnv := ⟨[⟨quietCall, true, true⟩, ⟨quietCall, true, true⟩], ⟨true, true, true, true⟩, 0⟩

section Quiet
variable {k : KernelState} {ports : PortStats} {sequence : UInt64} {clears reads : ℕ}

/-- The number of calls that such a sample makes. -/
def quietCalls (k : KernelState) (ports : PortStats) : ℕ :=
  if k.stats.entries.length ≤ 0 ∧ (ports.table.elim [] livePortEntries).length ≤ 0 then 1 else 2

def quietStats (k : KernelState) (ports : PortStats) (sequence : UInt64) : KernelStats :=
  ⟨k.stats.entries, (ports.table.elim [] livePortEntries).map PortStatsEntry.toCount, sequence, ports.dropped⟩

theorem quietSample_reads (h : (countLivePortStats 250 0 ports).2 = ports) {calls : ℕ}
    (hcalls : quietCalls k ports = calls) :
    let run := readKernelStats 250 quietSample.reads 0 0 ⟨k, ports, sequence, clears, reads⟩
    let st : StatsKernel := ⟨k, ports, sequence + .ofNat calls, clears, reads + calls⟩
    run.result = .stats (quietStats k ports st.sequence) ∧ run.st = st ∧
      ∃ c, run.calls.getLast? = some c ∧ c.env.fill 250 c.st = st := by
  have hcall (sequence reads) := @quietCall_result k ports sequence clears reads h
  have hread (sequence reads) := (@quietCall_sections k ports sequence clears reads h).2.1
  unfold quietCalls at hcalls
  unfold quietStats
  dsimp only at hcall ⊢
  generalize ports.table.elim [] livePortEntries = live at hcall hcalls ⊢
  have hfirst := hcall sequence reads 0 0
  by_cases hempty : k.stats.entries.length ≤ 0 ∧ live.length ≤ 0
  · rw [if_pos hempty] at hcalls hfirst
    subst hcalls
    rw [quietSample, readKernelStats_ok hfirst]
    exact ⟨rfl, rfl, _, rfl, hread sequence reads⟩
  · have hseq : sequence + 1 + 1 = sequence + .ofNat 2 := UInt64.add_assoc sequence 1 1
    have hsecond := hcall (sequence + 1) (reads + 1) (max 0 k.stats.entries.length) (max 0 live.length)
    have hread := hread (sequence + 1) (reads + 1)
    rw [if_neg hempty] at hcalls hfirst
    rw [if_pos ⟨Nat.le_max_right .., Nat.le_max_right ..⟩, hseq] at hsecond
    rw [hseq] at hread
    subst hcalls
    rw [quietSample, readKernelStats_noSpace hfirst]
    dsimp only
    rw [if_neg hempty, if_neg (fun h => h.2 rfl), if_neg (fun h => h.2 rfl), readKernelStats_ok hsecond]
    exact ⟨rfl, rfl, _, rfl, hread⟩

theorem quietSample_spec (h : (countLivePortStats 250 0 ports).2 = ports) {calls : ℕ}
    (hcalls : quietCalls k ports = calls) (ring : StatsRing) (base : Option StatsKernel) :
    let st : StatsKernel := ⟨k, ports, sequence + .ofNat calls, clears, reads + calls⟩
    ∃ p ring', DaemonState.sample 250 ⟨⟨k, ports, sequence, clears, reads⟩, ring, base⟩ quietSample =
        (some (p, st), ⟨st, ring', some st⟩) ∧
      ring.Appends (quietStats k ports st.sequence).sortPorts p ring' := by
  obtain ⟨hresult, hst, c, hlast, hfill⟩ := @quietSample_reads k ports sequence clears reads h calls hcalls
  intro st
  obtain ⟨p, ring', happend⟩ := appendStatsPoint_allocated (quietStats k ports st.sequence).sortPorts 0 ring
  refine ⟨p, ring', ?_, ?_⟩
  · unfold DaemonState.sample
    dsimp only
    rw [hresult, hlast, hst]
    dsimp only
    rw [hfill, sampleStats]
    dsimp only [quietSample]
    rw [happend]
  · obtain ⟨_, _, hnone⟩ | ⟨p', ring'', hsome, happ⟩ :=
      appendStatsPoint_cases ⟨true, true, true, true⟩ (quietStats k ports st.sequence).sortPorts 0 ring
    · cases happend.symm.trans hnone
    · cases happend.symm.trans hsome
      exact happ

end Quiet

/-- The statistics are cleared, and another reader takes a sequence number. -/
def clearAndRead : List DaemonOp := [.other .clearUids, .other .clearPorts, .other .readUids]

theorem clearAndRead_run (d : DaemonState) : clearAndRead.foldl (DaemonOp.run 250) d =
    ⟨⟨(KernelOp.clearStats true).run d.st.kernel, clearPortStats, 0 + 1, d.st.clears + 1, 0 + 1⟩, d.ring, d.base⟩ := rfl

def unnoticedState : DaemonState :=
  (.sample quietSample :: clearAndRead).foldl (DaemonOp.run 250) ⟨.init, .cleared, none⟩

theorem unnoticedState_reachable : (daemonSystem 250).Reachable unnoticedState :=
  .foldl (fun _ _ => rfl) _ (.init rfl)

theorem unnoticedClear_sample :
    ∃ base p read, unnoticedState.base = some base ∧ (unnoticedState.sample 250 quietSample).1 = some (p, read) ∧
      base.clears < read.clears ∧ p.gap = false ∧ ¬ UInt64.ofNat read.reads ≤ UInt64.ofNat base.reads := by
  obtain ⟨hsweep, hlive⟩ := clearPortStats_sweep
  have hcalls : quietCalls .init clearPortStats = 1 := if_pos ⟨Nat.le_refl 0, hlive.le⟩
  have hinit : (KernelOp.clearStats true).run .init = .init := rfl
  obtain ⟨_, ring, hfirst, happ⟩ := @quietSample_spec .init clearPortStats 0 0 0 hsweep 1 hcalls .cleared none
  obtain ⟨hvalid, hsequence, -⟩ := StatsRing.Baseline.mk.inj happ.baseline
  have hstate : unnoticedState =
      ⟨⟨.init, clearPortStats, 0 + 1, 0 + 1, 0 + 1⟩, ring, some ⟨.init, clearPortStats, 0 + .ofNat 1, 0, 0 + 1⟩⟩ := by
    rw [unnoticedState, List.foldl_cons, clearAndRead_run, DaemonOp.run, StatsKernel.init, hfirst, hinit]
  obtain ⟨p, ring', hsecond, happ'⟩ := @quietSample_spec .init clearPortStats (0 + 1) (0 + 1)
    (0 + 1) hsweep 1 hcalls ring
    (some ⟨.init, clearPortStats, 0 + .ofNat 1, 0, 0 + 1⟩)
  rw [hstate, hsecond]
  -- the table stays a variable from here on: it has 65536 entries
  generalize clearPortStats = ports at happ' hsequence ⊢
  refine ⟨_, p, _, rfl, rfl, Nat.zero_lt_one, ?_, show ¬ UInt64.ofNat 2 ≤ UInt64.ofNat 1 by decide⟩
  rw [happ'.gap, StatsRing.gapAt, hvalid, hsequence, KernelStats.sortPorts_sequence, KernelStats.sortPorts_sequence]
  rfl

/-- The clear stays unnoticed. -/
theorem clear_without_gap :
    (daemonSystem 250).Reachable unnoticedState ∧ ∃ base p read, unnoticedState.base = some base ∧
      (unnoticedState.sample 250 quietSample).1 = some (p, read) ∧ base.clears < read.clears ∧ p.gap = false := by
  obtain ⟨base, p, read, hbase, hsample, hclears, hgap, -⟩ := unnoticedClear_sample
  exact ⟨unnoticedState_reachable, base, p, read, hbase, hsample, hclears, hgap⟩

theorem clear_gap_iff_unnoticed :
    ∃ p, (∃ read, (unnoticedState.sample 250 quietSample).1 = some (p, read)) ∧
      ¬ (p.gap = true ∧ p.entries = [] ∧ p.ports = []) := by
  obtain ⟨base, p, read, hbase, hsample, hclears, -, hreads⟩ := unnoticedClear_sample
  refine ⟨p, ⟨read, hsample⟩, fun h => hreads ?_⟩
  exact (clear_gap_iff unnoticedState_reachable hsample hbase).1 (fun _ => h) hclears

end VpnHide
