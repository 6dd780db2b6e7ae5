import VpnHide.StatsRun
import VpnHide.StatsRing

/-!
# Reading the statistics (`VH_GET_STATS_V2`, `read_kernel_stats`)

The ioctl takes its locks four times: it looks how many entries there are, allocates buffers of that size without a
lock, and then fills them. Other threads change the tables in between. If one has outgrown its buffer, the caller is
told that its capacity is too small even where it is not, and the daemon, which expects a larger count, gives up
(`readKernelStats_progress`, `readKernelStats_gives_up`).
-/

namespace VpnHide

/-! ### The code -/

/-- The statistics of the loaded module. The last two fields, how often the statistics have been cleared and how often
they have been read since, are not in the source. -/
structure StatsKernel where
  kernel : KernelState
  ports : PortStats
  sequence : UInt64
  clears : ℕ
  reads : ℕ

def StatsKernel.init : StatsKernel := ⟨.init, clearPortStats, 0, 0, 0⟩

/-- A locked section of some thread. -/
inductive StatsOp where
  | setPolicy (alloc : AllocOutcomes) (capable : Bool) (request : Option PolicyIoctl)
  | intercept (uid : UInt32) (type : Int32)
  | javaStat (uid : UInt32) (hook : String) (count : UInt64)
  | recordPort (k : PortKey) (jiffies : UInt64)
  /-- a reader counts the live port entries -/
  | sweepPorts (jiffies : UInt64)
  /-- a reader copies the uid entries and takes a sequence number -/
  | readUids
  /-- the two sections of `VH_CLEAR_STATS`, its allocation done -/
  | clearUids
  | clearPorts

def StatsOp.run (hz : UInt64) (st : StatsKernel) : StatsOp → StatsKernel
  | .setPolicy alloc capable request => { st with kernel := (KernelOp.setPolicy alloc capable request).run st.kernel }
  | .intercept uid type => { st with kernel := (KernelOp.intercept uid type).run st.kernel }
  | .javaStat uid hook count => { st with kernel := (KernelOp.javaStat uid hook count).run st.kernel }
  | .recordPort k jiffies => { st with ports := recordPortEntry st.ports k jiffies }
  | .sweepPorts jiffies => { st with ports := (countLivePortStats hz jiffies st.ports).2 }
  | .readUids => { st with sequence := st.sequence + 1, reads := st.reads + 1 }
  | .clearUids =>
    { st with
      kernel := (KernelOp.clearStats true).run st.kernel
      sequence := 0
      clears := st.clears + 1
      reads := 0 }
  | .clearPorts => { st with ports := clearPortStats }

def StatsKernel.runs (hz : UInt64) (st : StatsKernel) (ops : List StatsOp) : StatsKernel :=
  ops.foldl (StatsOp.run hz) st

def statsSystem (hz : UInt64) : System StatsKernel StatsOp where
  init st := st = .init
  step st op st' := op.run hz st = st'

def StatsKernel.uidCount (st : StatsKernel) : ℕ := st.kernel.stats.entries.length

def StatsKernel.livePorts (st : StatsKernel) : List PortStatsEntry := st.ports.table.elim [] livePortEntries

/-- The part of `struct vpnhide_stats_snapshot_v2` that the caller fills in; the pointers matter only by being null. -/
structure V2Request where
  uidCapacity : ℕ
  portCapacity : ℕ
  uidEntries : Bool
  portEntries : Bool

/-- The part that the kernel fills in. -/
structure V2Reply where
  uidCount : ℕ
  portCount : ℕ
  sequence : UInt64
  droppedPortEntries : UInt64
  deriving DecidableEq

inductive V2Result where
  | ok (reply : V2Reply) (uids : List UidStats) (ports : List PortCount)
  /-- `-ENOSPC` -/
  | noSpace (reply : V2Reply)
  | error (e : Errno)

/-- What one call meets: which copies and allocations succeed, what other threads do in front of each of its locked
sections, and when it looks at the ports. -/
structure V2Env where
  copyIn : Bool
  beforePeek : List StatsOp
  beforePortPeek : List StatsOp
  peekedAt : UInt64
  uidAlloc : Bool
  portAlloc : Bool
  beforeFill : List StatsOp
  beforePortFill : List StatsOp
  filledAt : UInt64
  copyUids : Bool
  copyPorts : Bool
  copyOut : Bool

section Sections
variable (hz : UInt64) (env : V2Env) (st : StatsKernel)

def V2Env.peek : StatsKernel := st.runs hz env.beforePeek

def V2Env.portPeek : StatsKernel := (env.peek hz st).runs hz (env.beforePortPeek ++ [.sweepPorts env.peekedAt])

def V2Env.fill : StatsKernel := (env.portPeek hz st).runs hz (env.beforeFill ++ [.readUids])

def V2Env.portFill : StatsKernel := (env.fill hz st).runs hz (env.beforePortFill ++ [.sweepPorts env.filledAt])

end Sections

/-- The size of the buffer allocated after a look at the count; 0 stands for no buffer. -/
def allocatedFor (capacity count : ℕ) : ℕ := if capacity ≥ count ∧ count ≠ 0 then count else 0

def PortStatsEntry.toCount (e : PortStatsEntry) : PortCount := ⟨e.uid, e.port, e.protocol, e.count⟩

/-- The `VH_GET_STATS_V2` case of `handle_vpnhide_ioctl`. -/
def vhGetStatsV2 (hz : UInt64) (env : V2Env) (request : V2Request) (st : StatsKernel) : V2Result × StatsKernel :=
  if ¬ env.copyIn then (.error .efault, st)
  else if (request.uidCapacity ≠ 0 ∧ ¬ request.uidEntries) ∨ (request.portCapacity ≠ 0 ∧ ¬ request.portEntries) then
    (.error .einval, st)
  else
    -- the buffers are sized by what the first two sections see, and allocated without a lock
    let uidAllocated := allocatedFor request.uidCapacity (env.peek hz st).uidCount
    let portAllocated := allocatedFor request.portCapacity (env.portPeek hz st).livePorts.length
    if uidAllocated ≠ 0 ∧ ¬ env.uidAlloc then (.error .enomem, env.portPeek hz st)
    else if portAllocated ≠ 0 ∧ ¬ env.portAlloc then (.error .enomem, env.portPeek hz st)
    else
      let uidCount := (env.fill hz st).uidCount
      let uidOut :=
        if uidAllocated ≠ 0 ∧ request.uidCapacity ≥ uidCount ∧ uidAllocated ≥ uidCount then
          (env.fill hz st).kernel.stats.entries
        else []
      let portCount := (env.portFill hz st).livePorts.length
      let portOut :=
        if portAllocated ≠ 0 ∧ request.portCapacity ≥ portCount ∧ portAllocated ≥ portCount then
          (env.portFill hz st).livePorts.map PortStatsEntry.toCount
        else []
      let reply : V2Reply :=
        ⟨uidCount, portCount, (env.fill hz st).sequence, (env.portFill hz st).ports.dropped⟩
      -- a buffer that was outgrown in between is reported like a capacity that is too small
      if request.uidCapacity < uidCount ∨ request.portCapacity < portCount ∨ uidAllocated < uidCount ∨
          portAllocated < portCount then
        (if ¬ env.copyOut then .error .efault else .noSpace reply, env.portFill hz st)
      else if (uidAllocated ≠ 0 ∧ ¬ env.copyUids) ∨ (portAllocated ≠ 0 ∧ ¬ env.copyPorts) ∨ ¬ env.copyOut then
        (.error .efault, env.portFill hz st)
      else (.ok reply uidOut portOut, env.portFill hz st)

/-- Why `read_kernel_stats` returns `-1`. -/
inductive ReadFailure where
  | ioctl (e : Errno)
  | noMemory
  /-- `-ENOSPC`, but no count above the capacity passed -/
  | noProgress
  deriving DecidableEq

inductive ReadResult where
  | stats (s : KernelStats)
  | failed (cause : ReadFailure)
  /-- all the calls given were made and another one is due -/
  | running

structure V2Call where
  env : V2Env
  request : V2Request
  st : StatsKernel

/-- What one turn of the loop meets. -/
structure ReadEnv where
  call : V2Env
  calloc : Bool
  callocPorts : Bool

/-- A run of the loop, with the calls it made. -/
structure ReadRun where
  result : ReadResult
  calls : List V2Call
  st : StatsKernel

def ReadRun.after (call : V2Call) (run : ReadRun) : ReadRun := { run with calls := call :: run.calls }

theorem ReadRun.after_result (call : V2Call) (run : ReadRun) : (run.after call).result = run.result := rfl

/-- The daemon's request. A buffer is null as long as its capacity is 0. -/
def V2Request.ofCapacities (capacity portCapacity : ℕ) : V2Request :=
  ⟨capacity, portCapacity, capacity ≠ 0, portCapacity ≠ 0⟩

/-- The first loop of `read_kernel_stats`, with the capacities so far; the kernel modelled here knows the ioctl. -/
def readKernelStats (hz : UInt64) : List ReadEnv → ℕ → ℕ → StatsKernel → ReadRun
  | [], _, _, st => ⟨.running, [], st⟩
  | env :: rest, capacity, portCapacity, st =>
    let call : V2Call := ⟨env.call, .ofCapacities capacity portCapacity, st⟩
    match vhGetStatsV2 hz env.call (.ofCapacities capacity portCapacity) st with
    | (.ok reply uids ports, st) => ⟨.stats ⟨uids, ports, reply.sequence, reply.droppedPortEntries⟩, [call], st⟩
    | (.error e, st) => ⟨.failed (.ioctl e), [call], st⟩
    | (.noSpace reply, st) =>
      if reply.uidCount ≤ capacity ∧ reply.portCount ≤ portCapacity then ⟨.failed .noProgress, [call], st⟩
      else if reply.uidCount > capacity ∧ ¬ env.calloc then ⟨.failed .noMemory, [call], st⟩
      else if reply.portCount > portCapacity ∧ ¬ env.callocPorts then ⟨.failed .noMemory, [call], st⟩
      else (readKernelStats hz rest (max capacity reply.uidCount) (max portCapacity reply.portCount) st).after call

/-! ### One call -/

/-- Nothing makes the call fail with another error than `-ENOSPC`. -/
structure V2Call.Completes (hz : UInt64) (c : V2Call) : Prop where
  copyIn : c.env.copyIn
  uidEntries : c.request.uidCapacity ≠ 0 → c.request.uidEntries
  portEntries : c.request.portCapacity ≠ 0 → c.request.portEntries
  uidAlloc : allocatedFor c.request.uidCapacity (c.env.peek hz c.st).uidCount ≠ 0 → c.env.uidAlloc
  portAlloc : allocatedFor c.request.portCapacity (c.env.portPeek hz c.st).livePorts.length ≠ 0 → c.env.portAlloc
  copyOut : c.env.copyOut

/-- The buffer for a table that had `peeked` entries cannot hold the `found` entries it has now: the table has grown,
or it did not fit the capacity and no buffer was made. -/
def Outgrown (capacity peeked found : ℕ) : Prop := found ≠ 0 ∧ (peeked < found ∨ capacity < peeked)

def V2Call.uidsOutgrown (hz : UInt64) (c : V2Call) : Prop :=
  Outgrown c.request.uidCapacity (c.env.peek hz c.st).uidCount (c.env.fill hz c.st).uidCount

def V2Call.portsOutgrown (hz : UInt64) (c : V2Call) : Prop :=
  Outgrown c.request.portCapacity (c.env.portPeek hz c.st).livePorts.length (c.env.portFill hz c.st).livePorts.length

/-- Both tables fit the capacities when they are copied, but one has outgrown its buffer since it was looked at. -/
structure V2Call.OutOfStep (hz : UInt64) (c : V2Call) : Prop where
  uids_fit : (c.env.fill hz c.st).uidCount ≤ c.request.uidCapacity
  ports_fit : (c.env.portFill hz c.st).livePorts.length ≤ c.request.portCapacity
  outgrown : c.uidsOutgrown hz ∨ c.portsOutgrown hz

/-- What the ioctl answers with `-ENOSPC`. -/
def V2Call.Short (hz : UInt64) (c : V2Call) : Prop :=
  c.request.uidCapacity < (c.env.fill hz c.st).uidCount ∨
    c.request.portCapacity < (c.env.portFill hz c.st).livePorts.length ∨ c.uidsOutgrown hz ∨ c.portsOutgrown hz

theorem allocatedFor_lt {capacity peeked found : ℕ} :
    allocatedFor capacity peeked < found ↔ Outgrown capacity peeked found := by
  unfold allocatedFor Outgrown
  split_ifs <;> omega

theorem V2Call.short_iff {hz : UInt64} (c : V2Call) : c.Short hz ↔
    c.request.uidCapacity < (c.env.fill hz c.st).uidCount ∨
      c.request.portCapacity < (c.env.portFill hz c.st).livePorts.length ∨
      allocatedFor c.request.uidCapacity (c.env.peek hz c.st).uidCount < (c.env.fill hz c.st).uidCount ∨
      allocatedFor c.request.portCapacity (c.env.portPeek hz c.st).livePorts.length <
        (c.env.portFill hz c.st).livePorts.length := by
  rw [allocatedFor_lt, allocatedFor_lt]
  rfl

def V2Call.reply (hz : UInt64) (c : V2Call) : V2Reply :=
  ⟨(c.env.fill hz c.st).uidCount, (c.env.portFill hz c.st).livePorts.length, (c.env.fill hz c.st).sequence,
    (c.env.portFill hz c.st).ports.dropped⟩

theorem copied_eq {α : Type} {entries : List α} {capacity allocated count : ℕ} (hcapacity : count ≤ capacity)
    (hallocated : count ≤ allocated) (hlen : entries.length = count) :
    (if allocated ≠ 0 ∧ capacity ≥ count ∧ allocated ≥ count then entries else []) = entries := by
  by_cases hzero : allocated = 0
  · rw [if_neg fun h => h.1 hzero]
    exact (List.length_eq_zero_iff.1 (by omega)).symm
  · rw [if_pos ⟨hzero, hcapacity, hallocated⟩]

section Call
variable {hz : UInt64} {c : V2Call}

/-- A call that does not complete fails, after its first two sections or before them, or at its very end. -/
theorem vhGetStatsV2_of_not_completes (h : ¬ c.Completes hz) :
    ∃ e st', vhGetStatsV2 hz c.env c.request c.st = (.error e, st') ∧
      (st' = c.st ∨ st' = c.env.portPeek hz c.st ∨ st' = c.env.portFill hz c.st) := by
  unfold vhGetStatsV2
  by_cases hin : ¬ c.env.copyIn
  · exact ⟨_, _, if_pos hin, .inl rfl⟩
  rw [if_neg hin]
  by_cases hptr : (c.request.uidCapacity ≠ 0 ∧ ¬ c.request.uidEntries) ∨
      (c.request.portCapacity ≠ 0 ∧ ¬ c.request.portEntries)
  · exact ⟨_, _, if_pos hptr, .inl rfl⟩
  rw [if_neg hptr]
  dsimp only
  by_cases huid : allocatedFor c.request.uidCapacity (c.env.peek hz c.st).uidCount ≠ 0 ∧ ¬ c.env.uidAlloc
  · exact ⟨_, _, if_pos huid, .inr (.inl rfl)⟩
  rw [if_neg huid]
  by_cases hport : allocatedFor c.request.portCapacity (c.env.portPeek hz c.st).livePorts.length ≠ 0 ∧ ¬ c.env.portAlloc
  · exact ⟨_, _, if_pos hport, .inr (.inl rfl)⟩
  rw [if_neg hport]
  have hout : ¬ c.env.copyOut := by
    intro hout
    rw [not_or] at hptr
    exact h ⟨not_not.1 hin, not_and_not_right.1 hptr.1, not_and_not_right.1 hptr.2, not_and_not_right.1 huid,
      not_and_not_right.1 hport, hout⟩
  by_cases hshort : c.Short hz
  · rw [if_pos (c.short_iff.1 hshort), if_pos hout]
    exact ⟨_, _, rfl, .inr (.inr rfl)⟩
  · rw [if_neg (mt c.short_iff.2 hshort), if_pos (.inr (.inr hout))]
    exact ⟨_, _, rfl, .inr (.inr rfl)⟩

theorem vhGetStatsV2_of_completes (h : c.Completes hz) :
    vhGetStatsV2 hz c.env c.request c.st = (.noSpace (c.reply hz), c.env.portFill hz c.st) ∧ c.Short hz ∨
    ¬ c.Short hz ∧
      ((¬ c.env.copyUids ∨ ¬ c.env.copyPorts) ∧
          vhGetStatsV2 hz c.env c.request c.st = (.error .efault, c.env.portFill hz c.st) ∨
        vhGetStatsV2 hz c.env c.request c.st = (.ok (c.reply hz) (c.env.fill hz c.st).kernel.stats.entries
          ((c.env.portFill hz c.st).livePorts.map PortStatsEntry.toCount), c.env.portFill hz c.st)) := by
  unfold vhGetStatsV2
  rw [if_neg (not_not.2 h.copyIn),
    if_neg (not_or.2 ⟨not_and_not_right.2 h.uidEntries, not_and_not_right.2 h.portEntries⟩)]
  dsimp only
  rw [if_neg (not_and_not_right.2 h.uidAlloc), if_neg (not_and_not_right.2 h.portAlloc)]
  by_cases hshort : c.Short hz
  · rw [if_pos (c.short_iff.1 hshort), if_neg (not_not.2 h.copyOut)]
    exact .inl ⟨rfl, hshort⟩
  refine .inr ⟨hshort, ?_⟩
  rw [c.short_iff] at hshort
  rw [if_neg hshort]
  simp only [not_or, Nat.not_lt] at hshort
  obtain ⟨hcap, hportCap, huid, hport⟩ := hshort
  rw [copied_eq hcap huid rfl, copied_eq hportCap hport (List.length_map ..)]
  by_cases hcopy : (allocatedFor c.request.uidCapacity (c.env.peek hz c.st).uidCount ≠ 0 ∧ ¬ c.env.copyUids) ∨
      (allocatedFor c.request.portCapacity (c.env.portPeek hz c.st).livePorts.length ≠ 0 ∧ ¬ c.env.copyPorts) ∨
      ¬ c.env.copyOut
  · rw [if_pos hcopy]
    refine .inl ⟨?_, rfl⟩
    rcases hcopy with ⟨-, hcopy⟩ | ⟨-, hcopy⟩ | hcopy
    · exact .inl hcopy
    · exact .inr hcopy
    · exact absurd h.copyOut hcopy
  · rw [if_neg hcopy]
    exact .inr rfl

theorem vhGetStatsV2_noSpace {reply : V2Reply} :
    (vhGetStatsV2 hz c.env c.request c.st).1 = .noSpace reply ↔ c.Completes hz ∧ c.Short hz ∧ reply = c.reply hz := by
  by_cases hc : c.Completes hz
  · rcases vhGetStatsV2_of_completes hc with ⟨heq, hshort⟩ | ⟨hshort, ⟨-, heq⟩ | heq⟩
    · rw [heq]
      exact ⟨fun h => ⟨hc, hshort, (V2Result.noSpace.inj h).symm⟩, fun h => congrArg _ h.2.2.symm⟩
    · rw [heq]
      exact ⟨nofun, fun h => absurd h.2.1 hshort⟩
    · rw [heq]
      exact ⟨nofun, fun h => absurd h.2.1 hshort⟩
  · obtain ⟨e, st', heq, -⟩ := vhGetStatsV2_of_not_completes hc
    rw [heq]
    exact ⟨nofun, fun h => absurd h.1 hc⟩

theorem vhGetStatsV2_outOfStep :
    (∃ reply, (vhGetStatsV2 hz c.env c.request c.st).1 = .noSpace reply ∧ reply.uidCount ≤ c.request.uidCapacity ∧
      reply.portCount ≤ c.request.portCapacity) ↔ c.Completes hz ∧ c.OutOfStep hz := by
  constructor
  · rintro ⟨reply, h, huids, hports⟩
    obtain ⟨hc, hshort, rfl⟩ := vhGetStatsV2_noSpace.1 h
    refine ⟨hc, huids, hports, ?_⟩
    rcases hshort with hcap | hcap | houtgrown
    · exact absurd huids (Nat.not_le.2 hcap)
    · exact absurd hports (Nat.not_le.2 hcap)
    · exact houtgrown
  · rintro ⟨hc, hstep⟩
    exact ⟨_, vhGetStatsV2_noSpace.2 ⟨hc, .inr (.inr hstep.outgrown), rfl⟩, hstep.uids_fit, hstep.ports_fit⟩

/-- The state after a call is that of one of its sections, or the one before. -/
theorem vhGetStatsV2_state (hz : UInt64) (c : V2Call) :
    (vhGetStatsV2 hz c.env c.request c.st).2 = c.st ∨
      (vhGetStatsV2 hz c.env c.request c.st).2 = c.env.portPeek hz c.st ∨
      (vhGetStatsV2 hz c.env c.request c.st).2 = c.env.portFill hz c.st := by
  by_cases hc : c.Completes hz
  · rcases vhGetStatsV2_of_completes hc with
      ⟨heq, -⟩ | ⟨-, ⟨-, heq⟩ | heq⟩ <;> exact .inr (.inr (congrArg Prod.snd heq))
  · obtain ⟨e, st', heq, h⟩ := vhGetStatsV2_of_not_completes hc
    rwa [heq]

end Call

/-! ### Whole runs -/

structure StatsKernelInv (st : StatsKernel) : Prop where
  kernel : StatsInv st.kernel
  ports : PortStatsInv st.ports
  sequence : st.sequence = .ofNat st.reads

theorem StatsKernelInv.init : StatsKernelInv .init := ⟨statsInv_init, .clear, rfl⟩

theorem StatsKernelInv.run {st : StatsKernel} (h : StatsKernelInv st) (hz : UInt64) (op : StatsOp) :
    StatsKernelInv (op.run hz st) := by
  cases op with
  | setPolicy alloc capable request => exact ⟨h.kernel.run (.setPolicy alloc capable request), h.ports, h.sequence⟩
  | intercept uid type => exact ⟨h.kernel.run (.intercept uid type), h.ports, h.sequence⟩
  | javaStat uid hook count => exact ⟨h.kernel.run (.javaStat uid hook count), h.ports, h.sequence⟩
  | recordPort k jiffies => exact ⟨h.kernel, h.ports.record k jiffies, h.sequence⟩
  | sweepPorts jiffies => exact ⟨h.kernel, h.ports.sweep hz jiffies, h.sequence⟩
  | readUids =>
    refine ⟨h.kernel, h.ports, ?_⟩
    show st.sequence + 1 = _
    rw [h.sequence]
    exact (UInt64.ofNat_add st.reads 1).symm
  | clearUids => exact ⟨h.kernel.run (.clearStats true), h.ports, rfl⟩
  | clearPorts => exact ⟨h.kernel, .clear, h.sequence⟩

theorem StatsKernelInv.runs {st : StatsKernel} (h : StatsKernelInv st) (hz : UInt64) (ops : List StatsOp) :
    StatsKernelInv (st.runs hz ops) := by
  induction ops generalizing st with
  | nil => exact h
  | cons op ops ih => exact ih (h.run hz op)

theorem StatsKernelInv.portPeek {st : StatsKernel} (h : StatsKernelInv st) (hz : UInt64) (env : V2Env) :
    StatsKernelInv (env.portPeek hz st) := (h.runs hz _).runs hz _

theorem StatsKernelInv.fill {st : StatsKernel} (h : StatsKernelInv st) (hz : UInt64) (env : V2Env) :
    StatsKernelInv (env.fill hz st) := (h.portPeek hz env).runs hz _

theorem StatsKernelInv.portFill {st : StatsKernel} (h : StatsKernelInv st) (hz : UInt64) (env : V2Env) :
    StatsKernelInv (env.portFill hz st) := (h.fill hz env).runs hz _

theorem StatsKernelInv.of_reachable {hz : UInt64} {st : StatsKernel} (h : (statsSystem hz).Reachable st) :
    StatsKernelInv st := by
  refine h.invariant ?_ ?_
  · rintro _ rfl
    exact .init
  · rintro st op _ hst rfl
    exact hst.run hz op

theorem StatsKernelInv.uidCount_le {st : StatsKernel} (h : StatsKernelInv st) : st.uidCount ≤ 4096 :=
  h.kernel.table.count_le.trans h.kernel.table.capacity_le

theorem StatsKernel.livePorts_le (st : StatsKernel) : st.livePorts.length ≤ 65536 := by
  unfold StatsKernel.livePorts
  cases st.ports.table with
  | none => exact Nat.zero_le _
  | some t =>
    refine (List.length_filter_le ..).trans ?_
    rw [Vector.length_toList]
    exact Nat.le_refl _

/-- A call that completes out of step. -/
def V2Call.Stalls (hz : UInt64) (c : V2Call) : Prop := c.Completes hz ∧ c.OutOfStep hz

theorem readKernelStats_noSpace {hz : UInt64} {env : ReadEnv} {capacity portCapacity : ℕ} {st st' : StatsKernel}
    {reply : V2Reply}
    (h : vhGetStatsV2 hz env.call (.ofCapacities capacity portCapacity) st = (.noSpace reply, st'))
    (rest : List ReadEnv) :
    readKernelStats hz (env :: rest) capacity portCapacity st =
      let call : V2Call := ⟨env.call, .ofCapacities capacity portCapacity, st⟩
      if reply.uidCount ≤ capacity ∧ reply.portCount ≤ portCapacity then ⟨.failed .noProgress, [call], st'⟩
      else if reply.uidCount > capacity ∧ ¬ env.calloc then ⟨.failed .noMemory, [call], st'⟩
      else if reply.portCount > portCapacity ∧ ¬ env.callocPorts then ⟨.failed .noMemory, [call], st'⟩
      else (readKernelStats hz rest (max capacity reply.uidCount)
        (max portCapacity reply.portCount) st').after call := by
  rw [readKernelStats, h]

/-- What a call that succeeds hands over: the uids of one section and the ports of a later one. -/
def V2Call.snapshot (hz : UInt64) (c : V2Call) : KernelStats :=
  ⟨(c.env.fill hz c.st).kernel.stats.entries, (c.env.portFill hz c.st).livePorts.map PortStatsEntry.toCount,
    (c.env.fill hz c.st).sequence, (c.env.portFill hz c.st).ports.dropped⟩

/-- A run that ends with the call `c`. -/
structure ReadRun.Ends (hz : UInt64) (c : V2Call) (run : ReadRun) : Prop where
  calls : run.calls = [c]
  st : run.st = (vhGetStatsV2 hz c.env c.request c.st).2
  not_running : run.result ≠ .running
  stalls : run.result = .failed .noProgress ↔ c.Stalls hz
  stats : ∀ s, run.result = .stats s → s = c.snapshot hz ∧ run.st = c.env.portFill hz c.st

theorem vhGetStatsV2_ok {hz : UInt64} {c : V2Call} {reply : V2Reply} {uids : List UidStats} {ports : List PortCount}
    {st' : StatsKernel} (h : vhGetStatsV2 hz c.env c.request c.st = (.ok reply uids ports, st')) :
    c.snapshot hz = ⟨uids, ports, reply.sequence, reply.droppedPortEntries⟩ ∧ st' = c.env.portFill hz c.st := by
  by_cases hc : c.Completes hz
  · rcases vhGetStatsV2_of_completes hc with ⟨heq, -⟩ | ⟨-, ⟨-, heq⟩ | heq⟩
    · cases h.symm.trans heq
    · cases h.symm.trans heq
    · cases h.symm.trans heq
      exact ⟨rfl, rfl⟩
  · obtain ⟨e, st', heq, -⟩ := vhGetStatsV2_of_not_completes hc
    cases h.symm.trans heq

theorem V2Call.not_stalls {hz : UInt64} {c : V2Call} {result : V2Result} {st' : StatsKernel}
    (h : vhGetStatsV2 hz c.env c.request c.st = (result, st')) (hspace : ∀ reply, result ≠ .noSpace reply) :
    ¬ c.Stalls hz := by
  intro hstalls
  obtain ⟨reply, heq, -⟩ := vhGetStatsV2_outOfStep.2 hstalls
  rw [h] at heq
  exact hspace reply heq

theorem ReadRun.Ends.of_ok {hz : UInt64} {c : V2Call} {reply : V2Reply} {uids : List UidStats} {ports : List PortCount}
    {st' : StatsKernel} (h : vhGetStatsV2 hz c.env c.request c.st = (.ok reply uids ports, st')) :
    ReadRun.Ends hz c ⟨.stats ⟨uids, ports, reply.sequence, reply.droppedPortEntries⟩, [c], st'⟩ := by
  obtain ⟨hsnapshot, hfill⟩ := vhGetStatsV2_ok h
  refine ⟨rfl, (congrArg Prod.snd h).symm, nofun, iff_of_false nofun (V2Call.not_stalls h nofun), fun s hs => ?_⟩
  cases hs
  exact ⟨hsnapshot.symm, hfill⟩

theorem ReadRun.Ends.of_failed {hz : UInt64} {c : V2Call} {result : V2Result} {st' : StatsKernel}
    (h : vhGetStatsV2 hz c.env c.request c.st = (result, st')) {cause : ReadFailure}
    (hcause : cause = .noProgress ↔ c.Stalls hz) : ReadRun.Ends hz c ⟨.failed cause, [c], st'⟩ :=
  ⟨rfl, (congrArg Prod.snd h).symm, nofun,
    ⟨fun heq => hcause.1 (ReadResult.failed.inj heq), fun hs => congrArg _ (hcause.2 hs)⟩, nofun⟩

/-- The loop ends with its first call, or goes on with a larger capacity. -/
theorem readKernelStats_cases (hz : UInt64) (env : ReadEnv) (rest : List ReadEnv) (capacity portCapacity : ℕ)
    (st : StatsKernel) :
    let c : V2Call := ⟨env.call, .ofCapacities capacity portCapacity, st⟩
    let run := readKernelStats hz (env :: rest) capacity portCapacity st
    run.Ends hz c ∨
    ¬ c.Stalls hz ∧
      (capacity < (c.reply hz).uidCount ∨ portCapacity < (c.reply hz).portCount) ∧
      run = (readKernelStats hz rest (max capacity (c.reply hz).uidCount) (max portCapacity (c.reply hz).portCount)
        (c.env.portFill hz st)).after c := by
  intro c run
  cases hcall : vhGetStatsV2 hz c.env c.request c.st with
  | mk result st' =>
    cases result with
    | ok reply uids ports =>
      have hrun : run = ⟨.stats ⟨uids, ports, reply.sequence, reply.droppedPortEntries⟩, [c], st'⟩ := by
        show readKernelStats .. = _
        rw [readKernelStats, hcall]
      rw [hrun]
      exact .inl (.of_ok hcall)
    | error e =>
      have hrun : run = ⟨.failed (.ioctl e), [c], st'⟩ := by
        show readKernelStats .. = _
        rw [readKernelStats, hcall]
      rw [hrun]
      exact .inl (.of_failed hcall (iff_of_false nofun (V2Call.not_stalls hcall nofun)))
    | noSpace reply =>
      rw [show run = _ from readKernelStats_noSpace hcall rest]
      obtain ⟨hcompletes, hshort, rfl⟩ := vhGetStatsV2_noSpace.1 (congrArg Prod.fst hcall)
      dsimp only
      by_cases hfits : (c.reply hz).uidCount ≤ capacity ∧ (c.reply hz).portCount ≤ portCapacity
      · rw [if_pos hfits]
        exact .inl (.of_failed hcall (iff_of_true rfl (vhGetStatsV2_outOfStep.1 ⟨_, congrArg Prod.fst hcall, hfits⟩)))
      have hnot : ¬ c.Stalls hz := fun h => hfits ⟨h.2.uids_fit, h.2.ports_fit⟩
      rw [if_neg hfits]
      split_ifs
      · exact .inl (.of_failed hcall (iff_of_false nofun hnot))
      · exact .inl (.of_failed hcall (iff_of_false nofun hnot))
      · have hfill : st' = c.env.portFill hz st := by
          rcases vhGetStatsV2_of_completes hcompletes with ⟨heq, -⟩ | ⟨hshort', -⟩
          · exact congrArg Prod.snd (hcall.symm.trans heq)
          · exact absurd hshort hshort'
        rw [not_and_or, Nat.not_le, Nat.not_le] at hfits
        rw [hfill]
        exact .inr ⟨hnot, hfits, rfl⟩

/-- The capacities of later calls are larger. -/
def V2Call.Grows (c c' : V2Call) : Prop :=
  c.request.uidCapacity ≤ c'.request.uidCapacity ∧ c.request.portCapacity ≤ c'.request.portCapacity ∧
    (c.request.uidCapacity < c'.request.uidCapacity ∨ c.request.portCapacity < c'.request.portCapacity)

theorem readKernelStats_capacities {hz : UInt64} {st : StatsKernel} (hinv : StatsKernelInv st) (envs : List ReadEnv)
    {capacity portCapacity : ℕ} (hcap : capacity ≤ 4096) (hports : portCapacity ≤ 65536) :
    (∀ c ∈ (readKernelStats hz envs capacity portCapacity st).calls,
      capacity ≤ c.request.uidCapacity ∧ c.request.uidCapacity ≤ 4096 ∧
      portCapacity ≤ c.request.portCapacity ∧ c.request.portCapacity ≤ 65536) ∧
    (readKernelStats hz envs capacity portCapacity st).calls.Pairwise V2Call.Grows ∧
    ((readKernelStats hz envs capacity portCapacity st).result = .running →
      envs.length + capacity + portCapacity ≤ 4096 + 65536) ∧
    ((readKernelStats hz envs capacity portCapacity st).result = .failed .noProgress ↔
      ∃ c ∈ (readKernelStats hz envs capacity portCapacity st).calls, c.Stalls hz) := by
  induction envs generalizing capacity portCapacity st with
  | nil =>
    rw [readKernelStats]
    refine ⟨fun c hc => absurd hc List.not_mem_nil, .nil, fun _ => ?_, fun h => ?_, ?_⟩
    · rw [List.length_nil]
      omega
    · cases h
    · rintro ⟨c, hc, -⟩
      exact absurd hc List.not_mem_nil
  | cons env rest ih =>
    have hfirst := readKernelStats_cases hz env rest capacity portCapacity st
    generalize readKernelStats hz (env :: rest) capacity portCapacity st = run at hfirst ⊢
    dsimp only at hfirst
    generalize hc : (⟨env.call, .ofCapacities capacity portCapacity, st⟩ : V2Call) = c at hfirst
    have hrequest : c.request.uidCapacity = capacity ∧ c.request.portCapacity = portCapacity := by
      rw [← hc]
      exact ⟨rfl, rfl⟩
    rcases hfirst with hend | ⟨hstalls, hgrown, hrun⟩
    · rw [hend.calls]
      refine ⟨fun c' hc' => ?_, List.pairwise_singleton .., fun h => absurd h hend.not_running, hend.stalls.trans ?_⟩
      · obtain rfl := List.mem_singleton.1 hc'
        omega
      · simp only [List.mem_singleton, exists_eq_left]
    · have huids : (c.reply hz).uidCount ≤ 4096 := by
        rw [← hc]
        exact (hinv.fill hz env.call).uidCount_le
      have hlive : (c.reply hz).portCount ≤ 65536 := StatsKernel.livePorts_le _
      generalize (c.reply hz).uidCount = uidCount at hgrown hrun huids
      generalize (c.reply hz).portCount = portCount at hgrown hrun hlive
      obtain ⟨hcalls, hpairs, hrunning, hnext⟩ := @ih _ (hinv.portFill hz env.call)
        (max capacity uidCount) (max portCapacity portCount) (by omega) (by omega)
      rw [hrun]
      refine ⟨?_, ?_, fun h => ?_, ?_⟩
      · refine List.forall_mem_cons.2 ⟨by omega, fun c' hc' => ?_⟩
        have := hcalls c' hc'
        omega
      · refine List.pairwise_cons.2 ⟨fun c' hc' => ?_, hpairs⟩
        have := hcalls c' hc'
        unfold V2Call.Grows
        omega
      · have := hrunning h
        rw [List.length_cons]
        omega
      · refine hnext.trans ⟨fun ⟨c', hc', h⟩ => ⟨c', .tail _ hc', h⟩, ?_⟩
        rintro ⟨c', hc', h⟩
        rcases List.mem_cons.1 hc' with rfl | hc'
        · exact absurd h hstalls
        · exact ⟨c', hc', h⟩

/-- What the sections of the calls keep holds throughout the loop. -/
theorem readKernelStats_invariant {hz : UInt64} {P : StatsKernel → Prop} {envs : List ReadEnv}
    {capacity portCapacity : ℕ} {st : StatsKernel} (hst : P st)
    (hcalls : ∀ c ∈ (readKernelStats hz envs capacity portCapacity st).calls, P c.st →
      P (c.env.portPeek hz c.st) ∧ P (c.env.portFill hz c.st)) :
    P (readKernelStats hz envs capacity portCapacity st).st ∧
      ∀ c ∈ (readKernelStats hz envs capacity portCapacity st).calls, P c.st := by
  induction envs generalizing capacity portCapacity st with
  | nil =>
    rw [readKernelStats]
    exact ⟨hst, fun c hc => absurd hc List.not_mem_nil⟩
  | cons env rest ih =>
    have hfirst := readKernelStats_cases hz env rest capacity portCapacity st
    generalize readKernelStats hz (env :: rest) capacity portCapacity st = run at hfirst hcalls ⊢
    dsimp only at hfirst
    rcases hfirst with hend | ⟨-, -, rfl⟩
    · have hsections := hcalls _ (hend.calls ▸ List.mem_singleton_self _) hst
      rw [hend.st, hend.calls]
      refine ⟨?_, fun c hc => List.mem_singleton.1 hc ▸ hst⟩
      rcases vhGetStatsV2_state hz ⟨env.call, .ofCapacities capacity portCapacity, st⟩ with heq | heq | heq <;> rw [heq]
      · exact hst
      · exact hsections.1
      · exact hsections.2
    · obtain ⟨hfirst, hrest⟩ := List.forall_mem_cons.1 hcalls
      obtain ⟨hend, hcalls⟩ := ih (hfirst hst).2 hrest
      exact ⟨hend, List.forall_mem_cons.2 ⟨hst, hcalls⟩⟩

theorem readKernelStats_env {hz : UInt64} {envs : List ReadEnv} {capacity portCapacity : ℕ}
    {st : StatsKernel} {c : V2Call}
    (hc : c ∈ (readKernelStats hz envs capacity portCapacity st).calls) : ∃ env ∈ envs, c.env = env.call := by
  induction envs generalizing capacity portCapacity st with
  | nil =>
    rw [readKernelStats] at hc
    exact absurd hc List.not_mem_nil
  | cons env rest ih =>
    have hfirst := readKernelStats_cases hz env rest capacity portCapacity st
    generalize readKernelStats hz (env :: rest) capacity portCapacity st = run at hfirst hc
    dsimp only at hfirst
    rcases hfirst with hend | ⟨-, -, rfl⟩
    · rw [hend.calls, List.mem_singleton] at hc
      exact ⟨env, List.mem_cons_self, congrArg V2Call.env hc⟩
    · rcases List.mem_cons.1 hc with rfl | hc
      · exact ⟨env, List.mem_cons_self, rfl⟩
      · obtain ⟨env', henv', heq⟩ := ih hc
        exact ⟨env', List.mem_cons_of_mem _ henv', heq⟩

theorem readKernelStats_stats {hz : UInt64} {envs : List ReadEnv} {capacity portCapacity : ℕ} {st : StatsKernel}
    {s : KernelStats} (h : (readKernelStats hz envs capacity portCapacity st).result = .stats s) :
    ∃ c, (readKernelStats hz envs capacity portCapacity st).calls.getLast? = some c ∧ s = c.snapshot hz ∧
      (readKernelStats hz envs capacity portCapacity st).st = c.env.portFill hz c.st := by
  induction envs generalizing capacity portCapacity st with
  | nil =>
    rw [readKernelStats] at h
    cases h
  | cons env rest ih =>
    have hfirst := readKernelStats_cases hz env rest capacity portCapacity st
    generalize readKernelStats hz (env :: rest) capacity portCapacity st = run at hfirst h ⊢
    dsimp only at hfirst
    rcases hfirst with hend | ⟨-, -, rfl⟩
    · obtain ⟨hsnapshot, hst⟩ := hend.stats s h
      exact ⟨_, by rw [hend.calls, List.getLast?_singleton], hsnapshot, hst⟩
    · obtain ⟨c, hlast, hc⟩ := ih h
      refine ⟨c, ?_, hc⟩
      show (_ :: _).getLast? = some c
      rw [List.getLast?_cons, hlast, Option.getD_some]

/-- `-ENOSPC` without a count above its capacity is the answer to exactly the calls out of step. The daemon's loop gives
up for that reason exactly if it makes such a call, never for another reason of concurrency. In any case it ends: the
capacities of its calls grow, up to the sizes of the tables. -/
theorem readKernelStats_progress {hz : UInt64} {st : StatsKernel} (h : (statsSystem hz).Reachable st) :
    (∀ (env : V2Env) (request : V2Request),
      (∃ reply, (vhGetStatsV2 hz env request st).1 = .noSpace reply ∧
        reply.uidCount ≤ request.uidCapacity ∧ reply.portCount ≤ request.portCapacity) ↔
      V2Call.Completes hz ⟨env, request, st⟩ ∧ V2Call.OutOfStep hz ⟨env, request, st⟩) ∧
    ∀ envs : List ReadEnv, let run := readKernelStats hz envs 0 0 st
      (run.result = .failed .noProgress ↔ ∃ c ∈ run.calls, c.Completes hz ∧ c.OutOfStep hz) ∧
      (run.result = .running → envs.length ≤ 4096 + 65536) ∧ run.calls.Pairwise V2Call.Grows ∧
      ∀ c ∈ run.calls, c.request.uidCapacity ≤ 4096 ∧ c.request.portCapacity ≤ 65536 := by
  refine ⟨fun env request => @vhGetStatsV2_outOfStep hz ⟨env, request, st⟩, fun envs => ?_⟩
  obtain ⟨hcalls, hpairs, hrunning, hstalls⟩ :=
    readKernelStats_capacities (.of_reachable h) envs (Nat.zero_le 4096) (Nat.zero_le 65536)
  exact ⟨hstalls, hrunning, hpairs, fun c hc => ⟨(hcalls c hc).2.1, (hcalls c hc).2.2.2⟩⟩

/-! ### A run that gives up -/

def samplePort : PortKey := ⟨10001, 443, protoTcp⟩

def onePort : PortStats := recordPortEntry clearPortStats samplePort 0

theorem probePortStats_zero (k : PortKey) {left : ℕ} (h : left ≠ 0) :
    probePortStats portTableZero k left 0 none = .claim (portStatsIndex (portStatsHash k) 0) := by
  have hget (i : Fin portStatsCapacity) : portTableZero.get i = ⟨0, 0, 0, .empty, 0, 0⟩ :=
    Vector.getElem_replicate i.isLt
  obtain ⟨left, rfl⟩ := Nat.exists_eq_succ_of_ne_zero h
  rw [probePortStats]
  simp only [hget]
  rfl

theorem recordPortEntry_claim {t : PortTable} {k : PortKey} {i : Fin portStatsCapacity}
    (h : ¬ (k.port = 0 ∨ k.protocol > protoUdp)) (hprobe : probePortStats t k portStatsCapacity 0 none = .claim i)
    (dropped jiffies : UInt64) : recordPortEntry ⟨some t, dropped⟩ k jiffies =
      ⟨some (t.set i ⟨k.uid, k.port, k.protocol, .used, 1, jiffies⟩ i.isLt), dropped⟩ := by
  simp only [recordPortEntry, if_neg h, hprobe]

theorem onePort_eq : ∃ i : Fin portStatsCapacity,
    onePort = ⟨some (portTableZero.set i ⟨10001, 443, protoTcp, .used, 1, 0⟩ i.isLt), 0⟩ :=
  ⟨_, recordPortEntry_claim (by decide) (probePortStats_zero samplePort (by decide)) 0 0⟩

theorem sweep_fixed {hz jiffies : UInt64} {t : PortTable} (h : t.map (expirePortEntry hz jiffies) = t)
    (dropped : UInt64) :
    (countLivePortStats hz jiffies ⟨some t, dropped⟩).2 = ⟨some t, dropped⟩ := by
  rw [countLivePortStats]
  dsimp only
  rw [h]

theorem expire_zero (hz jiffies : UInt64) : portTableZero.map (expirePortEntry hz jiffies) = portTableZero := by
  rw [portTableZero, Vector.map_replicate]
  rfl

theorem clearPortStats_sweep : (countLivePortStats 250 0 clearPortStats).2 = clearPortStats ∧
    (clearPortStats.table.elim [] livePortEntries).length = 0 := by
  refine ⟨sweep_fixed (expire_zero 250 0) 0, ?_⟩
  rw [clearPortStats, Option.elim_some, livePortEntries, portTableZero, Vector.toList_replicate,
    List.filter_replicate_of_neg (by decide)]
  rfl

theorem onePort_sweep : (countLivePortStats 250 0 onePort).2 = onePort ∧
    (onePort.table.elim [] livePortEntries).length = 1 := by
  obtain ⟨i, hone⟩ := onePort_eq
  have hfresh : expirePortEntry 250 0 ⟨10001, 443, protoTcp, .used, 1, 0⟩ = ⟨10001, 443, protoTcp, .used, 1, 0⟩ := by
    decide
  rw [hone]
  refine ⟨sweep_fixed ?_ 0, ?_⟩
  · rw [Vector.map_set, expire_zero, hfresh]
  · rw [Option.elim_some, livePortEntries, ← List.countP_eq_length_filter, Vector.toList_set, portTableZero,
      Vector.toList_replicate, List.countP_set (by rw [List.length_replicate]; exact i.isLt), List.countP_replicate]
    simp

def quietCall : V2Env := ⟨true, [], [], 0, true, true, [], [], 0, true, true, true⟩

/-- In the second call the port entry is cleared away before the look at the table and comes back after it. -/
def stalledCall : V2Env :=
  { quietCall with beforePortPeek := [.clearUids, .clearPorts], beforePortFill := [.recordPort samplePort 0] }

def stalledState : StatsKernel := ⟨.init, onePort, 0, 0, 0⟩

def stalledEnvs : List ReadEnv := [⟨quietCall, true, true⟩, ⟨stalledCall, true, true⟩]

theorem quietCall_sections {k : KernelState} {ports : PortStats} {sequence : UInt64} {clears reads : ℕ}
    (h : (countLivePortStats 250 0 ports).2 = ports) :
    quietCall.portPeek 250 ⟨k, ports, sequence, clears, reads⟩ = ⟨k, ports, sequence, clears, reads⟩ ∧
    quietCall.fill 250 ⟨k, ports, sequence, clears, reads⟩ = ⟨k, ports, sequence + 1, clears, reads + 1⟩ ∧
    quietCall.portFill 250 ⟨k, ports, sequence, clears, reads⟩ = ⟨k, ports, sequence + 1, clears, reads + 1⟩ := by
  simp only [quietCall, V2Env.portFill, V2Env.fill, V2Env.portPeek, V2Env.peek, StatsKernel.runs, List.nil_append,
    List.foldl_cons, List.foldl_nil, StatsOp.run, h, and_self]

theorem quietCall_result {k : KernelState} {ports : PortStats} {sequence : UInt64} {clears reads : ℕ}
    (h : (countLivePortStats 250 0 ports).2 = ports) (capacity portCapacity : ℕ) :
    let entries := k.stats.entries
    let live := ports.table.elim [] livePortEntries
    let reply : V2Reply := ⟨entries.length, live.length, sequence + 1, ports.dropped⟩
    vhGetStatsV2 250 quietCall (.ofCapacities capacity portCapacity) ⟨k, ports, sequence, clears, reads⟩ =
      (if entries.length ≤ capacity ∧ live.length ≤ portCapacity then
        .ok reply entries (live.map PortStatsEntry.toCount)
        else .noSpace reply, ⟨k, ports, sequence + 1, clears, reads + 1⟩) := by
  intro entries live reply
  let c : V2Call := ⟨quietCall, .ofCapacities capacity portCapacity, ⟨k, ports, sequence, clears, reads⟩⟩
  obtain ⟨hpeek, hfill, hportFill⟩ := @quietCall_sections k ports sequence clears reads h
  have hcompletes : c.Completes 250 := ⟨rfl, decide_eq_true, decide_eq_true, fun _ => rfl, fun _ => rfl, rfl⟩
  have hreply : c.reply 250 = reply := by
    rw [V2Call.reply, show c.env.fill 250 c.st = _ from hfill, show c.env.portFill 250 c.st = _ from hportFill]
    rfl
  have hshort : c.Short 250 ↔ ¬ (entries.length ≤ capacity ∧ live.length ≤ portCapacity) := by
    rw [V2Call.short_iff, show c.env.fill 250 c.st = _ from hfill, show c.env.portFill 250 c.st = _ from hportFill,
      show c.env.portPeek 250 c.st = _ from hpeek]
    show capacity < entries.length ∨ portCapacity < live.length ∨
      allocatedFor capacity entries.length < entries.length ∨
      allocatedFor portCapacity live.length < live.length ↔ _
    unfold allocatedFor
    split_ifs <;> omega
  rcases vhGetStatsV2_of_completes hcompletes with ⟨heq, hs⟩ | ⟨hs, ⟨hcopy, -⟩ | heq⟩
  · rw [if_neg (hshort.1 hs), ← hreply]
    exact heq.trans (congrArg _ hportFill)
  · exact hcopy.elim (absurd rfl) (absurd rfl)
  · rw [if_pos (not_not.1 (mt hshort.2 hs)), ← hreply]
    refine heq.trans ?_
    rw [show c.env.fill 250 c.st = _ from hfill, show c.env.portFill 250 c.st = _ from hportFill]
    rfl

theorem stalledCall_stalls (ports : PortStats) {one : PortStats}
    (hrecord : recordPortEntry clearPortStats samplePort 0 = one)
    (hsweep : (countLivePortStats 250 0 one).2 = one) (hlive : (one.table.elim [] livePortEntries).length = 1) :
    V2Call.Stalls 250 ⟨stalledCall, .ofCapacities 0 1, ⟨.init, ports, 1, 0, 1⟩⟩ := by
  obtain ⟨hclear, hnone⟩ := clearPortStats_sweep
  have hinit : (KernelOp.clearStats true).run .init = .init := rfl
  have hpeek : stalledCall.portPeek 250 ⟨.init, ports, 1, 0, 1⟩ = ⟨.init, clearPortStats, 0, 1, 0⟩ := by
    simp only [stalledCall, quietCall, V2Env.portPeek, V2Env.peek, StatsKernel.runs, List.cons_append, List.nil_append,
      List.foldl_cons, List.foldl_nil, StatsOp.run, hclear, hinit]
  have hfill : stalledCall.fill 250 ⟨.init, ports, 1, 0, 1⟩ = ⟨.init, clearPortStats, 0 + 1, 1, 1⟩ := by
    rw [V2Env.fill, hpeek]
    simp only [stalledCall, quietCall, StatsKernel.runs, List.nil_append, List.foldl_cons, List.foldl_nil, StatsOp.run]
  have hportFill : stalledCall.portFill 250 ⟨.init, ports, 1, 0, 1⟩ = ⟨.init, one, 0 + 1, 1, 1⟩ := by
    rw [V2Env.portFill, hfill]
    simp only [stalledCall, quietCall, StatsKernel.runs, List.cons_append, List.nil_append, List.foldl_cons,
      List.foldl_nil, StatsOp.run, hrecord, hsweep]
  have hpeeked : (stalledCall.portPeek 250 ⟨.init, ports, 1, 0, 1⟩).livePorts.length = 0 := by
    rw [hpeek]
    exact hnone
  have hfound : (stalledCall.portFill 250 ⟨.init, ports, 1, 0, 1⟩).livePorts.length = 1 := by
    rw [hportFill]
    exact hlive
  refine ⟨⟨rfl, fun h => absurd rfl h, fun _ => rfl, fun _ => rfl, fun _ => rfl, rfl⟩, ?_, hfound.le,
    .inr ⟨?_, .inl ?_⟩⟩
  · dsimp only
    rw [hfill]
    exact Nat.le_refl 0
  · dsimp only
    rw [hfound]
    exact Nat.one_ne_zero
  · dsimp only
    rw [hpeeked, hfound]
    exact Nat.zero_lt_one

theorem stalledState_reachable : (statsSystem 250).Reachable stalledState :=
  .step (.init rfl) (show (StatsOp.recordPort samplePort 0).run 250 .init = stalledState by
    rw [StatsOp.run, stalledState, StatsKernel.init, onePort])

theorem stalled_result : (readKernelStats 250 stalledEnvs 0 0 stalledState).result = .failed .noProgress := by
  obtain ⟨hsweep, hlive⟩ := onePort_sweep
  have hrecord : recordPortEntry clearPortStats samplePort 0 = onePort := by rw [onePort]
  rw [stalledState]
  generalize onePort = one at hsweep hlive hrecord
  have hfirst := @quietCall_result .init one 0 0 0 hsweep 0 0
  dsimp only at hfirst
  rw [hlive, if_neg (by decide)] at hfirst
  obtain ⟨reply', hsecond, hfits⟩ := vhGetStatsV2_outOfStep.2 (stalledCall_stalls one hrecord hsweep hlive)
  have hstall : (readKernelStats 250 [⟨stalledCall, true, true⟩] 0 1 ⟨.init, one, 1, 0, 1⟩).result =
      .failed .noProgress := by
    rw [readKernelStats_noSpace (Prod.ext hsecond rfl)]
    exact congrArg ReadRun.result (if_pos hfits)
  rw [stalledEnvs, readKernelStats_noSpace hfirst]
  dsimp only
  rw [if_neg (by decide), if_neg (by decide), if_neg (by decide), ReadRun.after_result]
  exact hstall

/-- The daemon gives up although every allocation and every copy succeeds. -/
theorem readKernelStats_gives_up :
    (statsSystem 250).Reachable stalledState ∧
      (readKernelStats 250 stalledEnvs 0 0 stalledState).result = .failed .noProgress :=
  ⟨stalledState_reachable, stalled_result⟩

theorem readKernelStats_progress_stalled :
    ∃ c ∈ (readKernelStats 250 stalledEnvs 0 0 stalledState).calls, c.Completes 250 ∧ c.OutOfStep 250 :=
  ((readKernelStats_progress stalledState_reachable).2 stalledEnvs).1.1 stalled_result

end VpnHide
