import VpnHide.PortTotals
import VpnHide.Lib.Cells

/-!
# The buffers of the second statistics ioctl (`VH_GET_STATS_V2`)

The ioctl of `StatsRead` again, with the memory that it allocates, fills and copies. Both buffers are sized by an
earlier look at their tables. Whatever happens to the tables in between, nothing is written outside, and what a
successful call copies was written in the same call: the uid table as the third section finds it, and the port entries
that are live in the fourth (`vhGetStatsV2_exact`).
-/

namespace VpnHide

/-! ### The code -/

/-- `uid_out` and `port_out`. -/
structure V2Buffers where
  uidOut : Option (Cells UidStats)
  portOut : Option (Cells PortCount)

/-- The outcome of a call, with the cells copied to the caller's arrays. -/
inductive V2Copied where
  | ok (reply : V2Reply) (uids : List (Option UidStats)) (ports : List (Option PortCount))
  /-- `-ENOSPC` -/
  | noSpace (reply : V2Reply)
  | error (e : Errno)

structure V2Outcome where
  copied : V2Copied
  buffers : V2Buffers
  st : StatsKernel

/-- `kvmalloc_array`, where it is called. -/
def allocCells {β : Type} (allocated : ℕ) : Option (Cells β) := if allocated ≠ 0 then some (.alloc allocated) else none

/-- The loop that fills a buffer, if it was allocated and is large enough. -/
def fillCells {α β : Type} (f : α → Option β) (xs : List α) (capacity allocated count : ℕ) (out : Option (Cells β)) :
    Option (Cells β) :=
  if out.isSome ∧ capacity ≥ count ∧ allocated ≥ count then out.map (Cells.fill f xs 0) else out

/-- What `copy_to_user` reads of a buffer. -/
def copyCells {β : Type} (out : Option (Cells β)) (count : ℕ) : List (Option β) := out.elim [] fun m => m.read count

/-- The body of the loop over the port entries. -/
def PortStatsEntry.usedCount (e : PortStatsEntry) : Option PortCount := if e.state ≠ .used then none else some e.toCount

/-- All slots of the port table. -/
def StatsKernel.portSlots (st : StatsKernel) : List PortStatsEntry := st.ports.table.elim [] Vector.toList

section Buffers
variable (hz : UInt64) (c : V2Call)

def V2Call.uidAllocated : ℕ := allocatedFor c.request.uidCapacity (c.env.peek hz c.st).uidCount

def V2Call.portAllocated : ℕ := allocatedFor c.request.portCapacity (c.env.portPeek hz c.st).livePorts.length

/-- `uid_out` behind the third section. -/
def V2Call.uidOut : Option (Cells UidStats) :=
  fillCells some (c.env.fill hz c.st).kernel.stats.entries c.request.uidCapacity (c.uidAllocated hz)
    (c.env.fill hz c.st).uidCount (allocCells (c.uidAllocated hz))

/-- `port_out` behind the fourth section. -/
def V2Call.portOut : Option (Cells PortCount) :=
  fillCells PortStatsEntry.usedCount (c.env.portFill hz c.st).portSlots c.request.portCapacity (c.portAllocated hz)
    (c.env.portFill hz c.st).livePorts.length (allocCells (c.portAllocated hz))

/-- The `VH_GET_STATS_V2` case of `handle_vpnhide_ioctl`, with its buffers. -/
def vhGetStatsV2Buffers : V2Outcome :=
  if ¬ c.env.copyIn then ⟨.error .efault, ⟨none, none⟩, c.st⟩
  else if (c.request.uidCapacity ≠ 0 ∧ ¬ c.request.uidEntries) ∨
    (c.request.portCapacity ≠ 0 ∧ ¬ c.request.portEntries) then
    ⟨.error .einval, ⟨none, none⟩, c.st⟩
  else if c.uidAllocated hz ≠ 0 ∧ ¬ c.env.uidAlloc then ⟨.error .enomem, ⟨none, none⟩, c.env.portPeek hz c.st⟩
  else if c.portAllocated hz ≠ 0 ∧ ¬ c.env.portAlloc then
    ⟨.error .enomem, ⟨allocCells (c.uidAllocated hz), none⟩, c.env.portPeek hz c.st⟩
  else
    let uidCount := (c.env.fill hz c.st).uidCount
    let portCount := (c.env.portFill hz c.st).livePorts.length
    let reply : V2Reply := ⟨uidCount, portCount, (c.env.fill hz c.st).sequence, (c.env.portFill hz c.st).ports.dropped⟩
    let leave (copied : V2Copied) : V2Outcome := ⟨copied, ⟨c.uidOut hz, c.portOut hz⟩, c.env.portFill hz c.st⟩
    if c.request.uidCapacity < uidCount ∨ c.request.portCapacity < portCount ∨ c.uidAllocated hz < uidCount ∨
        c.portAllocated hz < portCount then
      leave (if ¬ c.env.copyOut then .error .efault else .noSpace reply)
    else if (c.uidOut hz).isSome ∧ ¬ c.env.copyUids then leave (.error .efault)
    else if (c.portOut hz).isSome ∧ ¬ c.env.copyPorts then leave (.error .efault)
    else if ¬ c.env.copyOut then leave (.error .efault)
    else leave (.ok reply (copyCells (c.uidOut hz) uidCount) (copyCells (c.portOut hz) portCount))

end Buffers

/-! ### One buffer -/

section Buffer
variable {α β : Type} {f : α → Option β} {xs : List α} {capacity allocated : ℕ}

theorem allocCells_isSome : (allocCells allocated : Option (Cells β)).isSome ↔ allocated ≠ 0 := by
  unfold allocCells
  split_ifs with h <;> simp [h]

theorem fillCells_isSome {count : ℕ} {out : Option (Cells β)} :
    (fillCells f xs capacity allocated count out).isSome ↔ out.isSome := by
  unfold fillCells
  split_ifs
  · rw [Option.isSome_map]
  · rfl

/-- The places of a buffer that were written are its own. -/
def Sized (allocated : ℕ) (out : Option (Cells β)) : Prop := ∀ m ∈ out, m.cells.length = allocated ∧ m.InBounds

theorem sized_none (allocated : ℕ) : Sized allocated (none : Option (Cells β)) := by
  intro m hm
  cases hm

theorem sized_allocCells (allocated : ℕ) : Sized allocated (allocCells allocated : Option (Cells β)) := by
  intro m hm
  unfold allocCells at hm
  split_ifs at hm
  · cases hm
    exact ⟨Cells.length_alloc _, Cells.inBounds_alloc _⟩
  · cases hm

theorem Sized.fillCells {ys : List β} (hys : xs.filterMap f = ys) {out : Option (Cells β)} (h : Sized allocated out) :
    Sized allocated (fillCells f xs capacity allocated ys.length out) := by
  unfold VpnHide.fillCells
  split_ifs with hguard
  · intro m hm
    obtain ⟨m, hout, rfl⟩ := Option.map_eq_some_iff.1 hm
    obtain ⟨hlen, hbounds⟩ := h m hout
    refine ⟨Cells.length_fill.trans hlen, hbounds.fill ?_⟩
    rw [hlen, hys, Nat.zero_add]
    exact hguard.2.2
  · exact h

/-- Of a buffer that is large enough, or of none if there is nothing to write, everything is copied. -/
theorem copyCells_fillCells {ys : List β} (hys : xs.filterMap f = ys) (hcapacity : ys.length ≤ capacity)
    (hallocated : ys.length ≤ allocated) :
    copyCells (fillCells f xs capacity allocated ys.length (allocCells allocated)) ys.length = ys.map some := by
  subst hys
  by_cases hzero : allocated = 0
  · have hnil : xs.filterMap f = [] := List.length_eq_zero_iff.1 (by omega)
    simp [copyCells, fillCells, allocCells, hzero, hnil]
  · have halloc : allocCells allocated = some (.alloc allocated : Cells β) := if_pos hzero
    rw [halloc, fillCells, if_pos ⟨rfl, hcapacity, hallocated⟩]
    exact Cells.read_fill (by rwa [Cells.length_alloc])

end Buffer

/-! ### Live port entries -/

/-- The entry is in use and has not expired. -/
def PortStatsEntry.Live (hz jiffies : UInt64) (e : PortStatsEntry) : Prop :=
  e.state = .used ∧ ¬ timeAfter jiffies (e.lastSeen + portStatsTtl hz)

instance (hz jiffies : UInt64) (e : PortStatsEntry) : Decidable (e.Live hz jiffies) :=
  inferInstanceAs (Decidable (_ ∧ _))

theorem filterMap_usedCount (slots : List PortStatsEntry) :
    slots.filterMap PortStatsEntry.usedCount = (slots.filter fun e => e.state = .used).map PortStatsEntry.toCount := by
  induction slots with
  | nil => rfl
  | cons e slots ih =>
    by_cases hused : e.state = .used
    · rw [List.filterMap_cons_some (b := e.toCount) (by rw [PortStatsEntry.usedCount, if_neg (not_not.2 hused)]),
        List.filter_cons_of_pos (by simpa using hused), List.map_cons, ih]
    · rw [List.filterMap_cons_none (by rw [PortStatsEntry.usedCount, if_pos hused]),
        List.filter_cons_of_neg (by simpa using hused), ih]

theorem expirePortEntry_of_live {hz jiffies : UInt64} {e : PortStatsEntry} (h : e.Live hz jiffies) :
    expirePortEntry hz jiffies e = e := if_neg fun hexpired => h.2 hexpired.2

theorem expirePortEntry_used {hz jiffies : UInt64} {e : PortStatsEntry} :
    (expirePortEntry hz jiffies e).state = .used ↔ e.Live hz jiffies := by
  unfold expirePortEntry
  split_ifs with hexpired
  · exact iff_of_false (by simp) fun hlive => hlive.2 hexpired.2
  · exact ⟨fun hused => ⟨hused, fun hafter => hexpired ⟨hused, hafter⟩⟩, fun hlive => hlive.1⟩

theorem filter_used_expire (hz jiffies : UInt64) (slots : List PortStatsEntry) :
    (slots.map (expirePortEntry hz jiffies)).filter (fun e => e.state = .used) =
      slots.filter fun e => e.Live hz jiffies := by
  induction slots with
  | nil => rfl
  | cons e slots ih =>
    by_cases hlive : e.Live hz jiffies
    · rw [List.map_cons, List.filter_cons_of_pos (by simpa using expirePortEntry_used.2 hlive),
        List.filter_cons_of_pos (by simpa using hlive), expirePortEntry_of_live hlive, ih]
    · rw [List.map_cons, List.filter_cons_of_neg (by simpa using mt expirePortEntry_used.1 hlive),
        List.filter_cons_of_neg (by simpa using hlive), ih]

theorem StatsKernel.livePorts_eq_filter (st : StatsKernel) :
    st.livePorts = st.portSlots.filter fun e => e.state = .used := by
  unfold StatsKernel.livePorts StatsKernel.portSlots
  cases st.ports.table <;> rfl

theorem StatsKernel.portCounts_eq_filterMap (st : StatsKernel) :
    st.portCounts = st.portSlots.filterMap PortStatsEntry.usedCount := by
  rw [StatsKernel.portCounts, StatsKernel.livePorts_eq_filter, filterMap_usedCount]

theorem livePorts_sweep (hz jiffies : UInt64) (st : StatsKernel) :
    (StatsOp.run hz st (.sweepPorts jiffies)).livePorts = st.portSlots.filter fun e => e.Live hz jiffies := by
  rw [StatsKernel.livePorts_eq_filter, ← filter_used_expire]
  congr 1
  unfold StatsKernel.portSlots
  show (countLivePortStats hz jiffies st.ports).2.table.elim [] Vector.toList = _
  unfold countLivePortStats
  cases ht : st.ports.table with
  | none => simp [ht]
  | some t => exact Vector.toList_map

/-! ### The call -/

/-- The outcome of the ioctl without its buffers: everything that it copies was written. -/
def V2Result.copied : V2Result → V2Copied
  | .ok reply uids ports => .ok reply (uids.map some) (ports.map some)
  | .noSpace reply => .noSpace reply
  | .error e => .error e

/-- The kernel as the fourth section finds it. -/
def V2Call.atPorts (hz : UInt64) (c : V2Call) : StatsKernel := (c.env.fill hz c.st).runs hz c.env.beforePortFill

section Call
variable {hz : UInt64} {c : V2Call}

theorem portFill_livePorts :
    (c.env.portFill hz c.st).livePorts = (c.atPorts hz).portSlots.filter fun e => e.Live hz c.env.filledAt := by
  rw [← livePorts_sweep]
  unfold V2Env.portFill StatsKernel.runs
  rw [List.foldl_append]
  rfl

theorem sized_uidOut : Sized (c.uidAllocated hz) (c.uidOut hz) :=
  (sized_allocCells _).fillCells List.filterMap_some

theorem uidOut_isSome : (c.uidOut hz).isSome ↔ c.uidAllocated hz ≠ 0 := fillCells_isSome.trans allocCells_isSome

theorem portOut_isSome : (c.portOut hz).isSome ↔ c.portAllocated hz ≠ 0 := fillCells_isSome.trans allocCells_isSome

theorem copyCells_uidOut (hcapacity : (c.env.fill hz c.st).uidCount ≤ c.request.uidCapacity)
    (hallocated : (c.env.fill hz c.st).uidCount ≤ c.uidAllocated hz) :
    copyCells (c.uidOut hz) (c.env.fill hz c.st).uidCount = (c.env.fill hz c.st).kernel.stats.entries.map some :=
  copyCells_fillCells List.filterMap_some hcapacity hallocated

theorem portOut_eq : c.portOut hz =
    fillCells PortStatsEntry.usedCount (c.env.portFill hz c.st).portSlots c.request.portCapacity (c.portAllocated hz)
      (c.env.portFill hz c.st).portCounts.length (allocCells (c.portAllocated hz)) := by
  rw [StatsKernel.portCounts, List.length_map]
  rfl

theorem sized_portOut : Sized (c.portAllocated hz) (c.portOut hz) := by
  rw [portOut_eq]
  exact (sized_allocCells _).fillCells (StatsKernel.portCounts_eq_filterMap _).symm

theorem copyCells_portOut (hcapacity : (c.env.portFill hz c.st).livePorts.length ≤ c.request.portCapacity)
    (hallocated : (c.env.portFill hz c.st).livePorts.length ≤ c.portAllocated hz) :
    copyCells (c.portOut hz) (c.env.portFill hz c.st).livePorts.length =
      (c.env.portFill hz c.st).portCounts.map some := by
  have hlength : (c.env.portFill hz c.st).livePorts.length = (c.env.portFill hz c.st).portCounts.length :=
    (List.length_map ..).symm
  rw [portOut_eq, hlength]
  exact copyCells_fillCells (StatsKernel.portCounts_eq_filterMap _).symm (hlength ▸ hcapacity) (hlength ▸ hallocated)

/-- No buffer is overrun, however the call ends. -/
theorem vhGetStatsV2Buffers_sized :
    Sized (c.uidAllocated hz) (vhGetStatsV2Buffers hz c).buffers.uidOut ∧
      Sized (c.portAllocated hz) (vhGetStatsV2Buffers hz c).buffers.portOut := by
  unfold vhGetStatsV2Buffers
  dsimp only
  split_ifs
  all_goals first
    | exact ⟨sized_none _, sized_none _⟩
    | exact ⟨sized_allocCells _, sized_none _⟩
    | exact ⟨sized_uidOut, sized_portOut⟩

/-- The buffers change nothing: all that is copied out of them was written. -/
theorem vhGetStatsV2Buffers_copied :
    (vhGetStatsV2Buffers hz c).copied = (vhGetStatsV2 hz c.env c.request c.st).1.copied ∧
      (vhGetStatsV2Buffers hz c).st = (vhGetStatsV2 hz c.env c.request c.st).2 := by
  unfold vhGetStatsV2Buffers vhGetStatsV2
  by_cases hin : ¬ c.env.copyIn
  · rw [if_pos hin, if_pos hin]
    exact ⟨rfl, rfl⟩
  rw [if_neg hin, if_neg hin]
  by_cases hptr : (c.request.uidCapacity ≠ 0 ∧ ¬ c.request.uidEntries) ∨
      (c.request.portCapacity ≠ 0 ∧ ¬ c.request.portEntries)
  · rw [if_pos hptr, if_pos hptr]
    exact ⟨rfl, rfl⟩
  have huidAllocated : allocatedFor c.request.uidCapacity (c.env.peek hz c.st).uidCount = c.uidAllocated hz := rfl
  have hportAllocated : allocatedFor c.request.portCapacity (c.env.portPeek hz c.st).livePorts.length =
      c.portAllocated hz := rfl
  rw [if_neg hptr, if_neg hptr]
  dsimp only
  rw [huidAllocated, hportAllocated]
  by_cases huid : c.uidAllocated hz ≠ 0 ∧ ¬ c.env.uidAlloc
  · rw [if_pos huid, if_pos huid]
    exact ⟨rfl, rfl⟩
  rw [if_neg huid, if_neg huid]
  by_cases hport : c.portAllocated hz ≠ 0 ∧ ¬ c.env.portAlloc
  · rw [if_pos hport, if_pos hport]
    exact ⟨rfl, rfl⟩
  rw [if_neg hport, if_neg hport]
  by_cases hshort : c.request.uidCapacity < (c.env.fill hz c.st).uidCount ∨
      c.request.portCapacity < (c.env.portFill hz c.st).livePorts.length ∨
      c.uidAllocated hz < (c.env.fill hz c.st).uidCount ∨
      c.portAllocated hz < (c.env.portFill hz c.st).livePorts.length
  · rw [if_pos hshort, if_pos hshort]
    split_ifs <;> exact ⟨rfl, rfl⟩
  rw [if_neg hshort, if_neg hshort]
  simp only [not_or, Nat.not_lt] at hshort
  obtain ⟨huidCapacity, hportCapacity, huidRoom, hportRoom⟩ := hshort
  simp only [uidOut_isSome, portOut_isSome]
  rw [copyCells_uidOut huidCapacity huidRoom, copyCells_portOut hportCapacity hportRoom,
    copied_eq huidCapacity huidRoom rfl, copied_eq hportCapacity hportRoom (List.length_map ..)]
  by_cases huids : c.uidAllocated hz ≠ 0 ∧ ¬ c.env.copyUids
  · rw [if_pos huids, if_pos (.inl huids)]
    exact ⟨rfl, rfl⟩
  by_cases hports : c.portAllocated hz ≠ 0 ∧ ¬ c.env.copyPorts
  · rw [if_neg huids, if_pos hports, if_pos (.inr (.inl hports))]
    exact ⟨rfl, rfl⟩
  by_cases hout : ¬ c.env.copyOut
  · rw [if_neg huids, if_neg hports, if_pos hout, if_pos (.inr (.inr hout))]
    exact ⟨rfl, rfl⟩
  · rw [if_neg huids, if_neg hports, if_neg hout, if_neg (by tauto)]
    exact ⟨rfl, rfl⟩

theorem vhGetStatsV2Buffers_ok {reply : V2Reply} {uids : List (Option UidStats)} {ports : List (Option PortCount)}
    (h : (vhGetStatsV2Buffers hz c).copied = .ok reply uids ports) :
    uids = (c.env.fill hz c.st).kernel.stats.entries.map some ∧ ports = (c.env.portFill hz c.st).portCounts.map some ∧
      reply = c.reply hz := by
  rw [vhGetStatsV2Buffers_copied.1] at h
  by_cases hc : c.Completes hz
  · rcases vhGetStatsV2_of_completes hc with ⟨heq, -⟩ | ⟨-, ⟨-, heq⟩ | heq⟩
    · rw [heq] at h
      cases h
    · rw [heq] at h
      cases h
    · rw [heq] at h
      cases h
      exact ⟨rfl, rfl, rfl⟩
  · obtain ⟨e, st', heq, -⟩ := vhGetStatsV2_of_not_completes hc
    rw [heq] at h
    cases h

end Call

/-- The call never writes outside its buffers. What it returns is the table of the third section and the live entries of
the fourth, each once, with all of them counted and all bytes written. -/
theorem vhGetStatsV2_exact {hz : UInt64} {c : V2Call} (h : (statsSystem hz).Reachable c.st) :
    Sized (c.uidAllocated hz) (vhGetStatsV2Buffers hz c).buffers.uidOut ∧
    Sized (c.portAllocated hz) (vhGetStatsV2Buffers hz c).buffers.portOut ∧
    ∀ reply uids ports, (vhGetStatsV2Buffers hz c).copied = .ok reply uids ports →
      let table := (c.env.fill hz c.st).kernel.stats.entries
      let live := (c.atPorts hz).portSlots.filter fun e => e.Live hz c.env.filledAt
      (uids = table.map some ∧ table.Pairwise (fun a b => a.uid < b.uid) ∧ reply.uidCount = uids.length) ∧
      (ports = live.map (fun e => some e.toCount) ∧ (live.map PortStatsEntry.key).Nodup ∧
        reply.portCount = ports.length) := by
  refine ⟨vhGetStatsV2Buffers_sized.1, vhGetStatsV2Buffers_sized.2, fun reply uids ports hok => ?_⟩
  obtain ⟨rfl, rfl, rfl⟩ := vhGetStatsV2Buffers_ok hok
  have hinv := StatsKernelInv.of_reachable h
  have hkeys := (hinv.portFill hz c.env).portCounts_nodup
  rw [StatsKernel.portCounts, portFill_livePorts, List.map_map] at hkeys
  refine ⟨⟨rfl, ?_, (List.length_map ..).symm⟩, ?_, hkeys, ?_⟩
  · exact (hinv.fill hz c.env).kernel.table.sorted.imp fun hlt => UInt32.lt_iff_toNat_lt.2 hlt
  · rw [StatsKernel.portCounts, portFill_livePorts, List.map_map]
    rfl
  · rw [StatsKernel.portCounts, List.map_map, List.length_map]
    rfl

/-- The one port entry is copied. -/
theorem vhGetStatsV2_exact_onePort :
    ∃ reply uids ports, (vhGetStatsV2Buffers 250 ⟨quietCall, .ofCapacities 0 1, stalledState⟩).copied =
      .ok reply uids ports ∧
      reply.portCount = 1 ∧ ports.length = 1 := by
  obtain ⟨hsweep, hlive⟩ := onePort_sweep
  have hresult := @quietCall_result .init onePort 0 0 0 hsweep 0 1
  dsimp only at hresult
  rw [hlive, if_pos (by decide)] at hresult
  have hcopied := (@vhGetStatsV2Buffers_copied 250 ⟨quietCall, .ofCapacities 0 1, stalledState⟩).1.trans
    (congrArg (fun r => r.1.copied) hresult)
  have hexact := (vhGetStatsV2_exact stalledState_reachable).2.2 _ _ _ hcopied
  exact ⟨_, _, _, hcopied, rfl, hexact.2.2.2.symm⟩

end VpnHide
