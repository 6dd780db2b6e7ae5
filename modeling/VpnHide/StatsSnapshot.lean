import VpnHide.StatsRead

/-!
# The first statistics ioctl (`VH_GET_STATS`)

The ioctl sizes its buffer by one look at the table and fills it after a second one. It copies out as many entries as
the second look found, but fills the buffer only if that many fit into it: a table that has grown in between is answered
with memory that the ioctl never wrote (`vhGetStats_faithful`). `VH_GET_STATS_V2` checks the size of its buffers once
more.
-/

namespace VpnHide

/-! ### The code -/

/-- The part of `struct vpnhide_stats_snapshot` that the caller fills in; the pointer matters only by being null. -/
structure SnapshotRequest where
  capacity : ℕ
  entries : Bool

/-- The part that the kernel fills in. -/
structure SnapshotReply where
  count : ℕ
  sequence : UInt64
  monotonicNs : UInt64
  deriving DecidableEq

/-- An entry of a buffer, or of the memory behind it; `none` is memory that the ioctl has not written. -/
abbrev Cell := Option UidStats

inductive SnapshotResult where
  /-- success, with the cells copied to the caller's array -/
  | ok (reply : SnapshotReply) (copied : List Cell)
  /-- `-ENOSPC` -/
  | noSpace (reply : SnapshotReply)
  | error (e : Errno)
  deriving DecidableEq

/-- What one call meets: which copies and allocations succeed, and what other threads do in front of its two locked
sections. -/
structure SnapshotEnv where
  copyIn : Bool
  beforePeek : List StatsOp
  alloc : Bool
  beforeFill : List StatsOp
  now : UInt64
  copyEntries : Bool
  copyOut : Bool

structure SnapshotCall where
  env : SnapshotEnv
  request : SnapshotRequest
  st : StatsKernel

section Sections
variable (hz : UInt64) (c : SnapshotCall)

/-- The kernel at the first section. -/
def SnapshotCall.peeked : StatsKernel := c.st.runs hz c.env.beforePeek

/-- The kernel at the second section. -/
def SnapshotCall.filled : StatsKernel := (c.peeked hz).runs hz (c.env.beforeFill ++ [.readUids])

def SnapshotCall.allocated : ℕ := min c.request.capacity (c.peeked hz).uidCount

end Sections

/-- The loop that writes the entries to the front of the buffer. -/
def fillFront (entries : List UidStats) (buffer : List Cell) : List Cell :=
  entries.map some ++ buffer.drop entries.length

/-- What `copy_to_user` reads, the memory behind the buffer included. -/
def readCells (buffer : List Cell) (count : ℕ) : List Cell := (List.range count).map fun i => buffer[i]?.join

/-- The buffer behind the second section: allocated without a lock, and filled if it is large enough. -/
def SnapshotCall.out (hz : UInt64) (c : SnapshotCall) : Option (List Cell) :=
  let out := if c.allocated hz ≠ 0 then some (List.replicate (c.allocated hz) none) else none
  if out.isSome ∧ c.request.capacity ≥ (c.filled hz).uidCount ∧ c.allocated hz ≥ (c.filled hz).uidCount then
    out.map (fillFront (c.filled hz).kernel.stats.entries)
  else out

/-- The `VH_GET_STATS` case of `handle_vpnhide_ioctl`. -/
def vhGetStats (hz : UInt64) (c : SnapshotCall) : SnapshotResult × StatsKernel :=
  if ¬ c.env.copyIn then (.error .efault, c.st)
  else if c.request.capacity ≠ 0 ∧ ¬ c.request.entries then (.error .einval, c.st)
  else if c.allocated hz ≠ 0 ∧ ¬ c.env.alloc then (.error .enomem, c.peeked hz)
  else
    let count := (c.filled hz).uidCount
    let reply : SnapshotReply := ⟨count, (c.filled hz).sequence, c.env.now⟩
    -- only the capacity decides whether there is enough space, not the size of the buffer
    if c.request.capacity < count then (if ¬ c.env.copyOut then .error .efault else .noSpace reply, c.filled hz)
    else if (c.out hz).isSome ∧ ¬ c.env.copyEntries then (.error .efault, c.filled hz)
    else if ¬ c.env.copyOut then (.error .efault, c.filled hz)
    else (.ok reply ((c.out hz).elim [] fun buffer => readCells buffer count), c.filled hz)

/-! ### What a call copies -/

/-- Nothing stands in the way of success: the copies and the allocation work, and the capacity is enough for the table
as the second section finds it. -/
structure SnapshotCall.Succeeds (hz : UInt64) (c : SnapshotCall) : Prop where
  copyIn : c.env.copyIn
  entries : c.request.capacity ≠ 0 → c.request.entries
  alloc : c.allocated hz ≠ 0 → c.env.alloc
  fits : (c.filled hz).uidCount ≤ c.request.capacity
  copyEntries : c.allocated hz ≠ 0 → c.env.copyEntries
  copyOut : c.env.copyOut

/-- What a call that succeeds leaves in the caller's array. -/
def SnapshotCall.copied (hz : UInt64) (c : SnapshotCall) : List Cell :=
  (c.out hz).elim [] fun buffer => readCells buffer (c.filled hz).uidCount

/-- A success says nothing that was not read from the table: as many cells as the reply counts, no more than were
allocated, each the entry of the table at the second section. -/
def SnapshotCall.Faithful (hz : UInt64) (c : SnapshotCall) : Prop :=
  ∀ reply copied st', vhGetStats hz c = (.ok reply copied, st') →
    copied.length ≤ c.allocated hz ∧ copied.length = reply.count ∧
      copied = (c.filled hz).kernel.stats.entries.map some

section Call
variable {hz : UInt64} {c : SnapshotCall}

theorem out_isSome : (c.out hz).isSome ↔ c.allocated hz ≠ 0 := by
  unfold SnapshotCall.out
  dsimp only
  by_cases hzero : c.allocated hz = 0
  · simp [hzero]
  · rw [if_pos hzero]
    split_ifs <;> simp [hzero]

theorem ite_eq_iff_of_ne {α : Type} {p : Prop} [Decidable p] {x y z : α} (h : y ≠ z) :
    (if p then y else x) = z ↔ ¬ p ∧ x = z := by
  by_cases hp : p
  · rw [if_pos hp]
    exact iff_of_false h fun hn => hn.1 hp
  · rw [if_neg hp, and_iff_right hp]

theorem vhGetStats_eq_ok {reply : SnapshotReply} {copied : List Cell} {st' : StatsKernel} :
    vhGetStats hz c = (.ok reply copied, st') ↔
      c.Succeeds hz ∧ reply = ⟨(c.filled hz).uidCount, (c.filled hz).sequence, c.env.now⟩ ∧ copied = c.copied hz ∧
        st' = c.filled hz := by
  have herror (e : Errno) (st : StatsKernel) : (SnapshotResult.error e, st) ≠ (.ok reply copied, st') := by
    intro h
    cases h
  have hshort : (if ¬ c.env.copyOut then SnapshotResult.error .efault
      else .noSpace ⟨(c.filled hz).uidCount, (c.filled hz).sequence, c.env.now⟩, c.filled hz) ≠
        (.ok reply copied, st') := by
    split_ifs <;>
    · intro h
      cases h
  unfold vhGetStats
  rw [ite_eq_iff_of_ne (herror _ _), ite_eq_iff_of_ne (herror _ _), ite_eq_iff_of_ne (herror _ _)]
  dsimp only
  rw [ite_eq_iff_of_ne hshort, ite_eq_iff_of_ne (herror _ _), ite_eq_iff_of_ne (herror _ _), not_not, not_and_not_right,
    not_and_not_right, Nat.not_lt, not_and_not_right, not_not, out_isSome]
  constructor
  · rintro ⟨hin, hentries, halloc, hfits, hcopy, hout, h⟩
    cases h
    exact ⟨⟨hin, hentries, halloc, hfits, hcopy, hout⟩, rfl, rfl, rfl⟩
  · rintro ⟨hs, rfl, rfl, rfl⟩
    exact ⟨hs.copyIn, hs.entries, hs.alloc, hs.fits, hs.copyEntries, hs.copyOut, rfl⟩

theorem length_readCells (buffer : List Cell) (count : ℕ) : (readCells buffer count).length = count := by
  rw [readCells, List.length_map, List.length_range]

theorem readCells_fillFront (entries : List UidStats) (buffer : List Cell) :
    readCells (fillFront entries buffer) entries.length = entries.map some := by
  refine List.ext_getElem ?_ fun i hi hi' => ?_
  · rw [length_readCells, List.length_map]
  · simp only [readCells, fillFront, List.getElem_map, List.getElem_range]
    rw [List.getElem?_append_left hi', List.getElem?_eq_getElem hi', List.getElem_map]
    rfl

theorem copied_eq_entries (h : (c.filled hz).uidCount ≤ c.request.capacity)
    (hroom : (c.filled hz).uidCount ≤ c.allocated hz) : c.copied hz = (c.filled hz).kernel.stats.entries.map some := by
  unfold SnapshotCall.copied SnapshotCall.out
  dsimp only
  by_cases hzero : c.allocated hz = 0
  · have hempty : (c.filled hz).kernel.stats.entries = [] := List.length_eq_zero_iff.1 (Nat.le_zero.1 (hzero ▸ hroom))
    simp [hzero, hempty]
  · rw [if_pos hzero, if_pos ⟨rfl, h, hroom⟩]
    exact readCells_fillFront ..

theorem copied_faithful_iff (h : (c.filled hz).uidCount ≤ c.request.capacity) :
    ((c.copied hz).length ≤ c.allocated hz ∧ (c.copied hz).length = (c.filled hz).uidCount ∧
      c.copied hz = (c.filled hz).kernel.stats.entries.map some) ↔ (c.filled hz).uidCount ≤ (c.peeked hz).uidCount := by
  have hmin : c.allocated hz = min c.request.capacity (c.peeked hz).uidCount := rfl
  constructor
  · rintro ⟨hle, heq, -⟩
    omega
  · intro hgrown
    have hroom : (c.filled hz).uidCount ≤ c.allocated hz := by omega
    rw [copied_eq_entries h hroom, List.length_map]
    exact ⟨hroom, rfl, rfl⟩

end Call

theorem vhGetStats_faithful (hz : UInt64) (c : SnapshotCall) :
    c.Faithful hz ↔ (c.Succeeds hz → (c.filled hz).uidCount ≤ (c.peeked hz).uidCount) := by
  constructor
  · intro h hs
    exact (copied_faithful_iff hs.fits).1 (h _ _ _ (vhGetStats_eq_ok.2 ⟨hs, rfl, rfl, rfl⟩))
  · intro h reply copied st' heq
    obtain ⟨hs, rfl, rfl, -⟩ := vhGetStats_eq_ok.1 heq
    exact (copied_faithful_iff hs.fits).2 (h hs)

/-- The table under the sample policy, and a caller with room for one entry more than it has. -/
def grownCall : SnapshotCall where
  env := {
    copyIn := true
    beforePeek := [.setPolicy ⟨true, true, true, true⟩ true (some sampleRequest)]
    alloc := true
    -- between the sections a Java report takes a slot of its own
    beforeFill := [.javaStat 10050 "PackageManager" 3]
    now := 0
    copyEntries := true
    copyOut := true }
  request := ⟨3, true⟩
  st := .init

theorem grownCall_succeeds : grownCall.Succeeds 250 where
  copyIn := rfl
  entries _ := rfl
  alloc _ := rfl
  fits := by decide +kernel
  copyEntries _ := rfl
  copyOut := rfl

/-- Three entries are copied out of a buffer of two, and none of them was written. -/
theorem vhGetStats_leaks :
    ∃ reply st', vhGetStats 250 grownCall = (.ok reply [none, none, none], st') ∧ reply.count = 3 ∧
      grownCall.allocated 250 = 2 ∧ ¬ grownCall.Faithful 250 := by
  have hcopied : [none, none, none] = grownCall.copied 250 := by decide +kernel
  have hcount : (grownCall.filled 250).uidCount = 3 := by decide +kernel
  have hallocated : grownCall.allocated 250 = 2 := by decide +kernel
  have hcall := vhGetStats_eq_ok.2 ⟨grownCall_succeeds, rfl, hcopied, rfl⟩
  refine ⟨_, _, hcall, hcount, hallocated, fun h => ?_⟩
  have hle : 3 ≤ grownCall.allocated 250 := (h _ _ _ hcall).1
  rw [hallocated] at hle
  exact absurd hle (by decide)

end VpnHide
