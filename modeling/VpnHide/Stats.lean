import VpnHide.Lookup

/-!
# Per-uid statistics (`kmod/main.c`)

The table of intercept counters, kept sorted by uid. Intercepts and java statistics update an entry or
insert one while there is room; a policy publish rebuilds the table for the uids of the new policy.
-/

namespace VpnHide

/-- The counters of `struct kmod_uid_stats_total`. -/
structure StatsCounters where
  ioctl : UInt64
  netlink : UInt64
  proc : UInt64
  sockopt : UInt64
  connect : UInt64
  getname : UInt64
  port : UInt64
  javaPm : UInt64
  javaUm : UInt64
  javaNc : UInt64
  javaNi : UInt64
  javaNet : UInt64
  javaLp : UInt64
  javaCs : UInt64
  deriving DecidableEq, Repr

def StatsCounters.zero : StatsCounters := ⟨0, 0, 0, 0, 0, 0, 0, 0, 0, 0, 0, 0, 0, 0⟩

/-- `struct kmod_uid_stats_total`. -/
structure UidStats where
  uid : UInt32
  counters : StatsCounters
  deriving DecidableEq, Repr

/-- `kmod_stats` with `kmod_stats_capacity`; `kmod_stats_count` is the length. -/
structure StatsTable where
  entries : List UidStats
  capacity : ℕ

def uidStatsCapacity : ℕ := 4096

def statsKey (e : UidStats) : ℕ := e.uid.toNat

/-- An entry as `memset` and the uid assignment leave it. -/
def UidStats.fresh (uid : UInt32) : UidStats := ⟨uid, .zero⟩

/-! ### Counting -/

/-- The chain of `type` tests in `record_kmod_intercept`. -/
def StatsCounters.bump (type : Int32) (c : StatsCounters) : StatsCounters :=
  if type = 0 then { c with ioctl := c.ioctl + 1 }
  else if type = 1 then { c with netlink := c.netlink + 1 }
  else if type = 2 then { c with proc := c.proc + 1 }
  else if type = 3 then { c with sockopt := c.sockopt + 1 }
  else if type = 4 then { c with connect := c.connect + 1 }
  else if type = 5 then { c with getname := c.getname + 1 }
  else if type = 6 then { c with port := c.port + 1 }
  else c

/-- The chain of `strcmp` tests in `vpnhide_kmod_record_java_stat`. -/
def StatsCounters.addJava (hook : String) (count : UInt64) (c : StatsCounters) : StatsCounters :=
  if hook = "PackageManager" then { c with javaPm := c.javaPm + count }
  else if hook = "UserManager" then { c with javaUm := c.javaUm + count }
  else if hook = "NetworkCapabilities" then { c with javaNc := c.javaNc + count }
  else if hook = "NetworkInfo" then { c with javaNi := c.javaNi + count }
  else if hook = "Network" then { c with javaNet := c.javaNet + count }
  else if hook = "LinkProperties" then { c with javaLp := c.javaLp + count }
  else if hook = "ConnectivityService" then { c with javaCs := c.javaCs + count }
  else c

def UidStats.count (f : StatsCounters → StatsCounters) (e : UidStats) : UidStats :=
  { e with counters := f e.counters }

/-- The part both recorders share: search, then update in place or, if allowed and there is room, shift
the tail with `memmove` and insert. The search never fails on a sorted table. -/
def upsertStats (t : StatsTable) (uid : UInt32) (mayInsert : Bool) (f : StatsCounters → StatsCounters) :
    StatsTable :=
  match search midOffset statsKey t.entries uid.toNat with
  | none => t
  | some (.found i) => { t with entries := t.entries.modify i (UidStats.count f) }
  | some (.absent lo) =>
    if mayInsert && t.entries.length < t.capacity then
      { t with entries := t.entries.take lo ++ (UidStats.fresh uid).count f :: t.entries.drop lo }
    else t

def recordKmodIntercept (t : StatsTable) (uid : UInt32) (type : Int32) : StatsTable :=
  if ¬ UidEligible uid then t else upsertStats t uid true (StatsCounters.bump type)

/-- `vpnhide_kmod_record_java_stat`: the eligibility test guards only the insertion. -/
def vpnhideKmodRecordJavaStat (t : StatsTable) (uid : UInt32) (hook : String) (count : UInt64) : StatsTable :=
  upsertStats t uid (decide (UidEligible uid)) (StatsCounters.addJava hook count)

/-- The table part of `VH_CLEAR_STATS`. -/
def clearStats (t : StatsTable) : StatsTable :=
  { t with entries := t.entries.map fun e => UidStats.fresh e.uid }

/-! ### Reconciling with a new policy -/

/-- One of the three tests that find the smallest head. -/
def takeNext (next : Option UInt32) (head : Option UInt32) : Option UInt32 :=
  match head with
  | none => next
  | some u => match next with
    | none => some u
    | some n => if u < n then some u else some n

/-- The merge loop, with `room` the free slots of the replacement and the lists what is left of the
three arrays. -/
def mergeUids : ℕ → List UInt32 → List UInt32 → List PortTargetV3 → List UInt32
  | 0, _, _, _ => []
  | room + 1, ks, ls, ps =>
    let ps := ps.dropWhile fun p => p.mode = portPolicyUnrestricted
    match [ks.head?, ls.head?, ps.head?.map (·.uid)].foldl takeNext none with
    | none => []
    | some next =>
      next :: mergeUids room (ks.dropWhile fun u => u = next) (ls.dropWhile fun u => u = next)
        (ps.dropWhile fun p => p.uid = next)

/-- The loop that carries counters over from the old table. -/
def carryStats : List UInt32 → List UidStats → List UidStats
  | [], _ => []
  | u :: us, old =>
    match old.dropWhile fun e => e.uid < u with
    | [] => UidStats.fresh u :: carryStats us []
    | e :: rest =>
      if e.uid = u then e :: carryStats us rest else UidStats.fresh u :: carryStats us (e :: rest)

/-- The loop that keeps old entries under an inverted policy. -/
def keepStats (s : PolicySnapshot) : ℕ → List UidStats → List UidStats
  | _, [] => []
  | 0, _ => []
  | room + 1, e :: rest =>
    if policyUidHasStats s e.uid then e :: keepStats s room rest else keepStats s (room + 1) rest

/-- The capacity `kmod_stats_reconcile` asks for. -/
def reconcileCapacity (s : PolicySnapshot) : ℕ :=
  let requested := s.kmodUids.length + s.lsposedUids.length + s.portTargets.length
  if policyHasInvertedStatsLayer s || requested > uidStatsCapacity then uidStatsCapacity else requested

/-- `kmod_stats_reconcile`; `kvmalloc` is the outcome of the one allocation. -/
def kmodStatsReconcile (kvmalloc : Bool) (s : PolicySnapshot) (t : StatsTable) : Except Errno StatsTable :=
  let capacity := reconcileCapacity s
  if capacity ≠ 0 ∧ !kvmalloc then .error .enomem
  else if policyHasInvertedStatsLayer s then .ok ⟨keepStats s capacity t.entries, capacity⟩
  else .ok ⟨carryStats (mergeUids capacity s.kmodUids s.lsposedUids s.portTargets) t.entries, capacity⟩

end VpnHide
