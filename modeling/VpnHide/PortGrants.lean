import VpnHide.Kernel
import VpnHide.Connect
import VpnHide.OwnedTable
import VpnHide.Lib.Transition

/-!
# Who may use a port (`vpnhide_record_bound_socket`, `VH_SET_OWNED_PORTS`)

A uid owns a port because the daemon has reported it within the last 120 seconds or because the kernel has
seen the bind within the last two, and a policy publish forgets both. The state of the system below carries
that history along: the update in force and the binds recorded since the last publish, each with its time.
Whatever the run, the kernel grants a port exactly as the history says (`ownedPorts_grants`).
-/

namespace VpnHide
open TxnM

/-! ### Recording a bind -/

/-- The fields of `struct sock` that are read here. -/
structure BoundSock where
  skType : UInt16
  skFamily : UInt16
  inetNum : UInt16
  inetRcvSaddr : UInt32
  skV6RcvSaddr : Address

def sockDgram : UInt16 := 2

/-- The endpoint `owned_port_from_sock` reads off a socket, before its last check. -/
def sockEndpoint (uid : UInt32) (sk : BoundSock) : Option OwnedPort :=
  if sk.skType ≠ sockStream ∧ sk.skType ≠ sockDgram then none
  else if sk.inetNum = 0 then none
  else if sk.skFamily = afInet.toUInt16 then
    some ⟨uid, sk.inetNum, sockProto sk.skType, afInet, v4Address sk.inetRcvSaddr⟩
  else if sk.skFamily = afInet6.toUInt16 then
    if ipv6AddrV4mapped sk.skV6RcvSaddr then
      some ⟨uid, sk.inetNum, sockProto sk.skType, afInet, v4Address (sk.skV6RcvSaddr.word 3)⟩
    else some ⟨uid, sk.inetNum, sockProto sk.skType, afInet6, sk.skV6RcvSaddr⟩
  else none

/-- `owned_port_from_sock`: the owner, where it returns true. -/
def ownedPortFromSock (uid : UInt32) (sk : Option BoundSock) : Option OwnedPort :=
  match sk with
  | none => none
  | some sk => (sockEndpoint uid sk).filter ownedPortIsLocal

/-- The loop that selects a way, from `way` on. -/
def selectWay (owner : OwnedPort) (now : UInt64) : List PendingPort → ℕ → ℕ → UInt64 → ℕ
  | [], _, selected, _ => selected
  | entry :: rest, way, selected, oldest =>
    if ownedPortEqual entry.owner owner ∨ entry.owner.uid = 0 ∨ timeAfterEq now entry.expires then way
    else if timeBefore entry.expires oldest then selectWay owner now rest (way + 1) way entry.expires
    else selectWay owner now rest (way + 1) selected oldest

/-- The part of `vpnhide_record_bound_socket` under the lock, and whether it goes on to notify the daemon. -/
def recordPending (hz now : UInt64) (owner : OwnedPort) (pending : PendingPorts) : PendingPorts × Bool :=
  let set := (ownedPortHash owner &&& (UInt32.ofNat pendingPortSets - 1)).toNat
  match pending[set]? with
  | none => (pending, false)
  | some ways =>
    let selected := selectWay owner now ways.toList 0 0 (ways.get ⟨0, by decide⟩).expires
    match ways[selected]? with
    | none => (pending, false)
    | some entry =>
      let changed := !ownedPortEqual entry.owner owner || timeAfterEq now entry.expires
      let written : PendingPort := ⟨entry.sequence + 1 + 1, owner, now + 2 * hz⟩
      (pending.setIfInBounds set (ways.setIfInBounds selected written), changed)

/-- The owner a successful bind or listen is recorded under, if it is recorded. -/
def boundOwner (policy : Option PolicySnapshot) (uid : UInt32) (sk : Option BoundSock) : Option OwnedPort :=
  if uid = 0 then none
  else match ownedPortFromSock uid sk with
    | none => none
    | some owner => if (vpnhideFindPortTarget policy uid).isSome then some owner else none

def vpnhideRecordBoundSocket (hz now : UInt64) (policy : Option PolicySnapshot) (uid : UInt32) (sk : Option BoundSock)
    (pending : PendingPorts) : PendingPorts × Bool :=
  match boundOwner policy uid sk with
  | none => (pending, false)
  | some owner => recordPending hz now owner pending

/-! ### Replacing the daemon's set -/

def replaceOwnedPorts (alloc : OwnedAllocs) (hz jiffies : UInt64) (update : OwnedPortsUpdate) : KernelM Unit := do
  let snapshot ← attempt (buildOwnedPorts alloc hz jiffies update)
  TxnM.update fun k => { k with ownedPorts := some snapshot }

/-- The `VH_SET_OWNED_PORTS` case of `handle_vpnhide_ioctl`; `request` is `none` when it cannot be copied. -/
def vhSetOwnedPorts (alloc : OwnedAllocs) (hz jiffies : UInt64) (capable : Bool)
    (request : Option OwnedPortsUpdate) : KernelM Unit := do
  attempt (rejectIf (!capable) .eperm)
  match request with
  | none => attempt (.error .efault)
  | some update => replaceOwnedPorts alloc hz jiffies update

theorem vhSetOwnedPorts_atomic (alloc : OwnedAllocs) (hz jiffies : UInt64) (capable : Bool)
    (request : Option OwnedPortsUpdate) : Atomic (vhSetOwnedPorts alloc hz jiffies capable request) := by
  refine Atomic.readOnly_bind (readOnly_attempt _) fun _ => ?_
  cases request with
  | none => exact fun _ _ _ => rfl
  | some update => exact Atomic.readOnly_bind (readOnly_attempt _) fun _ => (total_update _).atomic

theorem vhSetOwnedPorts_eq_ok {alloc : OwnedAllocs} {hz jiffies : UInt64} {capable : Bool}
    {request : Option OwnedPortsUpdate} {k k' : KernelState} :
    exec (vhSetOwnedPorts alloc hz jiffies capable request) k = (.ok (), k') ↔
      capable = true ∧ ∃ update snapshot, request = some update ∧
        buildOwnedPorts alloc hz jiffies update = .ok snapshot ∧ { k with ownedPorts := some snapshot } = k' := by
  simp only [vhSetOwnedPorts, exec_attempt_bind_eq_ok, rejectIf_eq_ok, exists_const, Bool.not_eq_true',
    Bool.not_eq_false]
  refine and_congr_right fun _ => ?_
  cases request with
  | none =>
    refine ⟨fun h => ?_, fun ⟨_, _, h, _⟩ => by cases h⟩
    cases congrArg Prod.fst h
  | some update =>
    simp only [replaceOwnedPorts, exec_attempt_bind_eq_ok]
    constructor
    · rintro ⟨snapshot, hbuild, hk⟩
      exact ⟨update, snapshot, rfl, hbuild, congrArg Prod.snd hk⟩
    · rintro ⟨_, snapshot, hrequest, hbuild, rfl⟩
      cases hrequest
      exact ⟨snapshot, hbuild, rfl⟩

/-! ### The system -/

/-- The kernel, the tick count, the update in force and the binds recorded since the last publish. -/
structure GrantState where
  kernel : KernelState
  now : ℕ
  update : Option (ℕ × List OwnedPort)
  binds : List (ℕ × OwnedPort)

inductive GrantOp where
  | update (alloc : OwnedAllocs) (capable : Bool) (request : Option OwnedPortsUpdate)
  | bind (uid : UInt32) (sk : Option BoundSock)
  | publish (alloc : AllocOutcomes) (capable : Bool) (request : Option PolicyIoctl)
  | tick (ticks : ℕ)

namespace GrantState
variable (hz : ℕ) (st : GrantState)

def jiffies : UInt64 := UInt64.ofNat st.now

/-- The entries of an accepted request. -/
def entriesOf (alloc : OwnedAllocs) (request : Option OwnedPortsUpdate) : List OwnedPort :=
  match request with
  | none => []
  | some update => (readOwnedEntries alloc.entries update).toOption.getD []

def step (op : GrantOp) : GrantState :=
  match op with
  | .update alloc capable request =>
    let run := exec (vhSetOwnedPorts alloc (.ofNat hz) st.jiffies capable request) st.kernel
    { st with
      kernel := run.2
      update := if run.1.toBool then some (st.now, entriesOf alloc request) else st.update }
  | .bind uid sk =>
    let pending := (vpnhideRecordBoundSocket (.ofNat hz) st.jiffies st.kernel.policy uid sk st.kernel.pendingPorts).1
    { st with
      kernel := { st.kernel with pendingPorts := pending }
      binds := ((boundOwner st.kernel.policy uid sk).toList.map fun owner => (st.now, owner)) ++ st.binds }
  | .publish alloc capable request =>
    let run := exec (vhSetPolicy alloc capable request) st.kernel
    if run.1.toBool then ⟨run.2, st.now, none, []⟩ else { st with kernel := run.2 }
  | .tick ticks => { st with now := st.now + ticks }

end GrantState

/-- Runs in which the 64-bit tick counter and the times computed from it stay below `2 ^ 63`; at a thousand
ticks a second that is some hundred million years. -/
def grantSystem (hz : ℕ) : System GrantState GrantOp where
  init st := st.kernel = .init ∧ st.update = none ∧ st.binds = [] ∧ st.now + 120 * hz < 2 ^ 63
  step st op st' := st' = st.step hz op ∧ st'.now + 120 * hz < 2 ^ 63

/-! ### Times -/

section Times
variable {a b : ℕ}

theorem toInt_ofNat_sub (ha : a < 2 ^ 63) (hb : b < 2 ^ 63) :
    (UInt64.ofNat a - UInt64.ofNat b).toInt64.toInt = (a : ℤ) - b := by
  rw [UInt64.toInt64_sub, UInt64.toInt64_ofNat', UInt64.toInt64_ofNat', Int64.toInt_sub,
    Int64.toInt_ofNat_of_lt ha, Int64.toInt_ofNat_of_lt hb]
  exact Int.bmod_eq_of_le (by omega) (by omega)

theorem timeAfterEq_ofNat (ha : a < 2 ^ 63) (hb : b < 2 ^ 63) : timeAfterEq (.ofNat a) (.ofNat b) ↔ b ≤ a := by
  rw [timeAfterEq, decide_eq_true_eq, ge_iff_le, Int64.le_iff_toInt_le, toInt_ofNat_sub ha hb, Int64.toInt_zero]
  omega

theorem timeBefore_ofNat (ha : a < 2 ^ 63) (hb : b < 2 ^ 63) : timeBefore (.ofNat a) (.ofNat b) ↔ a < b := by
  rw [timeBefore, decide_eq_true_eq, Int64.lt_iff_toInt_lt, toInt_ofNat_sub ha hb, Int64.toInt_zero]
  omega

theorem ofNat_add_mul (now n hz : ℕ) : UInt64.ofNat now + UInt64.ofNat n * UInt64.ofNat hz = .ofNat (now + n * hz) := by
  rw [UInt64.ofNat_add, UInt64.ofNat_mul]

end Times

/-! ### Recorded binds -/

/-- Every slot of the cache is unused or holds a bind of the history. -/
def PendingFrom (hz : ℕ) (binds : List (ℕ × OwnedPort)) (pending : PendingPorts) : Prop :=
  ∀ ways ∈ pending.toList, ∀ entry ∈ ways.toList, entry.owner = OwnedPort.zero ∨
    ∃ t, (t, entry.owner) ∈ binds ∧ entry.expires = .ofNat (t + 2 * hz)

theorem PendingFrom.zero (hz : ℕ) : PendingFrom hz [] pendingPortsZero := by
  intro ways hways entry hentry
  rw [pendingPortsZero, Vector.toList_replicate] at hways
  rw [List.eq_of_mem_replicate hways, Vector.toList_replicate] at hentry
  exact .inl (by rw [List.eq_of_mem_replicate hentry])

theorem PendingFrom.mono {hz : ℕ} {binds binds' : List (ℕ × OwnedPort)} {pending : PendingPorts}
    (h : PendingFrom hz binds pending) (hsub : ∀ b ∈ binds, b ∈ binds') : PendingFrom hz binds' pending :=
  fun ways hways entry hentry => (h ways hways entry hentry).imp id fun ⟨t, ht, he⟩ => ⟨t, hsub _ ht, he⟩

theorem PendingFrom.record {hz now : ℕ} {binds : List (ℕ × OwnedPort)} {pending : PendingPorts}
    (h : PendingFrom hz binds pending) (owner : OwnedPort) :
    PendingFrom hz ((now, owner) :: binds) (recordPending (.ofNat hz) (.ofNat now) owner pending).1 := by
  have hold : PendingFrom hz ((now, owner) :: binds) pending := h.mono fun b hb => .tail _ hb
  unfold recordPending
  dsimp only
  split
  · exact hold
  · rename_i ways hways
    split
    · exact hold
    · intro ways' hways' entry' hentry'
      rw [Vector.toList_setIfInBounds] at hways'
      rcases List.mem_or_eq_of_mem_set hways' with hmem | rfl
      · exact hold ways' hmem entry' hentry'
      rw [Vector.toList_setIfInBounds] at hentry'
      rcases List.mem_or_eq_of_mem_set hentry' with hmem | rfl
      · exact hold ways (Vector.mem_toList_iff.2 (Vector.mem_of_getElem? hways)) entry' hmem
      · exact .inr ⟨now, .head _, ofNat_add_mul now 2 hz⟩

theorem PendingFrom.lookup {hz now : ℕ} {binds : List (ℕ × OwnedPort)} {pending : PendingPorts} {wanted : OwnedPort}
    (h : PendingFrom hz binds pending) (hwanted : wanted ≠ OwnedPort.zero)
    (hfound : pendingPortLookupOne pending (.ofNat now) wanted = true) :
    ∃ t, (t, wanted) ∈ binds ∧ timeBefore (.ofNat now) (.ofNat (t + 2 * hz)) := by
  unfold pendingPortLookupOne at hfound
  dsimp only at hfound
  split at hfound
  · cases hfound
  · rename_i ways hways
    obtain ⟨entry, hentry, hmatch⟩ := List.any_eq_true.1 hfound
    rw [Bool.and_eq_true, Bool.and_eq_true] at hmatch
    obtain ⟨⟨-, hequal⟩, htime⟩ := hmatch
    obtain rfl : entry.owner = wanted := beq_iff_eq.1 hequal
    rcases h ways (Vector.mem_toList_iff.2 (Vector.mem_of_getElem? hways)) entry hentry with hzero | ⟨t, ht, hexp⟩
    · exact absurd hzero hwanted
    · exact ⟨t, ht, hexp ▸ htime⟩

/-! ### The invariant -/

/-- The installed table is that of the update in force. -/
def OwnedFrom (hz : ℕ) (update : Option (ℕ × List OwnedPort)) (owned : Option OwnedPortsSnapshot) : Prop :=
  match update with
  | none => owned = none
  | some (t, entries) => ∃ snapshot, owned = some snapshot ∧ snapshot.buckets.length ≠ 0 ∧
      snapshot.expires = .ofNat (t + 120 * hz) ∧ ∀ x, ownedSnapshotContains snapshot x ↔ x ∈ entries

structure GrantInv (hz : ℕ) (st : GrantState) : Prop where
  clock : st.now + 120 * hz < 2 ^ 63
  owned : OwnedFrom hz st.update st.kernel.ownedPorts
  updated : ∀ u ∈ st.update, u.1 ≤ st.now
  pending : PendingFrom hz st.binds st.kernel.pendingPorts
  bound : ∀ b ∈ st.binds, b.1 ≤ st.now

theorem OwnedFrom.build {hz now : ℕ} {alloc : OwnedAllocs} {update : OwnedPortsUpdate} {snapshot : OwnedPortsSnapshot}
    (h : buildOwnedPorts alloc (.ofNat hz) (.ofNat now) update = .ok snapshot) :
    OwnedFrom hz (some (now, GrantState.entriesOf alloc (some update))) (some snapshot) := by
  obtain ⟨entries, hread, -, ⟨m, hlen, -⟩, -, hcontains, hexpires⟩ := buildOwnedPorts_contains h
  have hentries : GrantState.entriesOf alloc (some update) = entries := by
    rw [GrantState.entriesOf, hread]
    rfl
  rw [hentries]
  refine ⟨snapshot, rfl, ?_, hexpires.trans (ofNat_add_mul now 120 hz), hcontains⟩
  rw [hlen]
  exact (Nat.two_pow_pos m).ne'

namespace GrantInv
variable {hz : ℕ} {st : GrantState}

theorem update (h : GrantInv hz st) (alloc : OwnedAllocs) (capable : Bool) (request : Option OwnedPortsUpdate) :
    GrantInv hz (st.step hz (.update alloc capable request)) := by
  rcases hrun : exec (vhSetOwnedPorts alloc (.ofNat hz) st.jiffies capable request) st.kernel with ⟨e | _, k'⟩
  · have hsame := vhSetOwnedPorts_atomic alloc (.ofNat hz) st.jiffies capable request st.kernel e
    rw [hrun] at hsame
    obtain rfl : k' = st.kernel := hsame rfl
    simp only [GrantState.step, hrun]
    exact h
  · obtain ⟨-, update, snapshot, rfl, hbuild, rfl⟩ := vhSetOwnedPorts_eq_ok.1 hrun
    simp only [GrantState.step, hrun]
    refine ⟨h.clock, OwnedFrom.build hbuild, ?_, h.pending, h.bound⟩
    intro u hu
    cases hu
    exact Nat.le_refl _

theorem bind (h : GrantInv hz st) (uid : UInt32) (sk : Option BoundSock) : GrantInv hz (st.step hz (.bind uid sk)) := by
  cases howner : boundOwner st.kernel.policy uid sk with
  | none =>
    simp only [GrantState.step, vpnhideRecordBoundSocket, howner]
    exact h
  | some owner =>
    simp only [GrantState.step, vpnhideRecordBoundSocket, howner]
    refine ⟨h.clock, h.owned, h.updated, h.pending.record owner, ?_⟩
    intro b hb
    rcases List.mem_cons.1 hb with rfl | hb
    · exact Nat.le_refl _
    · exact h.bound b hb

theorem publish (h : GrantInv hz st) (alloc : AllocOutcomes) (capable : Bool) (request : Option PolicyIoctl) :
    GrantInv hz (st.step hz (.publish alloc capable request)) := by
  rcases hrun : exec (vhSetPolicy alloc capable request) st.kernel with ⟨e | _, k'⟩
  · have hsame := vhSetPolicy_atomic alloc capable request st.kernel e
    rw [hrun] at hsame
    obtain rfl : k' = st.kernel := hsame rfl
    simp only [GrantState.step, hrun]
    exact h
  · obtain ⟨_, _, s, stats, -, -, -, -, rfl⟩ := vhSetPolicy_eq_ok.1 hrun
    simp only [GrantState.step, hrun]
    exact ⟨h.clock, rfl, nofun, .zero hz, nofun⟩

theorem tick (h : GrantInv hz st) {ticks : ℕ} (hclock : st.now + ticks + 120 * hz < 2 ^ 63) :
    GrantInv hz (st.step hz (.tick ticks)) :=
  ⟨hclock, h.owned, fun u hu => Nat.le_add_right_of_le (h.updated u hu), h.pending,
    fun b hb => Nat.le_add_right_of_le (h.bound b hb)⟩

theorem step (h : GrantInv hz st) (op : GrantOp) (hclock : (st.step hz op).now + 120 * hz < 2 ^ 63) :
    GrantInv hz (st.step hz op) := by
  cases op with
  | update alloc capable request => exact h.update alloc capable request
  | bind uid sk => exact h.bind uid sk
  | publish alloc capable request => exact h.publish alloc capable request
  | tick ticks => exact h.tick hclock

theorem of_init (h : (grantSystem hz).init st) : GrantInv hz st := by
  obtain ⟨_, now, _, _⟩ := st
  obtain ⟨rfl, rfl, rfl, hclock⟩ := h
  exact ⟨hclock, rfl, nofun, .zero hz, nofun⟩

theorem of_reachable (h : (grantSystem hz).Reachable st) : GrantInv hz st := by
  refine h.invariant (P := GrantInv hz) (fun _ => of_init) ?_
  rintro st op _ hst ⟨rfl, hclock⟩
  exact hst.step op hclock

end GrantInv

/-! ### The answer -/

/-- The owner has this uid, port, protocol and family, and this address or none. -/
def OwnedPort.Grants (owner : OwnedPort) (uid : UInt32) (port : UInt16) (protocol family : UInt8) (address : Address) :
    Prop :=
  owner.uid = uid ∧ owner.port = port ∧ owner.protocol = protocol ∧ owner.family = family ∧
    (owner.address = address ∨ owner.address = Vector.replicate 4 0)

section Answer
variable {uid : UInt32} {port : UInt16} {protocol family : UInt8} {address : Address}

theorem OwnedPort.grants_iff {owner : OwnedPort} : owner.Grants uid port protocol family address ↔
    owner = ⟨uid, port, protocol, family, address⟩ ∨ owner = ⟨uid, port, protocol, family, Vector.replicate 4 0⟩ := by
  obtain ⟨u, p, pr, f, a⟩ := owner
  simp only [OwnedPort.Grants, OwnedPort.mk.injEq]
  tauto

/-- Asking for the address and, if it is another one, for the wildcard asks all owners that grant the port. -/
theorem exists_grants_iff (p : OwnedPort → Bool) :
    (p ⟨uid, port, protocol, family, address⟩ || (decide (address ≠ Vector.replicate 4 0) &&
      p ⟨uid, port, protocol, family, Vector.replicate 4 0⟩)) = true ↔
      ∃ owner : OwnedPort, owner.Grants uid port protocol family address ∧ p owner := by
  simp only [OwnedPort.grants_iff, Bool.or_eq_true, Bool.and_eq_true, decide_eq_true_eq]
  constructor
  · rintro (h | ⟨-, h⟩)
    · exact ⟨_, .inl rfl, h⟩
    · exact ⟨_, .inr rfl, h⟩
  · rintro ⟨_, rfl | rfl, h⟩
    · exact .inl h
    · by_cases haddr : address = Vector.replicate 4 0
      · exact .inl (haddr ▸ h)
      · exact .inr ⟨haddr, h⟩

theorem vpnhideUidOwnsPort_iff (own : PortOwnership) :
    vpnhideUidOwnsPort own uid port protocol family address ↔
      ownedPortIsLocal ⟨uid, port, protocol, family, address⟩ ∧ ∃ owner : OwnedPort,
        owner.Grants uid port protocol family address ∧
        ((∃ snapshot, own.owned = some snapshot ∧ snapshot.buckets.length ≠ 0 ∧
            ¬ timeAfterEq own.jiffies snapshot.expires ∧ ownedSnapshotContains snapshot owner) ∨
          pendingPortLookupOne own.pending own.jiffies owner) := by
  unfold vpnhideUidOwnsPort
  by_cases hlocal : ownedPortIsLocal ⟨uid, port, protocol, family, address⟩
  swap
  · simp [hlocal]
  simp only [hlocal, Bool.not_true, Bool.false_eq_true, if_false, true_and]
  rw [Bool.or_assoc, Bool.or_eq_true, exists_grants_iff (pendingPortLookupOne own.pending own.jiffies)]
  simp only [and_or_left, exists_or]
  refine or_congr ?_ Iff.rfl
  cases own.owned with
  | none => simp
  | some snapshot =>
    by_cases hdead : snapshot.buckets.length = 0 ∨ timeAfterEq own.jiffies snapshot.expires
    · simp only [if_pos hdead, Bool.false_eq_true, Option.some.injEq, false_iff, not_exists, not_and]
      rintro owner - _ rfl hlen htime
      exact absurd hdead (not_or.2 ⟨hlen, htime⟩)
    · simp only [if_neg hdead]
      rw [exists_grants_iff (ownedSnapshotContains snapshot)]
      rw [not_or] at hdead
      refine exists_congr fun owner => and_congr_right fun _ => ⟨fun h => ⟨snapshot, rfl, hdead.1, hdead.2, h⟩, ?_⟩
      rintro ⟨_, hs, -, -, h⟩
      cases hs
      exact h

end Answer

/-- An entry of the update in force, not yet expired, grants the port. -/
def GrantState.Reported (hz : ℕ) (st : GrantState) (uid : UInt32) (port : UInt16) (protocol family : UInt8)
    (address : Address) : Prop :=
  ∃ t entries, st.update = some (t, entries) ∧ st.now < t + 120 * hz ∧
    ∃ owner ∈ entries, owner.Grants uid port protocol family address

/-- A bind or listen recorded less than two seconds ago, after the last publish, grants the port. -/
def GrantState.RecentlyBound (hz : ℕ) (st : GrantState) (uid : UInt32) (port : UInt16) (protocol family : UInt8)
    (address : Address) : Prop :=
  ∃ t owner, (t, owner) ∈ st.binds ∧ st.now < t + 2 * hz ∧ owner.Grants uid port protocol family address

/-- What the kernel answers in a state. -/
def GrantState.owns (st : GrantState) (uid : UInt32) (port : UInt16) (protocol family : UInt8) (address : Address) :
    Bool :=
  vpnhideUidOwnsPort ⟨st.kernel.ownedPorts, st.kernel.pendingPorts, st.jiffies⟩ uid port protocol family address

namespace GrantInv
variable {hz : ℕ} {st : GrantState} {uid : UInt32} {port : UInt16} {protocol family : UInt8} {address : Address}

theorem live_iff (h : GrantInv hz st) {t : ℕ} (ht : t ≤ st.now) :
    ¬ timeAfterEq st.jiffies (.ofNat (t + 120 * hz)) ↔ st.now < t + 120 * hz := by
  have := h.clock
  rw [GrantState.jiffies, timeAfterEq_ofNat (by omega) (by omega), Nat.not_le]

theorem sound (h : GrantInv hz st) (howns : st.owns uid port protocol family address) :
    st.Reported hz uid port protocol family address ∨ st.RecentlyBound hz uid port protocol family address := by
  rcases (vpnhideUidOwnsPort_iff _).1 howns with
    ⟨hlocal, owner, hgrants, ⟨snapshot, howned, -, hlive, hcontains⟩ | hfound⟩
  · left
    have hfrom := h.owned
    cases hupdate : st.update with
    | none =>
      rw [hupdate] at hfrom
      cases howned.symm.trans hfrom
    | some u =>
      obtain ⟨t, entries⟩ := u
      rw [hupdate] at hfrom
      obtain ⟨snapshot', howned', -, hexpires, hmem⟩ := hfrom
      obtain rfl := Option.some.inj (howned.symm.trans howned')
      rw [hexpires, h.live_iff (h.updated _ hupdate)] at hlive
      exact ⟨t, entries, hupdate, hlive, owner, (hmem owner).1 hcontains, hgrants⟩
  · right
    have hzero : owner ≠ OwnedPort.zero := by
      rintro rfl
      have hfamily : family = 0 := hgrants.2.2.2.1.symm
      rcases (ownedPortIsLocal_iff _).1 hlocal with ⟨h4, -⟩ | ⟨h6, -⟩
      · exact absurd (hfamily.symm.trans h4) (by decide)
      · exact absurd (hfamily.symm.trans h6) (by decide)
    obtain ⟨t, ht, htime⟩ := h.pending.lookup hzero hfound
    have hclock := h.clock
    have hle := h.bound _ ht
    rw [timeBefore_ofNat (by omega) (by dsimp only at hle; omega)] at htime
    exact ⟨t, owner, ht, htime, hgrants⟩

theorem complete (h : GrantInv hz st) (hlocal : LocalAddress family address)
    (hreported : st.Reported hz uid port protocol family address) : st.owns uid port protocol family address := by
  obtain ⟨t, entries, hupdate, hlive, owner, hmem, hgrants⟩ := hreported
  have hfrom := h.owned
  rw [hupdate] at hfrom
  obtain ⟨snapshot, howned, hlen, hexpires, hcontains⟩ := hfrom
  refine (vpnhideUidOwnsPort_iff _).2 ⟨(ownedPortIsLocal_iff _).2 hlocal, owner, hgrants,
    .inl ⟨snapshot, howned, hlen, ?_, (hcontains owner).2 hmem⟩⟩
  rw [hexpires]
  exact (h.live_iff (h.updated _ hupdate)).2 hlive

end GrantInv

/-- Own-port grants in every state of every run: a grant comes from an unexpired entry of the update in force
or from a recent bind, and every unexpired entry is granted for a local address. An update that fails changes
nothing; one that succeeds installs a table with a power of two of buckets, at least twice as many as entries,
that holds every entry and in which a lookup finds exactly the entries. -/
theorem ownedPorts_grants (hz : ℕ) {st : GrantState} (h : (grantSystem hz).Reachable st) :
    (∀ uid port protocol family address,
      (st.owns uid port protocol family address → st.Reported hz uid port protocol family address ∨
        st.RecentlyBound hz uid port protocol family address) ∧
      (st.Reported hz uid port protocol family address → LocalAddress family address →
        st.owns uid port protocol family address)) ∧
    ∀ (alloc : OwnedAllocs) (hz jiffies : UInt64) (capable : Bool) (request : Option OwnedPortsUpdate)
      (k k' : KernelState) (result : Except Errno Unit),
      exec (vhSetOwnedPorts alloc hz jiffies capable request) k = (result, k') →
      (result ≠ .ok () → k' = k) ∧
      (result = .ok () → ∃ update entries snapshot m, request = some update ∧
        readOwnedEntries alloc.entries update = .ok entries ∧ k' = { k with ownedPorts := some snapshot } ∧
        snapshot.buckets.length = 2 ^ m ∧ 2 * entries.length ≤ 2 ^ m ∧ (∀ e ∈ entries, e ∈ snapshot.buckets) ∧
        ∀ x, ownedSnapshotContains snapshot x ↔ x ∈ entries) := by
  have hinv := GrantInv.of_reachable h
  refine ⟨fun uid port protocol family address => ⟨hinv.sound, fun hreported hlocal => hinv.complete hlocal hreported⟩,
    ?_⟩
  intro alloc hz jiffies capable request k k' result hrun
  refine ⟨fun hne => ?_, ?_⟩
  · rcases result with e | _
    · have hatomic := vhSetOwnedPorts_atomic alloc hz jiffies capable request k e
      rw [hrun] at hatomic
      exact hatomic rfl
    · exact absurd rfl hne
  · rintro rfl
    obtain ⟨-, update, snapshot, rfl, hbuild, rfl⟩ := vhSetOwnedPorts_eq_ok.1 hrun
    obtain ⟨entries, hread, -, ⟨m, hlen, hsize⟩, hstored, hcontains, -⟩ := buildOwnedPorts_contains hbuild
    exact ⟨update, entries, snapshot, m, rfl, hread, rfl, hlen, hsize, hstored, hcontains⟩

/-- A server of one app, bound to every local address. -/
def sampleOwner : OwnedPort := ⟨10123, 8080, protoTcp, afInet, Vector.replicate 4 0⟩

def sampleUpdate : OwnedPortsUpdate := ⟨1, 0, .mapped (OwnedPort.codec.encode sampleOwner)⟩

theorem ownedPorts_grants_sample :
    ∃ st, (grantSystem 250).Reachable st ∧ st.owns 10123 8080 protoTcp afInet #v[htonl 0x7f000001, 0, 0, 0] := by
  have hinit : (grantSystem 250).Reachable ⟨.init, 0, none, []⟩ := .init ⟨rfl, rfl, rfl, by decide⟩
  have hstep := hinit.step (a := .update ⟨true, true⟩ true (some sampleUpdate)) ⟨rfl, by decide⟩
  have hupdate : (GrantState.step 250 ⟨.init, 0, none, []⟩ (.update ⟨true, true⟩ true (some sampleUpdate))).update =
      some (0, [sampleOwner]) := by
    decide +kernel
  refine ⟨_, hstep, ((ownedPorts_grants 250 hstep).1 _ _ _ _ _).2 ⟨0, [sampleOwner], hupdate, by decide, sampleOwner,
    List.mem_singleton_self _, ⟨rfl, rfl, rfl, rfl, .inr rfl⟩⟩ (.inl ⟨rfl, _, rfl, .inl (by decide)⟩)⟩

end VpnHide
