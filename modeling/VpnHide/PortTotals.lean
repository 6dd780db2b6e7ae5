import VpnHide.Connect
import VpnHide.Daemon
import VpnHide.Reconcile

/-!
# The total of blocked connections and its breakdown

`record_port_intercept` counts a refused connection in the entry of its uid and then, in a second locked section, in the
entry of its uid, port and protocol. The daemon differences the two tables apart from each other. As long as nothing
else takes counts away, a point's total for a uid exceeds the sum over its ports by the connections to port 0, which the
second section does not count (`portTotals_match_iff`).
-/

namespace VpnHide
open TxnM

/-! ### The code -/

/-- The two hooks of the module that refuse connections. -/
inductive ConnectHook where
  | socketConnect (sysConnectUsesWrapper : Bool)
  | securitySocketConnect

def ConnectHook.entry (policy : Option PolicySnapshot) (own : PortOwnership) (uid : UInt32) (sock : Option Socket)
    (addr : Option SockAddr) : ConnectHook → Option Refusal
  | .socketConnect sysConnectUsesWrapper => socketConnectEntry policy own uid sysConnectUsesWrapper sock addr
  | .securitySocketConnect => securitySocketConnectEntry policy own uid sock addr

/-- Kernel and daemon, with the connections on their way into the statistics. -/
structure TotalsState where
  daemon : DaemonState
  /-- refused by the entry handler of a hook, whose return handler has not run yet -/
  refused : List PortKey
  /-- between the two sections of `record_port_intercept` -/
  counted : List PortKey
  /-- through with `record_port_intercept` since the last sample that was appended -/
  recorded : List PortKey

inductive TotalsOp where
  | connect (hook : ConnectHook) (own : PortOwnership) (uid : UInt32) (sock : Option Socket) (addr : Option SockAddr)
  | countTotal (k : PortKey)
  | countPort (k : PortKey) (jiffies : UInt64)
  | daemon (op : DaemonOp)

def TotalsState.recordedAfter (hz : UInt64) (s : TotalsState) : DaemonOp → List PortKey
  | .sample env => if (s.daemon.sample hz env).1.isSome then [] else s.recorded
  | _ => s.recorded

inductive TotalsStep (hz : UInt64) (s : TotalsState) : TotalsOp → TotalsState → Prop where
  | connect {hook : ConnectHook} {own : PortOwnership} {uid : UInt32} {sock : Option Socket} {addr : Option SockAddr}
      {port : UInt16} {protocol : UInt8}
      (h : hook.entry s.daemon.st.kernel.policy own uid sock addr = some (port, protocol)) :
      TotalsStep hz s (.connect hook own uid sock addr) { s with refused := ⟨uid, port, protocol⟩ :: s.refused }
  | countTotal {k : PortKey} (h : k ∈ s.refused) :
      TotalsStep hz s (.countTotal k) { s with
        daemon := DaemonOp.run hz s.daemon (.other (.intercept k.uid 6))
        refused := s.refused.erase k
        counted := k :: s.counted }
  | countPort {k : PortKey} {jiffies : UInt64} (h : k ∈ s.counted) :
      TotalsStep hz s (.countPort k jiffies) { s with
        daemon := DaemonOp.run hz s.daemon (.other (.recordPort k jiffies))
        counted := s.counted.erase k
        recorded := k :: s.recorded }
  | daemon {op : DaemonOp} :
      TotalsStep hz s (.daemon op) { s with daemon := op.run hz s.daemon, recorded := s.recordedAfter hz op }

def totalsSystem (hz : UInt64) : System TotalsState TotalsOp where
  init s := s = ⟨⟨.init, .cleared, none⟩, [], [], []⟩
  step := TotalsStep hz

/-! ### Runs in which nothing is lost -/

def StatsKernel.portTotal (st : StatsKernel) (uid : UInt32) : UInt64 := (st.kernel.stats.countersOf uid).port

def StatsKernel.portCount (st : StatsKernel) (k : PortKey) : UInt64 := st.ports.table.elim 0 (VpnHide.portCount · k)

/-- A publish whose policy keeps every uid that has a count, with lists that fit the table. -/
def PublishKeeps (k : KernelState) (alloc : AllocOutcomes) (capable : Bool) (request : Option PolicyIoctl) : Prop :=
  ∀ k' s, exec (vhSetPolicy alloc capable request) k = (.ok (), k') → k'.policy = some s →
    (policyHasInvertedStatsLayer s = true ∨
      s.kmodUids.length + s.lsposedUids.length + s.portTargets.length ≤ uidStatsCapacity) ∧
    ∀ uid, (k.stats.countersOf uid).port ≠ 0 → policyUidHasStats s uid

/-- Neither counts a blocked connection nor loses one. -/
def StatsOp.Neutral (hz : UInt64) (st : StatsKernel) : StatsOp → Prop
  | .setPolicy alloc capable request => PublishKeeps st.kernel alloc capable request
  | .intercept _ type => type ≠ 6
  | .sweepPorts jiffies => ∀ e ∈ st.livePorts, ¬ timeAfter jiffies (e.lastSeen + portStatsTtl hz)
  | .javaStat .. | .readUids => True
  | .recordPort .. | .clearUids | .clearPorts => False

def StatsKernel.Undisturbed (hz : UInt64) : StatsKernel → List StatsOp → Prop
  | _, [] => True
  | st, op :: ops => op.Neutral hz st ∧ (op.run hz st).Undisturbed hz ops

/-- What happens before and in the four sections of a call is neutral. -/
structure V2Call.Undisturbed (hz : UInt64) (c : V2Call) : Prop where
  peek : c.st.Undisturbed hz c.env.beforePeek
  portPeek : (c.env.peek hz c.st).Undisturbed hz (c.env.beforePortPeek ++ [.sweepPorts c.env.peekedAt])
  fill : (c.env.portPeek hz c.st).Undisturbed hz (c.env.beforeFill ++ [.readUids])
  portFill : (c.env.fill hz c.st).Undisturbed hz (c.env.beforePortFill ++ [.sweepPorts c.env.filledAt])

/-- The key has an entry, or there is a slot for one. -/
def PortStats.HasRoomFor (ports : PortStats) (k : PortKey) : Prop :=
  ∃ t, ports.table = some t ∧ (findPortEntry t k ≠ none ∨ ∃ i, (t.get i).state ≠ .used)

/-- Uids are eligible, neither table overflows, nothing expires or is cleared, no publish drops a uid with counts, and
no connection is being counted while a sample is taken. -/
def TotalsState.Lossless (hz : UInt64) (s : TotalsState) : TotalsOp → Prop
  | .connect .. | .daemon .clearHistory => True
  | .countTotal k => UidEligible k.uid ∧
      (k.uid ∈ s.daemon.st.kernel.stats.uids ∨
        s.daemon.st.kernel.stats.entries.length < s.daemon.st.kernel.stats.capacity)
  | .countPort k _ => k.port ≠ 0 → s.daemon.st.ports.HasRoomFor k
  | .daemon (.other op) => op.Neutral hz s.daemon.st
  | .daemon (.sample env) =>
    s.counted = [] ∧ ∀ c ∈ (readKernelStats hz env.reads 0 0 s.daemon.st).calls, c.Undisturbed hz

/-- No counter is at its largest value when it is incremented. -/
def TotalsState.NoWrap (s : TotalsState) : TotalsOp → Prop
  | .countTotal k => s.daemon.st.portTotal k.uid + 1 ≠ 0
  | .countPort k _ => s.daemon.st.portCount k + 1 ≠ 0
  | .connect .. | .daemon _ => True

/-! ### What keeps the counts -/

/-- The same counts of blocked connections. -/
structure StatsKernel.SameCounts (st st' : StatsKernel) : Prop where
  ports : st'.ports = st.ports
  total : ∀ uid, st'.portTotal uid = st.portTotal uid

theorem StatsKernel.SameCounts.refl (st : StatsKernel) : st.SameCounts st := ⟨rfl, fun _ => rfl⟩

theorem StatsKernel.SameCounts.trans {st st' st'' : StatsKernel} (h : st.SameCounts st') (h' : st'.SameCounts st'') :
    st.SameCounts st'' :=
  ⟨h'.ports.trans h.ports, fun uid => (h'.total uid).trans (h.total uid)⟩

theorem bump_port_of_ne {type : Int32} (h : type ≠ 6) (c : StatsCounters) : (c.bump type).port = c.port := by
  unfold StatsCounters.bump
  split_ifs <;> rfl

theorem addJava_port (hook : String) (count : UInt64) (c : StatsCounters) : (c.addJava hook count).port = c.port := by
  simp only [StatsCounters.addJava, apply_ite StatsCounters.port, ite_self]

theorem upsertStats_port {t : StatsTable} (h : t.WF) (uid : UInt32) (mayInsert : Bool)
    {f : StatsCounters → StatsCounters} (hf : ∀ c, (f c).port = c.port) (u : UInt32) :
    ((upsertStats t uid mayInsert f).countersOf u).port = (t.countersOf u).port := by
  rw [upsertStats_countersOf _ _ _ h]
  split_ifs with hu
  · rw [hf, hu.1]
  · rfl

theorem recordKmodIntercept_port {t : StatsTable} (h : t.WF) (uid : UInt32) {type : Int32}
    (htype : type ≠ 6) (u : UInt32) :
    ((recordKmodIntercept t uid type).countersOf u).port = (t.countersOf u).port := by
  unfold recordKmodIntercept
  split_ifs
  · exact upsertStats_port h uid true (bump_port_of_ne htype) u
  · rfl

theorem vhSetPolicy_port {k : KernelState} (h : StatsInv k) {alloc : AllocOutcomes} {capable : Bool}
    {request : Option PolicyIoctl} (hkeeps : PublishKeeps k alloc capable request) (uid : UInt32) :
    ((exec (vhSetPolicy alloc capable request) k).2.stats.countersOf uid).port = (k.stats.countersOf uid).port := by
  have hatomic := vhSetPolicy_atomic alloc capable request k
  rcases hrun : exec (vhSetPolicy alloc capable request) k with ⟨e | _, k'⟩
  · rw [hrun] at hatomic
    rw [hatomic e rfl]
  · obtain ⟨r, payload, s, stats, -, hparse, -, hstats, rfl⟩ := vhSetPolicy_eq_ok.1 hrun
    obtain ⟨hfit, hhas⟩ := hkeeps _ s hrun rfl
    obtain hsame | ⟨hnot, hzero⟩ :=
      kmodStatsReconcile_countersOf hstats (parsePayload_installs hparse).1 h.table hfit uid
    · exact congrArg _ hsame
    · have hport : (k.stats.countersOf uid).port = 0 := by
        by_contra hne
        exact hnot (hhas uid hne)
      exact (congrArg StatsCounters.port hzero).trans hport.symm

theorem expirePortEntry_fresh {hz jiffies : UInt64} {e : PortStatsEntry}
    (h : e.state = .used → ¬ timeAfter jiffies (e.lastSeen + portStatsTtl hz)) : expirePortEntry hz jiffies e = e :=
  if_neg fun hand => h hand.1 hand.2

theorem sweep_unexpired {hz jiffies : UInt64} {st : StatsKernel}
    (h : ∀ e ∈ st.livePorts, ¬ timeAfter jiffies (e.lastSeen + portStatsTtl hz)) :
    (countLivePortStats hz jiffies st.ports).2 = st.ports := by
  unfold StatsKernel.livePorts at h
  generalize st.ports = ports at h ⊢
  obtain ⟨table, dropped⟩ := ports
  cases table with
  | none => rfl
  | some t =>
    refine sweep_fixed ?_ dropped
    have hid : t.toList.map (expirePortEntry hz jiffies) = t.toList := by
      refine (List.map_congr_left fun e he => expirePortEntry_fresh fun hused => ?_).trans (List.map_id _)
      exact h e (List.mem_filter.2 ⟨he, by simpa using hused⟩)
    rw [← Vector.toList_map] at hid
    exact Vector.toList_inj.1 hid

theorem StatsOp.Neutral.sameCounts {hz : UInt64} {st : StatsKernel} (hinv : StatsKernelInv st) {op : StatsOp}
    (h : op.Neutral hz st) : st.SameCounts (op.run hz st) := by
  cases op with
  | setPolicy alloc capable request => exact ⟨rfl, vhSetPolicy_port hinv.kernel h⟩
  | intercept uid type => exact ⟨rfl, recordKmodIntercept_port hinv.kernel.table uid h⟩
  | javaStat uid hook count =>
    exact ⟨rfl, upsertStats_port hinv.kernel.table uid (decide (UidEligible uid)) (addJava_port hook count)⟩
  | sweepPorts jiffies => exact ⟨sweep_unexpired h, fun _ => rfl⟩
  | readUids => exact ⟨rfl, fun _ => rfl⟩
  | recordPort => exact h.elim
  | clearUids => exact h.elim
  | clearPorts => exact h.elim

theorem StatsKernel.Undisturbed.sameCounts {hz : UInt64} {st : StatsKernel} (hinv : StatsKernelInv st)
    {ops : List StatsOp} (h : st.Undisturbed hz ops) : st.SameCounts (st.runs hz ops) := by
  induction ops generalizing st with
  | nil => exact .refl st
  | cons op ops ih => exact (h.1.sameCounts hinv).trans (ih (hinv.run hz op) h.2)

theorem V2Call.Undisturbed.sections {hz : UInt64} {c : V2Call} (hinv : StatsKernelInv c.st) (h : c.Undisturbed hz) :
    c.st.SameCounts (c.env.portPeek hz c.st) ∧ c.st.SameCounts (c.env.fill hz c.st) ∧
      c.st.SameCounts (c.env.portFill hz c.st) := by
  have hpeek := (h.peek.sameCounts hinv).trans (h.portPeek.sameCounts (hinv.runs hz _))
  have hfill := hpeek.trans (h.fill.sameCounts (hinv.portPeek hz c.env))
  exact ⟨hpeek, hfill, hfill.trans (h.portFill.sameCounts (hinv.fill hz c.env))⟩

/-- An undisturbed loop of reads ends with the counts it began with, and every call starts with them. -/
theorem readKernelStats_sameCounts {hz : UInt64} {envs : List ReadEnv} {st : StatsKernel} (hinv : StatsKernelInv st)
    (h : ∀ c ∈ (readKernelStats hz envs 0 0 st).calls, c.Undisturbed hz) :
    st.SameCounts (readKernelStats hz envs 0 0 st).st ∧
      ∀ c ∈ (readKernelStats hz envs 0 0 st).calls, StatsKernelInv c.st ∧ st.SameCounts c.st := by
  obtain ⟨hend, hcalls⟩ := readKernelStats_invariant (P := fun st' => StatsKernelInv st' ∧ st.SameCounts st')
    ⟨hinv, .refl st⟩ fun c hc ⟨hcinv, hsame⟩ => by
      obtain ⟨hpeek, -, hfill⟩ := (h c hc).sections hcinv
      exact ⟨⟨hcinv.portPeek hz c.env, hsame.trans hpeek⟩, hcinv.portFill hz c.env, hsame.trans hfill⟩
  exact ⟨hend.2, hcalls⟩

/-! ### What counts -/

theorem valueAt_countersOf (t : StatsTable) {f : StatsCounters → UInt64} (hf : f .zero = 0) (uid : UInt32) :
    valueAt UidStats.uid (fun e => (f e.counters).toNat) t.entries uid = (f (t.countersOf uid)).toNat := by
  have hpred : (fun e : UidStats => decide (e.uid = uid)) = fun e => statsKey e == uid.toNat :=
    funext fun e => decide_uid_eq e.uid uid
  rw [valueAt, hpred, StatsTable.countersOf, lookupBy]
  cases t.entries.find? fun e => statsKey e == uid.toNat with
  | none =>
    show 0 = (f .zero).toNat
    rw [hf]
    rfl
  | some e => rfl

def StatsKernel.portCounts (st : StatsKernel) : List PortCount := st.livePorts.map PortStatsEntry.toCount

theorem livePortEntries_nodup {t : PortTable} (h : PortTableOk t) :
    (((livePortEntries t).map PortStatsEntry.toCount).map PortCount.key).Nodup := by
  rw [List.map_map, List.Nodup, List.pairwise_map, livePortEntries, List.pairwise_filter, List.pairwise_iff_getElem]
  intro i j hi hj hij hused hused' hkey
  rw [Vector.length_toList] at hi hj
  simp only [Vector.getElem_toList] at hused hused' hkey
  have hsame := h.unique (i := ⟨i, hi⟩) (j := ⟨j, hj⟩) (k := (t.get ⟨j, hj⟩).key)
    (kind_eq_used.2 ⟨of_decide_eq_true hused, hkey⟩) (kind_eq_used.2 ⟨of_decide_eq_true hused', rfl⟩)
  exact absurd (Fin.mk.inj hsame) hij.ne

theorem livePortEntries_value {t : PortTable} (k : PortKey) :
    valueAt PortCount.key (fun e => e.count.toNat) ((livePortEntries t).map PortStatsEntry.toCount) k =
      (portCount t k).toNat := by
  have hpred : (fun e : PortStatsEntry => decide (decide (e.state = .used) = true ∧
      ((fun e : PortCount => decide (e.key = k)) ∘ PortStatsEntry.toCount) e = true)) =
      fun e => decide (e.state = .used ∧ e.key = k) := by
    funext e
    simp only [Function.comp_apply, decide_eq_true_eq]
    rfl
  rw [valueAt, List.find?_map, livePortEntries, List.find?_filter, hpred, portCount, findPortEntry]
  cases t.toList.find? fun e => decide (e.state = .used ∧ e.key = k) <;> rfl

theorem toNat_add_one {x : UInt64} (h : x + 1 ≠ 0) : (x + 1).toNat = x.toNat + 1 := by
  have hlt := x.toNat_lt
  have hne : (x + 1).toNat ≠ 0 := fun hzero => h (UInt64.toNat_inj.1 hzero)
  rw [UInt64.toNat_add, UInt64.toNat_one] at hne ⊢
  omega

section Counts
variable {st : StatsKernel}

theorem StatsKernelInv.portCounts_nodup (h : StatsKernelInv st) : (st.portCounts.map PortCount.key).Nodup := by
  obtain ⟨t, ht, hok⟩ := h.ports
  rw [StatsKernel.portCounts, StatsKernel.livePorts, ht]
  exact livePortEntries_nodup hok

theorem StatsKernelInv.portCounts_value (h : StatsKernelInv st) (k : PortKey) :
    valueAt PortCount.key (fun e => e.count.toNat) st.portCounts k = (st.portCount k).toNat := by
  obtain ⟨t, ht, -⟩ := h.ports
  rw [StatsKernel.portCounts, StatsKernel.livePorts, StatsKernel.portCount, ht]
  exact livePortEntries_value k

theorem portTotal_intercept (h : StatsKernelInv st) {uid : UInt32} (hel : UidEligible uid)
    (hroom : uid ∈ st.kernel.stats.uids ∨ st.kernel.stats.entries.length < st.kernel.stats.capacity)
    (hwrap : st.portTotal uid + 1 ≠ 0) (hz : UInt64) (u : UInt32) :
    (((StatsOp.intercept uid 6).run hz st).portTotal u).toNat = (st.portTotal u).toNat + if uid = u then 1 else 0 := by
  have htotal : ((StatsOp.intercept uid 6).run hz st).portTotal u =
      ((upsertStats st.kernel.stats uid true (StatsCounters.bump 6)).countersOf u).port := by
    show ((recordKmodIntercept st.kernel.stats uid 6).countersOf u).port = _
    rw [recordKmodIntercept, if_neg (not_not.2 hel)]
  rw [htotal, upsertStats_countersOf _ _ _ h.kernel.table]
  by_cases hu : uid = u
  · subst hu
    rw [if_pos ⟨rfl, hroom.imp_right fun h => ⟨rfl, h⟩⟩, if_pos rfl]
    exact toNat_add_one hwrap
  · rw [if_neg fun h => hu h.1.symm, if_neg hu]
    rfl

theorem portCount_record (h : StatsKernelInv st) {k : PortKey} (hport : k.port ≠ 0) (hproto : k.protocol ≤ protoUdp)
    (hroom : st.ports.HasRoomFor k) (hwrap : st.portCount k + 1 ≠ 0) (hz jiffies : UInt64) (k' : PortKey) :
    (((StatsOp.recordPort k jiffies).run hz st).portCount k').toNat =
      (st.portCount k').toNat + if k = k' then 1 else 0 := by
  obtain ⟨t, ht, hok⟩ := h.ports
  have hst : st.ports = ⟨some t, st.ports.dropped⟩ := by rw [← ht]
  have hcount (k' : PortKey) : st.portCount k' = portCount t k' := by rw [StatsKernel.portCount, ht, Option.elim_some]
  rcases recordPortEntry_spec hok hport hproto st.ports.dropped jiffies with
    ⟨t', heq, -, hself, hrest⟩ | ⟨hfull, habsent, -⟩
  · have hcount' : ((StatsOp.recordPort k jiffies).run hz st).portCount k' = portCount t' k' := by
      show (recordPortEntry st.ports k jiffies).table.elim 0 _ = _
      rw [hst, heq, Option.elim_some]
    rw [hcount', hcount]
    rw [hcount] at hwrap
    by_cases hk : k = k'
    · subst hk
      rw [portCount, hself, if_pos rfl, Option.elim_some]
      exact toNat_add_one hwrap
    · rw [portCount, hrest k' (Ne.symm hk), if_neg hk]
      rfl
  · obtain ⟨t', ht', hroom⟩ := hroom
    obtain rfl := Option.some.inj (ht.symm.trans ht')
    rcases hroom with hfound | ⟨i, hi⟩
    · exact absurd habsent hfound
    · exact absurd (hfull i) hi

/-- The sum over the ports of a uid. -/
def portsTotal (ports : List PortCount) (uid : UInt32) : ℕ := totalAt PortCount.uid (fun e => e.count.toNat) ports uid

theorem portsTotal_record (h : StatsKernelInv st) {k : PortKey} (hport : k.port ≠ 0) (hproto : k.protocol ≤ protoUdp)
    (hroom : st.ports.HasRoomFor k) (hwrap : st.portCount k + 1 ≠ 0) (hz jiffies : UInt64) (uid : UInt32) :
    portsTotal ((StatsOp.recordPort k jiffies).run hz st).portCounts uid =
      portsTotal st.portCounts uid + if k.uid = uid then 1 else 0 := by
  have h' := h.run hz (.recordPort k jiffies)
  -- the count of the key grows by one, like a list that counts this connection only
  have hkeys (k' : PortKey) : totalAt PortCount.key (fun e => e.count.toNat) st.portCounts k' +
      totalAt PortCount.key (fun e => e.count.toNat) [⟨k.uid, k.port, k.protocol, 1⟩] k' =
        totalAt PortCount.key (fun e => e.count.toNat) ((StatsOp.recordPort k jiffies).run hz st).portCounts k' := by
    rw [totalAt_of_nodup h.portCounts_nodup, totalAt_of_nodup h'.portCounts_nodup, h.portCounts_value,
      h'.portCounts_value, portCount_record h hport hproto hroom hwrap, totalAt_cons]
    rfl
  have hgroup := totalAt_group hkeys PortKey.uid uid
  rw [totalAt_cons] at hgroup
  exact hgroup.symm

theorem recordPort_zero {k : PortKey} (hport : k.port = 0) (hz jiffies : UInt64) :
    (StatsOp.recordPort k jiffies).run hz st = st := by
  have hsame : recordPortEntry st.ports k jiffies = st.ports := by
    unfold recordPortEntry
    split
    · rfl
    · exact if_pos (.inl hport)
  rw [StatsOp.run, hsame]

end Counts

/-! ### The balance -/

/-- What a uid has more in its total than in its ports, against a baseline: the connections between the two sections and
those to port 0. -/
structure Balance (b : StatsRing.Baseline) (st : StatsKernel) (counted recorded : List PortKey) : Prop where
  uids_sorted : StrictBy statsKey b.uids
  ports_sorted : StrictBy (fun e => e.key.rank) b.ports
  total_le : ∀ uid, valueAt UidStats.uid (fun e => e.counters.port.toNat) b.uids uid ≤ (st.portTotal uid).toNat
  port_le : ∀ k, valueAt PortCount.key (fun e => e.count.toNat) b.ports k ≤ (st.portCount k).toNat
  balance : ∀ uid, (st.portTotal uid).toNat + portsTotal b.ports uid =
    portsTotal st.portCounts uid + valueAt UidStats.uid (fun e => e.counters.port.toNat) b.uids uid +
      counted.countP (fun k => k.uid = uid) + recorded.countP (fun k => k.uid = uid ∧ k.port = 0)

section Steps
variable {b : StatsRing.Baseline} {st st' : StatsKernel} {counted recorded : List PortKey}

theorem Balance.of_sameCounts (h : Balance b st counted recorded) (hsame : st.SameCounts st') :
    Balance b st' counted recorded := by
  obtain ⟨hu, hp, htotal, hport, hbalance⟩ := h
  refine ⟨hu, hp, fun uid => ?_, fun k => ?_, fun uid => ?_⟩
  · rw [hsame.total]
    exact htotal uid
  · rw [StatsKernel.portCount, hsame.ports]
    exact hport k
  · rw [hsame.total, StatsKernel.portCounts, StatsKernel.livePorts, hsame.ports]
    exact hbalance uid

theorem Balance.countTotal (h : Balance b st counted recorded) (hinv : StatsKernelInv st) {k : PortKey}
    (hel : UidEligible k.uid)
    (hroom : k.uid ∈ st.kernel.stats.uids ∨ st.kernel.stats.entries.length < st.kernel.stats.capacity)
    (hwrap : st.portTotal k.uid + 1 ≠ 0) (hz : UInt64) :
    Balance b ((StatsOp.intercept k.uid 6).run hz st) (k :: counted) recorded := by
  have htotal := portTotal_intercept hinv hel hroom hwrap hz
  refine ⟨h.uids_sorted, h.ports_sorted, fun uid => ?_, h.port_le, fun uid => ?_⟩
  · rw [htotal]
    exact Nat.le_add_right_of_le (h.total_le uid)
  · have hbalance := h.balance uid
    rw [htotal, List.countP_cons]
    simp only [decide_eq_true_eq]
    show _ = portsTotal st.portCounts uid + _ + _ + _
    omega

theorem countP_erase {p : PortKey → Bool} {ks : List PortKey} {k : PortKey} (hk : k ∈ ks) :
    ks.countP p = (ks.erase k).countP p + if p k then 1 else 0 := by
  rw [(List.perm_cons_erase hk).countP_eq, List.countP_cons]

theorem Balance.countPort (h : Balance b st counted recorded) (hinv : StatsKernelInv st) {k : PortKey}
    (hk : k ∈ counted)
    (hproto : k.protocol ≤ protoUdp) (hroom : k.port ≠ 0 → st.ports.HasRoomFor k) (hwrap : st.portCount k + 1 ≠ 0)
    (hz jiffies : UInt64) :
    Balance b ((StatsOp.recordPort k jiffies).run hz st) (counted.erase k) (k :: recorded) := by
  have hbalance (uid : UInt32) := h.balance uid
  simp only [countP_erase hk, decide_eq_true_eq] at hbalance
  by_cases hport : k.port = 0
  · rw [recordPort_zero hport]
    refine ⟨h.uids_sorted, h.ports_sorted, h.total_le, h.port_le, fun uid => ?_⟩
    rw [hbalance, List.countP_cons]
    simp only [hport, and_true, decide_eq_true_eq]
    omega
  · have hports := portsTotal_record hinv hport hproto (hroom hport) hwrap hz jiffies
    refine ⟨h.uids_sorted, h.ports_sorted, h.total_le, fun k' => ?_, fun uid => ?_⟩
    · rw [portCount_record hinv hport hproto (hroom hport) hwrap]
      exact Nat.le_add_right_of_le (h.port_le k')
    · rw [hports, List.countP_cons]
      simp only [hport, and_false, decide_false, Bool.false_eq_true, if_false]
      show (st.portTotal uid).toNat + _ = _
      rw [hbalance]
      omega

end Steps

/-! ### Samples -/

theorem V2Call.Undisturbed.snapshot {hz : UInt64} {c : V2Call} (hinv : StatsKernelInv c.st) (h : c.Undisturbed hz) :
    (c.snapshot hz).Ok ∧ (∀ uid, (c.snapshot hz).uidValue StatsCounters.port uid = (c.st.portTotal uid).toNat) ∧
      (c.snapshot hz).ports = c.st.portCounts := by
  obtain ⟨-, hfill, hportFill⟩ := h.sections hinv
  refine ⟨⟨(hinv.fill hz c.env).kernel.table.sorted, (hinv.portFill hz c.env).portCounts_nodup⟩, fun uid => ?_, ?_⟩
  · rw [← hfill.total]
    exact valueAt_countersOf _ rfl uid
  · show (c.env.portFill hz c.st).livePorts.map _ = _
    rw [StatsKernel.livePorts, hportFill.ports]
    rfl

section Sample
variable {hz : UInt64} {st st' : StatsKernel} {s : KernelStats}

theorem Balance.fresh (hinv : StatsKernelInv st) (hok : s.Ok)
    (huids : ∀ uid, s.uidValue StatsCounters.port uid = (st.portTotal uid).toNat) (hports : s.ports = st.portCounts) :
    Balance ⟨true, s.sequence, s.uids, s.sortPorts.ports⟩ st [] [] := by
  have hperm := s.sortPorts_perm
  refine ⟨hok.uids, hok.sortPorts, fun uid => (huids uid).le, fun k => ?_, fun uid => ?_⟩
  · show valueAt PortCount.key _ s.sortPorts.ports k ≤ _
    rw [← valueAt_perm hok.ports hperm.symm, hports, hinv.portCounts_value]
  · have htotal : portsTotal s.sortPorts.ports uid = portsTotal s.ports uid := totalAt_perm hperm uid
    have huid := huids uid
    unfold KernelStats.uidValue at huid
    rw [htotal, hports, huid, Nat.add_comm]
    rfl

theorem Balance.point {ring ring' : StatsRing} {p : StatsPoint} {recorded : List PortKey}
    (h : Balance ring.baseline st [] recorded) (hinv : StatsKernelInv st) (happ : ring.Appends s.sortPorts p ring')
    (hgap : p.gap = false) (hok : s.Ok) (huids : ∀ uid, s.uidValue StatsCounters.port uid = (st.portTotal uid).toNat)
    (hports : s.ports = st.portCounts) (uid : UInt32) :
    p.uidTotal StatsCounters.port uid =
      portsTotal p.ports uid + recorded.countP (fun k => k.uid = uid ∧ k.port = 0) := by
  have hvalue (k : PortKey) : s.portValue k = (st.portCount k).toNat := by
    rw [KernelStats.portValue, hports, hinv.portCounts_value]
  have htotal := happ.uid_growth hgap h.uids_sorted hok (f := StatsCounters.port) (by simp [StatsCounters.fields])
    (fun uid => (huids uid).symm ▸ h.total_le uid) uid
  have hport := happ.port_growth hgap h.ports_sorted hok fun k => (hvalue k).symm ▸ h.port_le k
  have hprevious : (ring.previousPorts.map PortCount.key).Nodup :=
    .of_map PortKey.rank (by rw [List.map_map]; exact h.ports_sorted.nodup)
  have hkeys (k : PortKey) : totalAt PortCount.key (fun e => e.count.toNat) ring.previousPorts k +
      totalAt PortCount.key (fun e => e.count.toNat) p.ports k =
        totalAt PortCount.key (fun e => e.count.toNat) st.portCounts k := by
    rw [totalAt_of_nodup hprevious, totalAt_of_nodup hinv.portCounts_nodup, ← hports]
    exact hport k
  have hgroup : portsTotal ring.previousPorts uid + portsTotal p.ports uid = portsTotal st.portCounts uid :=
    totalAt_group hkeys PortKey.uid uid
  have hbalance := h.balance uid
  rw [huids] at htotal
  rw [← htotal, ← hgroup, List.countP_nil] at hbalance
  unfold StatsRing.baseline at hbalance
  dsimp only at hbalance
  omega

end Sample

/-! ### Runs -/

theorem sockProto_le (skType : UInt16) : sockProto skType ≤ protoUdp := by
  unfold sockProto
  split_ifs <;> decide

theorem connectDecision_protocol {policy : PolicySnapshot} {own : PortOwnership} {uid : UInt32} {sock : Option Socket}
    {addr : SockAddr} {port : UInt16} {protocol : UInt8}
    (h : connectDecision policy own uid sock addr = some (port, protocol)) : protocol ≤ protoUdp := by
  unfold connectDecision at h
  split at h
  · split_ifs at h
    cases h
    exact sockProto_le _
  · cases h

theorem ConnectHook.entry_null (policy : Option PolicySnapshot) (own : PortOwnership) (uid : UInt32)
    (sock : Option Socket) (hook : ConnectHook) : hook.entry policy own uid sock none = none := by
  cases hook with
  | socketConnect sysConnectUsesWrapper =>
    show socketConnectEntry policy own uid sysConnectUsesWrapper sock none = none
    unfold socketConnectEntry
    split_ifs
    · rfl
    · rfl
    · cases policy with
      | none => rfl
      | some s =>
        dsimp only
        cases vpnhideFindPortTarget (some s) uid <;> rfl
  | securitySocketConnect =>
    rw [ConnectHook.entry, securitySocketConnectEntry]
    split_ifs
    · rfl
    · rcases sock with _ | ⟨_ | _⟩ <;> rfl

theorem ConnectHook.entry_protocol {policy : Option PolicySnapshot} (hwf : ∀ s, policy = some s → s.WF)
    {own : PortOwnership}
    {uid : UInt32} {sock : Option Socket} {addr : Option SockAddr} {hook : ConnectHook} {port : UInt16}
    {protocol : UInt8} (h : hook.entry policy own uid sock addr = some (port, protocol)) : protocol ≤ protoUdp := by
  cases policy with
  | none => cases hook <;> cases h
  | some s =>
    have hs := hwf s rfl
    cases addr with
    | none =>
      rw [ConnectHook.entry_null] at h
      cases h
    | some addr =>
      cases hook with
      | socketConnect sysConnectUsesWrapper =>
        rw [ConnectHook.entry, socketConnectEntry_eq own uid sock addr hs] at h
        exact connectDecision_protocol h
      | securitySocketConnect =>
        rw [ConnectHook.entry, securitySocketConnectEntry_eq own uid sock addr hs] at h
        exact connectDecision_protocol h

structure TotalsInv (s : TotalsState) : Prop where
  st : StatsKernelInv s.daemon.st
  protocol : ∀ k, k ∈ s.refused ∨ k ∈ s.counted → k.protocol ≤ protoUdp
  balance : s.daemon.ring.baselineValid = true → Balance s.daemon.ring.baseline s.daemon.st s.counted s.recorded

theorem TotalsInv.sample_cases {hz : UInt64} {s : TotalsState} (h : TotalsInv s) {env : SampleEnv}
    (hlossless : s.Lossless hz (.daemon (.sample env))) :
    s.daemon.st.SameCounts (s.daemon.sample hz env).2.st ∧
    ((s.daemon.sample hz env).1 = none ∧ (s.daemon.sample hz env).2.ring.baseline = s.daemon.ring.baseline ∨
      ∃ p read stats, (s.daemon.sample hz env).1 = some (p, read) ∧
        s.daemon.ring.Appends (KernelStats.sortPorts stats) p (s.daemon.sample hz env).2.ring ∧ stats.Ok ∧
        (∀ uid, stats.uidValue StatsCounters.port uid = (s.daemon.st.portTotal uid).toNat) ∧
        stats.ports = s.daemon.st.portCounts) := by
  obtain ⟨-, hcalls⟩ := hlossless
  obtain ⟨hend, hstates⟩ := readKernelStats_sameCounts h.st hcalls
  rcases s.daemon.sample_cases hz env with ⟨hst, ⟨hnone, hring, -⟩ | ⟨c, hc, p, -, hsome, happ, -⟩⟩
  · exact ⟨hst ▸ hend, .inl ⟨hnone, hring⟩⟩
  · obtain ⟨hcinv, hsame⟩ := hstates c hc
    obtain ⟨hok, huids, hports⟩ := (hcalls c hc).snapshot hcinv
    refine ⟨hst ▸ hend, .inr ⟨p, _, c.snapshot hz, hsome, happ, hok, fun uid => ?_, ?_⟩⟩
    · rw [huids, hsame.total]
    · rw [hports, StatsKernel.portCounts, StatsKernel.livePorts, hsame.ports]
      rfl

theorem TotalsInv.sample {hz : UInt64} {s : TotalsState} (h : TotalsInv s) {env : SampleEnv}
    (hlossless : s.Lossless hz (.daemon (.sample env))) :
    TotalsInv { s with daemon := (s.daemon.sample hz env).2, recorded := s.recordedAfter hz (.sample env) } := by
  have hst : StatsKernelInv (s.daemon.sample hz env).2.st :=
    (s.daemon.sample_cases hz env).1 ▸ (h.st.read hz env.reads).1
  rcases h.sample_cases hlossless with ⟨hsame, ⟨hnone, hring⟩ | ⟨p, read, stats, hsome, happ, hok, huids, hports⟩⟩
  · refine ⟨hst, h.protocol, fun hvalid => ?_⟩
    have hbalance := h.balance ((congrArg StatsRing.Baseline.valid hring).symm.trans hvalid)
    rw [TotalsState.recordedAfter, hnone, hring]
    exact hbalance.of_sameCounts hsame
  · refine ⟨hst, h.protocol, fun _ => ?_⟩
    rw [TotalsState.recordedAfter, hsome, happ.hasBaseline, hlossless.1]
    exact (Balance.fresh h.st hok huids hports).of_sameCounts hsame

theorem TotalsInv.step {hz : UInt64} {s s' : TotalsState} {op : TotalsOp} (h : TotalsInv s)
    (hlossless : s.Lossless hz op) (hwrap : s.NoWrap op) (hstep : TotalsStep hz s op s') : TotalsInv s' := by
  cases hstep with
  | connect hrefused =>
    refine ⟨h.st, fun k hk => ?_, h.balance⟩
    rw [List.mem_cons] at hk
    rcases hk with (rfl | hk) | hk
    · exact ConnectHook.entry_protocol h.st.kernel.policy hrefused
    · exact h.protocol k (.inl hk)
    · exact h.protocol k (.inr hk)
  | @countTotal k hk =>
    refine ⟨h.st.run hz (.intercept k.uid 6), fun k' hk' => h.protocol k' ?_, fun hvalid => ?_⟩
    · rw [List.mem_cons] at hk'
      rcases hk' with hk' | rfl | hk'
      · exact .inl (List.mem_of_mem_erase hk')
      · exact .inl hk
      · exact .inr hk'
    · exact (h.balance hvalid).countTotal h.st hlossless.1 hlossless.2 hwrap hz
  | @countPort k jiffies hk =>
    refine ⟨h.st.run hz (.recordPort k jiffies), fun k' hk' => h.protocol k' (hk'.imp_right List.mem_of_mem_erase),
      fun hvalid => ?_⟩
    exact (h.balance hvalid).countPort h.st hk (h.protocol k (.inr hk)) hlossless hwrap hz jiffies
  | @daemon op =>
    cases op with
    | other op =>
      exact ⟨h.st.run hz op, h.protocol, fun hvalid => (h.balance hvalid).of_sameCounts (hlossless.sameCounts h.st)⟩
    | sample env => exact h.sample hlossless
    | clearHistory => exact ⟨h.st, h.protocol, nofun⟩

/-- The runs in which nothing is lost and no counter wraps. -/
def losslessSystem (hz : UInt64) : System TotalsState TotalsOp :=
  (totalsSystem hz).restrict fun s op => s.Lossless hz op ∧ s.NoWrap op

theorem losslessSystem_step {hz : UInt64} {s s' : TotalsState} {op : TotalsOp} (hs : (losslessSystem hz).Reachable s)
    (hstep : TotalsStep hz s op s') (hlossless : s.Lossless hz op) (hwrap : s.NoWrap op) :
    (losslessSystem hz).Reachable s' :=
  .step hs ⟨⟨hlossless, hwrap⟩, hstep⟩

theorem TotalsInv.of_reachable {hz : UInt64} {s : TotalsState} (h : (losslessSystem hz).Reachable s) : TotalsInv s := by
  refine h.invariant ?_ ?_
  · rintro _ rfl
    exact ⟨.init, nofun, nofun⟩
  · rintro s op s' hs ⟨⟨hlossless, hwrap⟩, hstep⟩
    exact hs.step hlossless hwrap hstep

/-- The excess of a uid's total in a point that is no gap. -/
theorem TotalsInv.point {hz : UInt64} {s : TotalsState} (h : TotalsInv s) {env : SampleEnv}
    (hlossless : s.Lossless hz (.daemon (.sample env))) {p : StatsPoint} {read : StatsKernel}
    (hsample : (s.daemon.sample hz env).1 = some (p, read)) (hgap : p.gap = false) (uid : UInt32) :
    p.uidTotal StatsCounters.port uid =
      portsTotal p.ports uid + s.recorded.countP (fun k => k.uid = uid ∧ k.port = 0) := by
  rcases h.sample_cases hlossless with ⟨-, ⟨hnone, -⟩ | ⟨p', read', stats, hsome, happ, hok, huids, hports⟩⟩
  · cases hnone.symm.trans hsample
  cases hsome.symm.trans hsample
  have hvalid : s.daemon.ring.baselineValid = true := by
    have hnot := happ.gap.symm.trans hgap
    rw [StatsRing.gapAt, Bool.or_eq_false_iff, Bool.not_eq_eq_eq_not] at hnot
    exact hnot.1
  have hbalance := h.balance hvalid
  rw [hlossless.1] at hbalance
  exact hbalance.point h.st happ hgap hok huids hports uid

/-- In every lossless run, take a sample whose point is no gap: the total of a uid is the sum over its ports exactly if
no connection of the uid to port 0 was recorded since the sample before. -/
theorem portTotals_match_iff {hz : UInt64} {s : TotalsState} (h : (losslessSystem hz).Reachable s) {env : SampleEnv}
    (hlossless : s.Lossless hz (.daemon (.sample env))) {p : StatsPoint} {read : StatsKernel}
    (hsample : (s.daemon.sample hz env).1 = some (p, read)) (hgap : p.gap = false) (uid : UInt32) :
    p.uidTotal StatsCounters.port uid = portsTotal p.ports uid ↔ ∀ k ∈ s.recorded, k.uid = uid → k.port ≠ 0 := by
  rw [(TotalsInv.of_reachable h).point hlossless hsample hgap uid, Nat.add_eq_left, List.countP_eq_zero]
  refine forall₂_congr fun k _ => ?_
  rw [decide_eq_true_iff, not_and]

/-! ### A connection to port 0 -/

theorem quietCall_undisturbed {c : V2Call} (henv : c.env = quietCall)
    (hsweep : (countLivePortStats 250 0 c.st.ports).2 = c.st.ports)
    (hlive : c.st.livePorts = []) : c.Undisturbed 250 := by
  obtain ⟨env, request, st⟩ := c
  obtain rfl : env = quietCall := henv
  obtain ⟨k, ports, sequence, clears, reads⟩ := st
  obtain ⟨hpeek, hfill, -⟩ := @quietCall_sections k ports sequence clears reads hsweep
  have hnone : ports.table.elim [] livePortEntries = [] := hlive
  have hsweeps (e : PortStatsEntry) (he : e ∈ ports.table.elim [] livePortEntries) :
      ¬ timeAfter 0 (e.lastSeen + portStatsTtl 250) := by
    rw [hnone] at he
    exact absurd he List.not_mem_nil
  refine ⟨trivial, ⟨hsweeps, trivial⟩, ⟨trivial, trivial⟩, ?_⟩
  dsimp only
  rw [hfill]
  exact ⟨hsweeps, trivial⟩

theorem quietSample_lossless {k : KernelState} {ports : PortStats} {sequence : UInt64} {clears reads : ℕ}
    (hsweep : (countLivePortStats 250 0 ports).2 = ports) (hlive : ports.table.elim [] livePortEntries = []) :
    ∀ c ∈ (readKernelStats 250 quietSample.reads 0 0 ⟨k, ports, sequence, clears, reads⟩).calls, c.Undisturbed 250 := by
  have hquiet {c : V2Call}
      (hc : c ∈ (readKernelStats 250 quietSample.reads 0 0 ⟨k, ports, sequence, clears, reads⟩).calls) :
      c.env = quietCall := by
    obtain ⟨env, henv, heq⟩ := readKernelStats_env hc
    rw [quietSample, List.mem_cons, List.mem_singleton, or_self] at henv
    rw [heq, henv]
  obtain ⟨-, hports⟩ := readKernelStats_invariant (P := fun st => st.ports = ports) rfl fun c hc hst => by
    rw [hquiet hc]
    generalize c.st = st at hst ⊢
    obtain ⟨k, ports', sequence, clears, reads⟩ := st
    obtain rfl : ports' = ports := hst
    obtain ⟨hpeek, -, hfill⟩ := @quietCall_sections k ports' sequence clears reads hsweep
    rw [hpeek, hfill]
    exact ⟨rfl, rfl⟩
  intro c hc
  refine quietCall_undisturbed (hquiet hc) ?_ ?_
  · rw [hports c hc, hsweep]
  · rw [StatsKernel.livePorts, hports c hc, hlive]

def denyAllPayload : List UInt8 :=
  PolicyPayloadV3.codec.encode {
    totalSize := 592, flags := 0, activeHooksMask := 0, javaHooksMask := 0, debugEnabled := 0,
    ifaceCount := 0, ifacePrefixes := Vector.replicate 32 (Vector.replicate 16 0),
    kmodUids := ⟨576, 0⟩, lsposedUids := ⟨576, 0⟩, portTargets := ⟨576, 1⟩, portRules := ⟨592, 0⟩,
    appHookMasks := ⟨592, 0⟩ } ++
  PortTargetV3.codec.encodeArray [⟨10123, 0, 0, portPolicyDenyAll, Vector.replicate 3 0⟩]

def denyAllRequest : PolicyIoctl :=
  ⟨policyAbiVersionV3, UInt32.ofNat denyAllPayload.length, .mapped denyAllPayload, 1⟩

def denyAllKernel : KernelState := (KernelOp.setPolicy ⟨true, true, true, true⟩ true (some denyAllRequest)).run .init

def zeroPort : PortKey := ⟨10123, 0, protoTcp⟩

theorem denyAllKernel_facts : 10123 ∈ denyAllKernel.stats.uids ∧ denyAllKernel.stats.countersOf 10123 = .zero ∧
    ConnectHook.securitySocketConnect.entry denyAllKernel.policy ⟨none, pendingPortsZero, 0⟩ 10123
      (some ⟨some sockStream⟩) (some (.inet 0 (htonl 0x7f000001))) = some (0, protoTcp) := by
  decide +kernel

theorem denyAll_keeps : PublishKeeps .init ⟨true, true, true, true⟩ true (some denyAllRequest) := by
  intro k' s hrun hs
  have hfits : denyAllKernel.policy.all (fun s => decide (FitsStats s)) = true := by decide +kernel
  have hk : k' = denyAllKernel := (congrArg Prod.snd hrun).symm
  rw [← hk, hs] at hfits
  exact ⟨.inr (of_decide_eq_true hfits).2, fun uid hne => absurd rfl hne⟩

theorem quietCalls_of_mem {k : KernelState} (h : 10123 ∈ k.stats.uids) (ports : PortStats) :
    quietCalls k ports = 2 := by
  refine if_neg fun hempty => ?_
  have hnil := List.length_eq_zero_iff.1 (Nat.le_zero.1 hempty.1)
  rw [StatsTable.uids, hnil] at h
  exact absurd h List.not_mem_nil

theorem zeroPort_steps {ports : PortStats} (hsweep : (countLivePortStats 250 0 ports).2 = ports)
    (hlive : ports.table.elim [] livePortEntries = [])
    (h : (losslessSystem 250).Reachable ⟨⟨⟨denyAllKernel, ports, 0, 0, 0⟩, .cleared, none⟩, [], [], []⟩) :
    ∃ (k : KernelState) (ring : StatsRing) (base : Option StatsKernel), 10123 ∈ k.stats.uids ∧
      (losslessSystem 250).Reachable ⟨⟨⟨k, ports, 2, 0, 2⟩, ring, base⟩, [], [], [zeroPort]⟩ ∧
      ring.baselineValid = true ∧ ring.previousSequence = 2 := by
  obtain ⟨hmem, hzero, hrefused⟩ := denyAllKernel_facts
  obtain ⟨p, ring, hsample, happ⟩ := @quietSample_spec denyAllKernel ports 0 0 0 hsweep 2
    (quietCalls_of_mem hmem _) .cleared none
  obtain ⟨hvalid, hsequence, -⟩ := StatsRing.Baseline.mk.inj happ.hasBaseline
  let st : StatsKernel := ⟨denyAllKernel, ports, 2, 0, 2⟩
  have hsampled : (losslessSystem 250).Reachable ⟨⟨st, ring, some st⟩, [], [], []⟩ := by
    have hstep := @TotalsStep.daemon 250 ⟨⟨⟨denyAllKernel, ports, 0, 0, 0⟩, .cleared, none⟩, [], [], []⟩
      (.sample quietSample)
    rw [DaemonOp.run, TotalsState.recordedAfter, hsample] at hstep
    exact losslessSystem_step h hstep ⟨rfl, quietSample_lossless hsweep hlive⟩ trivial
  have hconnect : (losslessSystem 250).Reachable ⟨⟨st, ring, some st⟩, [zeroPort], [], []⟩ :=
    losslessSystem_step hsampled (.connect hrefused) trivial trivial
  have htotal : (losslessSystem 250).Reachable
      ⟨⟨(StatsOp.intercept 10123 6).run 250 st, ring, some st⟩, [], [zeroPort], []⟩ := by
    have hstep := @TotalsStep.countTotal 250 ⟨⟨st, ring, some st⟩, [zeroPort], [], []⟩ zeroPort List.mem_cons_self
    rw [List.erase_cons_head] at hstep
    refine losslessSystem_step hconnect hstep ⟨by decide, .inl hmem⟩ ?_
    show (denyAllKernel.stats.countersOf 10123).port + 1 ≠ 0
    rw [hzero]
    decide
  have hinv := (TotalsInv.of_reachable htotal).st
  have hport : (losslessSystem 250).Reachable
      ⟨⟨(StatsOp.intercept 10123 6).run 250 st, ring, some st⟩, [], [], [zeroPort]⟩ := by
    have hstep := @TotalsStep.countPort 250 ⟨⟨(StatsOp.intercept 10123 6).run 250 st, ring, some st⟩, [],
      [zeroPort], []⟩
      zeroPort 0 List.mem_cons_self
    rw [List.erase_cons_head, DaemonOp.run, recordPort_zero rfl] at hstep
    refine losslessSystem_step htotal hstep (fun hne => absurd rfl hne) ?_
    have hnone : ((StatsOp.intercept 10123 6).run 250 st).portCounts = [] := congrArg (List.map _) hlive
    have hcount : ((StatsOp.intercept 10123 6).run 250 st).portCount zeroPort = 0 := by
      rw [← UInt64.toNat_inj, ← hinv.portCounts_value, hnone]
      rfl
    show ((StatsOp.intercept 10123 6).run 250 st).portCount zeroPort + 1 ≠ 0
    rw [hcount]
    decide
  exact ⟨_, ring, some st, (recordKmodIntercept_wf (TotalsInv.of_reachable hsampled).st.kernel.table 10123 6).2 _ hmem,
    hport, hvalid, hsequence⟩

theorem zeroPort_sample : ∃ (s : TotalsState) (p : StatsPoint) (read : StatsKernel), (losslessSystem 250).Reachable s ∧
    s.Lossless 250 (.daemon (.sample quietSample)) ∧ (s.daemon.sample 250 quietSample).1 = some (p, read) ∧
    p.gap = false ∧ p.ports = [] ∧ s.recorded = [zeroPort] := by
  obtain ⟨hsweep, hlen⟩ := clearPortStats_sweep
  have hlive := List.length_eq_zero_iff.1 hlen
  have hstart : (losslessSystem 250).Reachable
    ⟨⟨⟨denyAllKernel, clearPortStats, 0, 0, 0⟩, .cleared, none⟩, [], [], []⟩ :=
    losslessSystem_step (.init rfl) (@TotalsStep.daemon 250 _ (.other (.setPolicy ⟨true, true, true, true⟩ true
      (some denyAllRequest)))) denyAll_keeps trivial
  -- the table stays a variable from here on: it has 65536 entries
  generalize clearPortStats = ports at hsweep hlive hstart
  obtain ⟨k, ring, base, hmem, hreach, hvalid, hsequence⟩ := zeroPort_steps hsweep hlive hstart
  obtain ⟨p, ring', hsample, happ⟩ := @quietSample_spec k ports 2 0 2 hsweep 2 (quietCalls_of_mem hmem _) ring base
  refine ⟨_, p, _, hreach, ⟨rfl, quietSample_lossless hsweep hlive⟩, congrArg Prod.fst hsample, ?_, ?_, rfl⟩
  · rw [happ.gap, StatsRing.gapAt, hvalid, hsequence, KernelStats.sortPorts_sequence]
    rfl
  · have hnone : (quietStats k ports (2 + .ofNat 2)).sortPorts.ports = [] := by
      rw [quietStats, hlive]
      rfl
    rw [happ.ports, hnone, List.filterMap_nil, ite_self]

/-- A refused connection to port 0 is in the total of its uid and in no port. -/
theorem portTotals_port_zero : ∃ (s : TotalsState) (p : StatsPoint) (read : StatsKernel),
    (losslessSystem 250).Reachable s ∧
    s.Lossless 250 (.daemon (.sample quietSample)) ∧ (s.daemon.sample 250 quietSample).1 = some (p, read) ∧
    p.gap = false ∧ p.uidTotal StatsCounters.port 10123 = 1 ∧ portsTotal p.ports 10123 = 0 := by
  obtain ⟨s, p, read, hreach, hlossless, hsample, hgap, hports, hrecorded⟩ := zeroPort_sample
  have htotal := (TotalsInv.of_reachable hreach).point hlossless hsample hgap 10123
  rw [hrecorded] at htotal
  refine ⟨s, p, read, hreach, hlossless, hsample, hgap, ?_, ?_⟩
  · rw [htotal, hports]
    rfl
  · rw [hports]
    rfl

theorem portTotals_match_iff_zero : ∃ p : StatsPoint, p.uidTotal StatsCounters.port 10123 ≠ portsTotal p.ports 10123 ∧
    p.uidTotal StatsCounters.port 10200 = portsTotal p.ports 10200 := by
  obtain ⟨s, p, read, hreach, hlossless, hsample, hgap, -, hrecorded⟩ := zeroPort_sample
  have hiff := portTotals_match_iff hreach hlossless hsample hgap
  rw [hrecorded] at hiff
  refine ⟨p, fun h => ?_, (hiff 10200).2 (by decide)⟩
  exact (hiff 10123).1 h zeroPort List.mem_cons_self rfl rfl

end VpnHide
