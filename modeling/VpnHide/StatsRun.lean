import VpnHide.Kernel
import VpnHide.Lib.Transition

/-!
# The statistics table over whole runs

From module load on, the kernel takes policy publishes, intercepts, reports of the Java side and clears in
any order. The table stays sorted and within its capacity, and under a policy that fits it every uid the
policy acts on keeps its entry: a publish makes the entries, and no other operation takes one away.
-/

namespace VpnHide
open TxnM

/-- The operations on the statistics table. -/
inductive KernelOp
  | setPolicy (alloc : AllocOutcomes) (capable : Bool) (request : Option PolicyIoctl)
  | intercept (uid : UInt32) (type : Int32)
  /-- a line of a `stats:` write -/
  | javaStat (uid : UInt32) (hook : String) (count : UInt64)
  /-- the `VH_CLEAR_STATS` ioctl, which allocates a port table before it clears anything -/
  | clearStats (kvcalloc : Bool)

def KernelOp.run (k : KernelState) : KernelOp → KernelState
  | .setPolicy alloc capable request => (exec (vhSetPolicy alloc capable request) k).2
  | .intercept uid type => { k with stats := recordKmodIntercept k.stats uid type }
  | .javaStat uid hook count => { k with stats := vpnhideKmodRecordJavaStat k.stats uid hook count }
  | .clearStats kvcalloc => if kvcalloc then { k with stats := VpnHide.clearStats k.stats } else k

def kernelSystem : System KernelState KernelOp where
  init k := k = .init
  step k op k' := op.run k = k'

def PolicySnapshot.CountsUid (s : PolicySnapshot) (uid : UInt32) : Prop :=
  Counted s.kmodUids s.lsposedUids s.portTargets uid

/-! ### The invariant -/

structure StatsInv (k : KernelState) : Prop where
  table : k.stats.WF
  policy : ∀ s, k.policy = some s → s.WF
  covered : ∀ s, k.policy = some s → FitsStats s → ∀ uid, s.CountsUid uid → uid ∈ k.stats.uids

/-- Operations that leave the policy alone and drop no entry. -/
theorem StatsInv.of_stats {k : KernelState} {t : StatsTable} (h : StatsInv k) (ht : t.WF)
    (huids : ∀ uid ∈ k.stats.uids, uid ∈ t.uids) : StatsInv { k with stats := t } where
  table := ht
  policy := h.policy
  covered s hs hfit uid hu := huids uid (h.covered s hs hfit uid hu)

theorem recordKmodIntercept_wf {t : StatsTable} (h : t.WF) (uid : UInt32) (type : Int32) :
    (recordKmodIntercept t uid type).WF ∧ ∀ u ∈ t.uids, u ∈ (recordKmodIntercept t uid type).uids := by
  unfold recordKmodIntercept
  split
  · exact ⟨h, fun _ hu => hu⟩
  · exact ⟨upsertStats_wf _ _ _ h, fun _ hu => upsertStats_uids _ _ _ h hu⟩

theorem StatsInv.setPolicy {k : KernelState} (h : StatsInv k) (alloc : AllocOutcomes) (capable : Bool)
    (request : Option PolicyIoctl) : StatsInv (exec (vhSetPolicy alloc capable request) k).2 := by
  have hatomic := vhSetPolicy_atomic alloc capable request k
  rcases hrun : exec (vhSetPolicy alloc capable request) k with ⟨e | _, k'⟩
  · rw [hrun] at hatomic
    rw [hatomic e rfl]
    exact h
  · obtain ⟨r, payload, s, stats, -, hparse, -, hstats, rfl⟩ := vhSetPolicy_eq_ok.1 hrun
    have hwf := (parsePayload_installs hparse).1
    constructor
    · exact kmodStatsReconcile_wf hstats hwf h.table
    · intro s' hs'
      obtain rfl := Option.some.inj hs'
      exact hwf
    · intro s' hs' hfit uid hu
      obtain rfl := Option.some.inj hs'
      exact kmodStatsReconcile_covers hstats hwf hfit hu

theorem StatsInv.run {k : KernelState} (h : StatsInv k) (op : KernelOp) : StatsInv (op.run k) := by
  cases op with
  | setPolicy alloc capable request => exact h.setPolicy alloc capable request
  | intercept uid type =>
    obtain ⟨hwf, huids⟩ := recordKmodIntercept_wf h.table uid type
    exact h.of_stats hwf huids
  | javaStat uid hook count =>
    exact h.of_stats (upsertStats_wf _ _ _ h.table) fun _ hu => upsertStats_uids _ _ _ h.table hu
  | clearStats kvcalloc =>
    cases kvcalloc with
    | false => exact h
    | true => exact h.of_stats (clearStats_wf h.table) fun _ hu => by rwa [clearStats_uids]

theorem statsInv_init : StatsInv .init where
  table := ⟨StrictBy.nil, Nat.le_refl _, Nat.zero_le _⟩
  policy _ hs := by cases hs
  covered _ hs := by cases hs

theorem statsInv_of_reachable {k : KernelState} (h : kernelSystem.Reachable k) : StatsInv k := by
  refine h.invariant ?_ ?_
  · rintro _ rfl
    exact statsInv_init
  · rintro k op _ hk rfl
    exact hk.run op

/-- In every reachable state the table is strictly increasing and within its capacity; under a policy
without an `EXCLUDE` layer whose lists fit the table, every uid the policy acts on has an entry, and an
intercept of an eligible one is counted there. -/
theorem kmodStats_invariant {k : KernelState} (h : kernelSystem.Reachable k) :
    StrictBy statsKey k.stats.entries ∧ k.stats.entries.length ≤ k.stats.capacity ∧
    k.stats.capacity ≤ uidStatsCapacity ∧
    ∀ s, k.policy = some s → FitsStats s → ∀ uid, s.CountsUid uid →
      uid ∈ k.stats.uids ∧
      (UidEligible uid → ∀ type, ∃ e, lookupBy statsKey k.stats.entries uid.toNat = some e ∧
        lookupBy statsKey (recordKmodIntercept k.stats uid type).entries uid.toNat =
          some (e.count (StatsCounters.bump type))) := by
  have hinv := statsInv_of_reachable h
  refine ⟨hinv.table.sorted, hinv.table.count_le, hinv.table.capacity_le, fun s hs hfit uid hu => ?_⟩
  have hmem := hinv.covered s hs hfit uid hu
  refine ⟨hmem, fun hel type => ?_⟩
  obtain ⟨e, he, rfl⟩ := List.mem_map.1 hmem
  have hlookup : lookupBy statsKey k.stats.entries e.uid.toNat = some e :=
    lookupBy_of_mem hinv.table.sorted.nodup he
  refine ⟨e, hlookup, ?_⟩
  rw [recordKmodIntercept, if_neg (not_not.2 hel)]
  exact upsertStats_lookup _ _ _ hinv.table hlookup

/-- A publish, and a Java report that takes a spare slot for another uid. -/
def sampleRun : KernelState :=
  (KernelOp.javaStat 10050 "PackageManager" 3).run
    ((KernelOp.setPolicy ⟨true, true, true, true⟩ true (some sampleRequest)).run .init)

theorem kmodStats_invariant_sample :
    ∃ s, sampleRun.policy = some s ∧ FitsStats s ∧ 10123 ∈ sampleRun.stats.uids ∧
      10050 ∈ sampleRun.stats.uids := by
  have hreach : kernelSystem.Reachable sampleRun := .step (.step (.init rfl) rfl) rfl
  have hpolicy : sampleRun.policy.any (fun s => decide (FitsStats s) && s.kmodUids.contains 10123) = true := by
    decide +kernel
  obtain ⟨s, hs, h⟩ := (Option.any_eq_true _ _).1 hpolicy
  simp only [Bool.and_eq_true, decide_eq_true_eq, List.contains_iff_mem] at h
  obtain ⟨-, -, -, hcovered⟩ := kmodStats_invariant hreach
  exact ⟨s, hs, h.1, (hcovered s hs h.1 10123 (.inl h.2)).1, by decide +kernel⟩

end VpnHide
