import VpnHide.StatsTable

/-!
# Reconciling keeps the counters

A publish rebuilds the statistics table in one of two ways: without an inverted layer it merges the lists of
the policy and carries the old counters over, with one it filters the old table by `policy_uid_has_stats`.
Both leave the same population (`kmodStatsReconcile_preserves`): the uids that `policy_uid_has_stats`
accepts, each with the counters it had.
-/

namespace VpnHide

/-! ### The two loops -/

theorem lookupBy_dropWhile_lt {old : List UidStats} {u v : UInt32} (huv : u.toNat ≤ v.toNat) :
    lookupBy statsKey (old.dropWhile fun e => e.uid < u) v.toNat = lookupBy statsKey old v.toNat := by
  induction old with
  | nil => rfl
  | cons e rest ih =>
    by_cases he : e.uid < u
    · have hne : statsKey e ≠ v.toNat := by
        rw [UInt32.lt_iff_toNat_lt] at he
        show e.uid.toNat ≠ v.toNat
        omega
      rw [List.dropWhile_cons_of_pos (by simpa using he), ih]
      exact (List.find?_cons_of_neg (by simpa using hne)).symm
    · rw [List.dropWhile_cons_of_neg (by simpa using he)]

/-- The two-pointer loop looks every uid up in the old table. -/
theorem carryStats_eq_map {us : List UInt32} {old : List UidStats} (hus : StrictBy UInt32.toNat us)
    (hold : StrictBy statsKey old) :
    carryStats us old = us.map fun u => (lookupBy statsKey old u.toNat).getD (.fresh u) := by
  induction us generalizing old with
  | nil => rfl
  | cons u us ih =>
    obtain ⟨hlt, hus⟩ := List.pairwise_cons.1 hus
    have hsorted : StrictBy statsKey (old.dropWhile fun e => e.uid < u) :=
      hold.sublist (List.dropWhile_sublist _)
    have hhead : ∀ e, (old.dropWhile fun e => e.uid < u).head? = some e → ¬ e.uid < u := by
      intro e he
      have := List.head?_dropWhile_not (fun e : UidStats => decide (e.uid < u)) old
      simpa [he] using this
    -- every uid from `u` on is looked up in what the inner loop leaves
    have hlook : ((u :: us).map fun v => (lookupBy statsKey old v.toNat).getD (.fresh v)) =
        (u :: us).map fun v =>
          (lookupBy statsKey (old.dropWhile fun e => e.uid < u) v.toNat).getD (.fresh v) := by
      refine List.map_congr_left fun v hv => ?_
      rw [lookupBy_dropWhile_lt]
      rcases List.mem_cons.1 hv with rfl | hv
      · exact Nat.le_refl _
      · exact Nat.le_of_lt (hlt v hv)
    rw [hlook, carryStats]
    generalize (old.dropWhile fun e => e.uid < u) = tail at *
    cases tail with
    | nil => rw [ih hus StrictBy.nil]; rfl
    | cons e rest =>
      obtain ⟨hrest, hsorted'⟩ := List.pairwise_cons.1 hsorted
      dsimp only
      by_cases he : e.uid = u
      · have hfirst : lookupBy statsKey (e :: rest) u.toNat = some e :=
          List.find?_cons_of_pos (by simp [statsKey, he])
        rw [if_pos he, ih hus hsorted', List.map_cons, hfirst, Option.getD_some]
        refine congrArg (e :: ·) (List.map_congr_left fun v hv => ?_)
        have hne : statsKey e ≠ v.toNat := by
          have := hlt v hv
          show e.uid.toNat ≠ v.toNat
          rw [he]
          omega
        rw [lookupBy, lookupBy, List.find?_cons_of_neg (by simpa using hne)]
      · have hgt : u.toNat < statsKey e := by
          have hge := hhead e rfl
          rw [UInt32.lt_iff_toNat_lt] at hge
          have : e.uid.toNat ≠ u.toNat := fun h => he (UInt32.toNat_inj.1 h)
          show u.toNat < e.uid.toNat
          omega
        have hnone : lookupBy statsKey (e :: rest) u.toNat = none := by
          refine lookupBy_eq_none.2 fun x hx => ?_
          have := hsorted.head_le x hx
          omega
        rw [if_neg he, ih hus hsorted, List.map_cons, hnone, Option.getD_none]

/-- With room for the whole table, the filtering loop is a filter. -/
theorem keepStats_eq_filter {s : PolicySnapshot} {room : ℕ} {es : List UidStats} (h : es.length ≤ room) :
    keepStats s room es = es.filter fun e => policyUidHasStats s e.uid := by
  induction es generalizing room with
  | nil => rw [keepStats, List.filter_nil]
  | cons e rest ih =>
    cases room with
    | zero => simp at h
    | succ room =>
      rw [List.length_cons] at h
      rw [keepStats, List.filter_cons]
      by_cases he : policyUidHasStats s e.uid = true
      · rw [if_pos he, if_pos he, ih (by omega)]
      · rw [if_neg he, if_neg he, ih (by omega)]

/-! ### The population -/

/-- Without an inverted layer, the predicate accepts eligible uids of the two lists, and those of targets with rules. -/
theorem policyUidHasStats_iff {s : PolicySnapshot} (hs : s.WF) (hinv : policyHasInvertedStatsLayer s = false)
    (uid : UInt32) :
    policyUidHasStats s uid ↔ UidEligible uid ∧ (uid ∈ s.kmodUids ∨ uid ∈ s.lsposedUids) ∨
      ∃ p ∈ s.portTargets, p.mode ≠ portPolicyUnrestricted ∧ p.uid = uid := by
  simp only [policyHasInvertedStatsLayer, Bool.or_eq_false_iff, decide_eq_false_iff_not] at hinv
  obtain ⟨⟨hk, hl⟩, hp⟩ := hinv
  have hlist : (vpnhideUidMatchesMode s.kmodUids s.kmodMatchMode uid ||
      vpnhideUidMatchesMode s.lsposedUids s.lsposedMatchMode uid) = true ↔
      UidEligible uid ∧ (uid ∈ s.kmodUids ∨ uid ∈ s.lsposedUids) := by
    rw [Bool.or_eq_true, vpnhideUidMatchesMode_iff hs.kmod hs.kmod_small, if_neg hk,
      vpnhideUidMatchesMode_iff hs.lsposed hs.lsposed_small, if_neg hl, and_or_left]
  rw [policyUidHasStats, searchElem_eq_lookupBy midOffset_ok hs.targets hs.targets_small]
  by_cases h : (vpnhideUidMatchesMode s.kmodUids s.kmodMatchMode uid ||
      vpnhideUidMatchesMode s.lsposedUids s.lsposedMatchMode uid) = true
  · rw [if_pos h]
    exact iff_of_true rfl (.inl (hlist.1 h))
  rw [if_neg h, or_iff_right (mt hlist.2 h)]
  cases hfind : lookupBy targetKey s.portTargets uid.toNat with
  | none =>
    rw [lookupBy_eq_none] at hfind
    simp only [hp, decide_false, Bool.false_and, Bool.false_eq_true, false_iff, not_exists, not_and]
    rintro p hmem - rfl
    exact hfind p hmem rfl
  | some t =>
    obtain ⟨hmem, hkey⟩ := mem_of_lookupBy hfind
    have huid : t.uid = uid := UInt32.toNat_inj.1 hkey
    rw [decide_eq_true_iff]
    refine ⟨fun hm => ⟨t, hmem, hm, huid⟩, ?_⟩
    rintro ⟨p, hmem', hm, rfl⟩
    have hsame : lookupBy targetKey s.portTargets p.uid.toNat = some p :=
      lookupBy_of_mem hs.targets.nodup hmem'
    obtain rfl := Option.some.inj (hfind.symm.trans hsame)
    exact hm

/-- Whatever the predicate accepts, the merge collects. -/
theorem counted_of_policyUidHasStats {s : PolicySnapshot} (hs : s.WF) (hinv : policyHasInvertedStatsLayer s = false)
    {uid : UInt32} (h : policyUidHasStats s uid) : Counted s.kmodUids s.lsposedUids s.portTargets uid := by
  rcases (policyUidHasStats_iff hs hinv uid).1 h with ⟨-, h | h⟩ | h
  · exact .inl h
  · exact .inr (.inl h)
  · exact .inr (.inr h)

/-- No list names a uid that the kernel would not act on. -/
structure ListsEligible (s : PolicySnapshot) : Prop where
  kmod : ∀ uid ∈ s.kmodUids, UidEligible uid
  lsposed : ∀ uid ∈ s.lsposedUids, UidEligible uid
  targets : ∀ t ∈ s.portTargets, UidEligible t.uid

theorem policyUidHasStats_iff_counted {s : PolicySnapshot} (hs : s.WF) (hel : ListsEligible s)
    (hinv : policyHasInvertedStatsLayer s = false) (uid : UInt32) :
    policyUidHasStats s uid ↔ Counted s.kmodUids s.lsposedUids s.portTargets uid := by
  refine ⟨counted_of_policyUidHasStats hs hinv, fun h => (policyUidHasStats_iff hs hinv uid).2 ?_⟩
  rcases h with h | h | h
  · exact .inl ⟨hel.kmod uid h, .inl h⟩
  · exact .inl ⟨hel.lsposed uid h, .inr h⟩
  · exact .inr h

/-! ### The rebuilt table -/

section Rebuilt
variable {s : PolicySnapshot} {t : StatsTable}

theorem kmodStatsReconcile_inverted (hinv : policyHasInvertedStatsLayer s = true)
    (hlen : t.entries.length ≤ uidStatsCapacity) :
    kmodStatsReconcile true s t =
      .ok ⟨t.entries.filter fun e => policyUidHasStats s e.uid, reconcileCapacity s⟩ := by
  have hcap : reconcileCapacity s = uidStatsCapacity := by simp [reconcileCapacity, hinv]
  have hkeep : keepStats s (reconcileCapacity s) t.entries = _ := keepStats_eq_filter (hcap ▸ hlen)
  simp [kmodStatsReconcile, hinv, hkeep]

theorem kmodStatsReconcile_merged (hs : s.WF) (hinv : policyHasInvertedStatsLayer s = false)
    (ht : StrictBy statsKey t.entries) :
    kmodStatsReconcile true s t =
      .ok ⟨(mergeUids (reconcileCapacity s) s.kmodUids s.lsposedUids s.portTargets).map
        fun u => (lookupBy statsKey t.entries u.toNat).getD (.fresh u), reconcileCapacity s⟩ := by
  have hmerge := (mergeUids_spec (reconcileCapacity s) ⟨hs.kmod, hs.lsposed, hs.targets⟩).1
  simp [kmodStatsReconcile, hinv, carryStats_eq_map hmerge ht]

/-- The merge collects exactly the uids that the predicate accepts. -/
theorem mem_mergeUids_iff (hs : s.WF) (hel : ListsEligible s) (hfit : FitsStats s) (uid : UInt32) :
    uid ∈ mergeUids (reconcileCapacity s) s.kmodUids s.lsposedUids s.portTargets ↔
      policyUidHasStats s uid := by
  obtain ⟨-, -, hsound, hcomplete⟩ :=
    mergeUids_spec (reconcileCapacity s) ⟨hs.kmod, hs.lsposed, hs.targets⟩
  rw [policyUidHasStats_iff_counted hs hel hfit.1]
  refine ⟨hsound uid, hcomplete (Nat.le_of_eq ?_) uid⟩
  simp [reconcileCapacity, hfit.1, Nat.not_lt.2 hfit.2]

theorem carried_uid (old : List UidStats) (u : UInt32) :
    ((lookupBy statsKey old u.toNat).getD (.fresh u)).uid = u := by
  cases hfind : lookupBy statsKey old u.toNat with
  | none => rfl
  | some e => exact UInt32.toNat_inj.1 (mem_of_lookupBy hfind).2

theorem lookupBy_map_carried {us : List UInt32} {old : List UidStats} (hus : us.Nodup) {uid : UInt32}
    (hmem : uid ∈ us) :
    lookupBy statsKey (us.map fun u => (lookupBy statsKey old u.toNat).getD (.fresh u)) uid.toNat =
      some ((lookupBy statsKey old uid.toNat).getD (.fresh uid)) := by
  have hkey (u : UInt32) : statsKey ((lookupBy statsKey old u.toNat).getD (.fresh u)) = u.toNat :=
    congrArg UInt32.toNat (carried_uid old u)
  rw [lookupBy_map _ hkey, lookupBy_of_mem (nodup_map_toNat.2 hus) hmem, Option.map_some]

theorem kmodStatsReconcile_allocated {kvmalloc : Bool} {t' : StatsTable}
    (h : kmodStatsReconcile kvmalloc s t = .ok t') :
    kmodStatsReconcile true s t = .ok t' := by
  unfold kmodStatsReconcile at h ⊢
  dsimp only at h ⊢
  by_cases halloc : reconcileCapacity s ≠ 0 ∧ (!kvmalloc) = true
  · rw [if_pos halloc] at h
    cases h
  · rw [if_neg halloc] at h
    rw [if_neg (by simp)]
    exact h

/-- With room for everything, a uid loses its counters only where the predicate rejects it. -/
theorem kmodStatsReconcile_countersOf {kvmalloc : Bool} {t' : StatsTable} (h : kmodStatsReconcile kvmalloc s t = .ok t')
    (hs : s.WF) (ht : t.WF) (hfit : policyHasInvertedStatsLayer s = true ∨
      s.kmodUids.length + s.lsposedUids.length + s.portTargets.length ≤ uidStatsCapacity) (uid : UInt32) :
    t'.countersOf uid = t.countersOf uid ∨ ¬ policyUidHasStats s uid ∧ t'.countersOf uid = .zero := by
  replace h := kmodStatsReconcile_allocated h
  unfold StatsTable.countersOf
  cases hinv : policyHasInvertedStatsLayer s with
  | true =>
    rw [kmodStatsReconcile_inverted hinv (ht.count_le.trans ht.capacity_le)] at h
    cases h
    rw [lookupBy, List.find?_filter]
    by_cases hhas : policyUidHasStats s uid
    · refine .inl (congrArg (Option.elim · _ _) (congrArg (List.find? · t.entries) (funext fun e => ?_)))
      by_cases hkey : statsKey e = uid.toNat
      · simp [hkey, UInt32.toNat_inj.1 hkey, hhas]
      · simp [hkey]
    · refine .inr ⟨hhas, ?_⟩
      rw [List.find?_eq_none.2]
      · rfl
      · intro e _ he
        rw [decide_eq_true_iff, beq_iff_eq] at he
        exact hhas (UInt32.toNat_inj.1 he.2 ▸ he.1)
  | false =>
    obtain ⟨hsorted, -, -, hcomplete⟩ := mergeUids_spec (reconcileCapacity s) ⟨hs.kmod, hs.lsposed, hs.targets⟩
    rw [kmodStatsReconcile_merged hs hinv ht.sorted] at h
    cases h
    by_cases hmem : uid ∈ mergeUids (reconcileCapacity s) s.kmodUids s.lsposedUids s.portTargets
    · rw [lookupBy_map_carried (.of_map _ hsorted.nodup) hmem]
      cases lookupBy statsKey t.entries uid.toNat <;> exact .inl rfl
    · have hlen := hfit.resolve_left (Bool.eq_false_iff.1 hinv)
      refine .inr ⟨fun hhas => hmem (hcomplete (Nat.le_of_eq ?_) uid (counted_of_policyUidHasStats hs hinv hhas)), ?_⟩
      · simp [reconcileCapacity, hinv, Nat.not_lt.2 hlen]
      · rw [lookupBy_eq_none.2]
        · rfl
        · intro e he hkey
          obtain ⟨u, hu, rfl⟩ := List.mem_map.1 he
          rw [statsKey, carried_uid, UInt32.toNat_inj] at hkey
          exact hmem (hkey ▸ hu)

end Rebuilt

/-- Reconciling a sorted table with a well-formed policy of eligible uids, inverted or with lists that fit the
table: an entry whose uid `policy_uid_has_stats` accepts keeps all its counters, and no other uid has an
entry; without an inverted layer every accepted uid has one, a new one at zero. -/
theorem kmodStatsReconcile_preserves {s : PolicySnapshot} {t : StatsTable} (hs : s.WF) (hel : ListsEligible s)
    (hfit : policyHasInvertedStatsLayer s = true ∨
      s.kmodUids.length + s.lsposedUids.length + s.portTargets.length ≤ uidStatsCapacity)
    (ht : StrictBy statsKey t.entries) (hlen : t.entries.length ≤ uidStatsCapacity) :
    ∃ t', kmodStatsReconcile true s t = .ok t' ∧
      (∀ uid e, lookupBy statsKey t.entries uid.toNat = some e → policyUidHasStats s uid →
        lookupBy statsKey t'.entries uid.toNat = some e) ∧
      (∀ uid, ¬ policyUidHasStats s uid → uid ∉ t'.uids) ∧
      (policyHasInvertedStatsLayer s = false → ∀ uid, (uid ∈ t'.uids ↔ policyUidHasStats s uid) ∧
        (uid ∉ t.uids → policyUidHasStats s uid →
          lookupBy statsKey t'.entries uid.toNat = some (.fresh uid))) := by
  cases hinv : policyHasInvertedStatsLayer s with
  | true =>
    refine ⟨_, kmodStatsReconcile_inverted hinv hlen, ?_, ?_, fun h => by cases h⟩
    · intro uid e he hstats
      obtain ⟨hmem, hkey⟩ := mem_of_lookupBy he
      obtain rfl : e.uid = uid := UInt32.toNat_inj.1 hkey
      exact lookupBy_of_mem (ht.sublist List.filter_sublist).nodup (List.mem_filter.2 ⟨hmem, hstats⟩)
    · intro uid hstats hmem
      obtain ⟨e, he, rfl⟩ := List.mem_map.1 hmem
      exact hstats (List.mem_filter.1 he).2
  | false =>
    have hfits : FitsStats s := ⟨hinv, hfit.resolve_left (by rw [hinv]; nofun)⟩
    have hmem := mem_mergeUids_iff hs hel hfits
    have hnodup : (mergeUids (reconcileCapacity s) s.kmodUids s.lsposedUids s.portTargets).Nodup :=
      .of_map _ (mergeUids_spec (reconcileCapacity s) ⟨hs.kmod, hs.lsposed, hs.targets⟩).1.nodup
    have huids : StatsTable.uids ⟨(mergeUids (reconcileCapacity s) s.kmodUids s.lsposedUids s.portTargets).map
        fun u => (lookupBy statsKey t.entries u.toNat).getD (.fresh u), reconcileCapacity s⟩ =
        mergeUids (reconcileCapacity s) s.kmodUids s.lsposedUids s.portTargets := by
      simp [StatsTable.uids, Function.comp_def, carried_uid]
    refine ⟨_, kmodStatsReconcile_merged hs hinv ht, ?_, ?_, ?_⟩
    · intro uid e he hstats
      rw [lookupBy_map_carried hnodup ((hmem uid).2 hstats), he, Option.getD_some]
    · intro uid hstats
      rw [huids, hmem]
      exact hstats
    · intro _ uid
      refine ⟨by rw [huids, hmem], fun hnew hstats => ?_⟩
      have hnone : lookupBy statsKey t.entries uid.toNat = none := by
        refine lookupBy_eq_none.2 fun e he hkey => hnew ?_
        exact List.mem_map.2 ⟨e, he, UInt32.toNat_inj.1 hkey⟩
      rw [lookupBy_map_carried hnodup ((hmem uid).2 hstats), hnone, Option.getD_none]

/-- Overlapping lists and an unrestricted target. -/
def overlappingPolicy : PolicySnapshot where
  activeHooksMask := portHookMask
  javaHooksMask := 0
  debugEnabled := 0
  flags := 0
  kmodMatchMode := matchInclude
  lsposedMatchMode := matchInclude
  portMatchMode := matchInclude
  ifacePrefixes := ⟨0, Vector.replicate _ (Vector.replicate _ 0)⟩
  kmodUids := [10100, 10200]
  lsposedUids := [10200, 10300]
  portTargets := [⟨10300, 0, 0, portPolicyDenyAll, Vector.replicate 3 0⟩,
    ⟨10400, 0, 0, portPolicyUnrestricted, Vector.replicate 3 0⟩]
  portRules := []
  appHookMasks := []

theorem overlappingPolicy_wf : overlappingPolicy.WF := by
  constructor <;> first | decide | (unfold StrictBy; decide) | (unfold KeepsPortHooks; decide)

theorem kmodStatsReconcile_preserves_sample :
    ∃ t', kmodStatsReconcile true overlappingPolicy
        ⟨[⟨10200, { StatsCounters.zero with connect := 5 }⟩, ⟨10400, .zero⟩], 16⟩ = .ok t' ∧
      lookupBy statsKey t'.entries 10200 = some ⟨10200, { StatsCounters.zero with connect := 5 }⟩ ∧
      lookupBy statsKey t'.entries 10300 = some (.fresh 10300) ∧ 10400 ∉ t'.uids := by
  have hel : ListsEligible overlappingPolicy := by
    refine ⟨fun uid huid => ?_, fun uid huid => ?_, by decide⟩
    · rcases List.mem_pair.1 huid with rfl | rfl <;> decide
    · rcases List.mem_pair.1 huid with rfl | rfl <;> decide
  obtain ⟨t', hrun, hkeep, hdrop, hmerged⟩ := kmodStatsReconcile_preserves overlappingPolicy_wf hel
    (.inr (by decide)) (t := ⟨[⟨10200, { StatsCounters.zero with connect := 5 }⟩, ⟨10400, .zero⟩], 16⟩)
    (by unfold StrictBy; decide) (by decide)
  exact ⟨t', hrun, hkeep 10200 _ (by decide) (by decide),
    (hmerged (by decide) 10300).2 (by decide) (by decide), hdrop 10400 (by decide)⟩

end VpnHide
