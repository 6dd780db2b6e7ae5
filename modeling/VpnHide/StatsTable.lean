import VpnHide.Stats

/-!
# The statistics table keeps its order

`StatsTable.WF`: strictly increasing uids, no more entries than slots, at most 4096 slots. Every
operation keeps it, none removes a uid except a reconcile, and a reconcile without an inverted layer
gives every uid of the policy an entry.
-/

namespace VpnHide

structure StatsTable.WF (t : StatsTable) : Prop where
  sorted : StrictBy statsKey t.entries
  count_le : t.entries.length ≤ t.capacity
  capacity_le : t.capacity ≤ uidStatsCapacity

def StatsTable.uids (t : StatsTable) : List UInt32 := t.entries.map (·.uid)

theorem StatsTable.WF.small {t : StatsTable} (h : t.WF) : t.entries.length < 2 ^ 30 :=
  Nat.lt_of_le_of_lt (Nat.le_trans h.count_le h.capacity_le) (by decide)

theorem strictBy_statsKey_iff {es : List UidStats} :
    StrictBy statsKey es ↔ StrictBy UInt32.toNat (es.map (·.uid)) := by
  rw [StrictBy, StrictBy, List.pairwise_map]; rfl

@[simp] theorem UidStats.count_uid (f : StatsCounters → StatsCounters) (e : UidStats) :
    (e.count f).uid = e.uid := rfl

/-! ### Recording -/

section Upsert
variable {t : StatsTable} (uid : UInt32) (mayInsert : Bool) (f : StatsCounters → StatsCounters)

theorem upsertStats_cases (h : t.WF) :
    (∃ i e, t.entries[i]? = some e ∧ e.uid = uid ∧
      upsertStats t uid mayInsert f = { t with entries := t.entries.modify i (UidStats.count f) }) ∨
    (uid ∉ t.uids ∧ (∃ lo, (∀ y ∈ t.entries.take lo, statsKey y < uid.toNat) ∧
      (∀ y ∈ t.entries.drop lo, uid.toNat < statsKey y) ∧ (mayInsert = true ∧ t.entries.length < t.capacity) ∧
      upsertStats t uid mayInsert f =
        { t with entries := t.entries.take lo ++ (UidStats.fresh uid).count f :: t.entries.drop lo })) ∨
    (uid ∉ t.uids ∧ ¬ (mayInsert = true ∧ t.entries.length < t.capacity) ∧ upsertStats t uid mayInsert f = t) := by
  obtain ⟨r, hr, hspec⟩ := search_spec midOffset_ok h.sorted h.small uid.toNat
  cases r with
  | found i =>
    obtain ⟨e, he, hk⟩ := hspec
    exact .inl ⟨i, e, he, UInt32.toNat_inj.1 hk, by simp only [upsertStats, hr]⟩
  | absent lo =>
    obtain ⟨hlt, hgt⟩ := search_absent midOffset_ok h.sorted h.small hr
    have hnot : uid ∉ t.uids := by
      intro hmem
      obtain ⟨e, he, rfl⟩ := List.mem_map.1 hmem
      rw [← List.take_append_drop lo t.entries] at he
      rcases List.mem_append.1 he with he | he
      · exact Nat.lt_irrefl _ (hlt e he)
      · exact Nat.lt_irrefl _ (hgt e he)
    by_cases hroom : (mayInsert && t.entries.length < t.capacity) = true
    · refine .inr (.inl ⟨hnot, lo, hlt, hgt, ?_, by simp only [upsertStats, hr, if_pos hroom]⟩)
      rwa [Bool.and_eq_true, decide_eq_true_eq] at hroom
    · refine .inr (.inr ⟨hnot, ?_, by simp only [upsertStats, hr, if_neg hroom]⟩)
      rwa [Bool.and_eq_true, decide_eq_true_eq] at hroom

theorem map_uid_modify (es : List UidStats) (i : ℕ) :
    (es.modify i (UidStats.count f)).map (·.uid) = es.map (·.uid) := by
  apply List.ext_getElem?
  intro j
  rw [List.getElem?_map, List.getElem?_map, List.getElem?_modify]
  cases es[j]? with
  | none => rfl
  | some e => by_cases hij : i = j <;> simp [hij]

theorem upsertStats_wf (h : t.WF) : (upsertStats t uid mayInsert f).WF := by
  obtain ⟨i, e, -, -, heq⟩ | ⟨-, lo, hlt, hgt, hroom, heq⟩ | ⟨-, -, heq⟩ :=
    upsertStats_cases uid mayInsert f h <;> rw [heq]
  · refine ⟨?_, by simpa using h.count_le, h.capacity_le⟩
    rw [strictBy_statsKey_iff, map_uid_modify]
    exact strictBy_statsKey_iff.1 h.sorted
  · refine ⟨h.sorted.insert hlt hgt, ?_, h.capacity_le⟩
    have hlen := congrArg List.length (List.take_append_drop lo t.entries)
    have hroom := hroom.2
    simp only [List.length_append, List.length_cons] at hlen ⊢
    omega
  · exact h

theorem upsertStats_uids (h : t.WF) {u : UInt32} (hu : u ∈ t.uids) :
    u ∈ (upsertStats t uid mayInsert f).uids := by
  obtain ⟨i, e, -, -, heq⟩ | ⟨-, lo, -, -, -, heq⟩ | ⟨-, -, heq⟩ :=
    upsertStats_cases uid mayInsert f h <;> rw [heq]
  · rw [StatsTable.uids, map_uid_modify]; exact hu
  · rw [StatsTable.uids, ← List.take_append_drop lo t.entries, List.map_append] at hu
    simp only [StatsTable.uids, List.map_append, List.map_cons, List.mem_append, List.mem_cons]
    rcases List.mem_append.1 hu with hu | hu
    · exact .inl hu
    · exact .inr (.inr hu)
  · exact hu

theorem upsertStats_lookup (h : t.WF) {e : UidStats} (he : lookupBy statsKey t.entries uid.toNat = some e) :
    lookupBy statsKey (upsertStats t uid mayInsert f).entries uid.toNat = some (e.count f) := by
  have hmem := mem_of_lookupBy he
  have huid : uid ∈ t.uids := List.mem_map.2 ⟨e, hmem.1, UInt32.toNat_inj.1 hmem.2⟩
  obtain ⟨i, e', he', hk, heq⟩ | ⟨hnot, -⟩ | ⟨hnot, -⟩ :=
    upsertStats_cases uid mayInsert f h
  · have hsame : e' = e := by
      have h' := lookupBy_of_mem h.sorted.nodup (List.mem_of_getElem? he')
      rw [statsKey, hk, he] at h'
      exact (Option.some.inj h').symm
    subst hsame
    have hwf := upsertStats_wf uid mayInsert f h
    rw [lookupBy_eq_some hwf.sorted.nodup, heq]
    refine ⟨List.mem_of_getElem? (i := i) ?_, by rw [statsKey, UidStats.count_uid, hk]⟩
    simp [he']
  · exact absurd huid hnot
  · exact absurd huid hnot

/-- The counters of a uid, zero if it has no entry. -/
def StatsTable.countersOf (t : StatsTable) (uid : UInt32) : StatsCounters :=
  (lookupBy statsKey t.entries uid.toNat).elim .zero UidStats.counters

theorem lookupBy_modify_of_ne {es : List UidStats} {i : ℕ} {e : UidStats} (he : es[i]? = some e) {k : ℕ}
    (hk : statsKey e ≠ k) :
    lookupBy statsKey (es.modify i (UidStats.count f)) k = lookupBy statsKey es k := by
  induction es generalizing i with
  | nil => cases he
  | cons e' es ih =>
    cases i with
    | zero =>
      cases he
      rw [List.modify_zero_cons, lookupBy, lookupBy, List.find?_cons_of_neg (by simpa [statsKey] using hk),
        List.find?_cons_of_neg (by simpa using hk)]
    | succ i =>
      rw [List.modify_succ_cons, lookupBy, lookupBy, List.find?_cons, List.find?_cons]
      cases statsKey e' == k
      · exact ih he
      · rfl

/-- The counters of `uid` change, if it has an entry or gets one, and those of no other uid. -/
theorem upsertStats_countersOf (h : t.WF) (u : UInt32) :
    (upsertStats t uid mayInsert f).countersOf u =
      if u = uid ∧ (uid ∈ t.uids ∨ mayInsert = true ∧ t.entries.length < t.capacity) then f (t.countersOf uid)
      else t.countersOf u := by
  have hne {v : UInt32} (hu : u ≠ v) : v.toNat ≠ u.toNat := fun e => hu (UInt32.toNat_inj.1 e).symm
  have hnone (hnot : uid ∉ t.uids) : lookupBy statsKey t.entries uid.toNat = none :=
    lookupBy_eq_none.2 fun e he hkey => hnot (List.mem_map.2 ⟨e, he, UInt32.toNat_inj.1 hkey⟩)
  rcases upsertStats_cases uid mayInsert f h with
    ⟨i, e, he, rfl, heq⟩ | ⟨hnot, lo, -, -, hroom, heq⟩ | ⟨hnot, hroom, heq⟩
  · have hmem : e.uid ∈ t.uids := List.mem_map_of_mem (List.mem_of_getElem? he)
    by_cases hu : u = e.uid
    · have hlookup : lookupBy statsKey t.entries e.uid.toNat = some e :=
        lookupBy_of_mem h.sorted.nodup (List.mem_of_getElem? he)
      rw [if_pos ⟨hu, .inl hmem⟩, hu, StatsTable.countersOf, upsertStats_lookup _ _ _ h hlookup, StatsTable.countersOf,
        hlookup]
      rfl
    · rw [if_neg fun h => hu h.1, heq, StatsTable.countersOf, StatsTable.countersOf,
        lookupBy_modify_of_ne f he (hne hu)]
  · have hsplit := List.take_append_drop lo t.entries
    by_cases hu : u = uid
    · have hinserted : lookupBy statsKey (upsertStats t uid mayInsert f).entries uid.toNat =
          some ((UidStats.fresh uid).count f) := by
        refine (lookupBy_eq_some (upsertStats_wf uid mayInsert f h).sorted.nodup).2 ⟨?_, rfl⟩
        rw [heq]
        exact List.mem_append_right _ List.mem_cons_self
      rw [if_pos ⟨hu, .inr hroom⟩, hu, StatsTable.countersOf, hinserted, StatsTable.countersOf, hnone hnot]
      rfl
    · rw [if_neg fun h => hu h.1, heq, StatsTable.countersOf, StatsTable.countersOf]
      refine congrArg (Option.elim · _ _) ?_
      show lookupBy statsKey (_ ++ _ :: _) _ = _
      rw [← hsplit, lookupBy, lookupBy, List.find?_append, List.find?_append, List.take_append_drop,
        List.find?_cons_of_neg (by simpa [statsKey, UidStats.fresh] using hne hu)]
  · rw [if_neg fun h => h.2.elim hnot hroom, heq]

end Upsert

/-! ### Merging the lists of a policy -/

section Merge
variable {ks ls : List UInt32} {ps : List PortTargetV3}

/-- A uid that a policy without inverted layers counts. -/
def Counted (ks ls : List UInt32) (ps : List PortTargetV3) (u : UInt32) : Prop :=
  u ∈ ks ∨ u ∈ ls ∨ ∃ p ∈ ps, p.mode ≠ portPolicyUnrestricted ∧ p.uid = u

structure MergeSorted (ks ls : List UInt32) (ps : List PortTargetV3) : Prop where
  ks : StrictBy UInt32.toNat ks
  ls : StrictBy UInt32.toNat ls
  ps : StrictBy targetKey ps

theorem foldl_takeNext_eq_some {heads : List (Option UInt32)} {next : Option UInt32} {r : UInt32}
    (h : heads.foldl takeNext next = some r) :
    (next = some r ∨ some r ∈ heads) ∧ (∀ n, next = some n → r.toNat ≤ n.toNat) ∧
      ∀ u, some u ∈ heads → r.toNat ≤ u.toNat := by
  induction heads generalizing next with
  | nil =>
    obtain rfl : next = some r := h
    simp
  | cons head rest ih =>
    obtain ⟨hsrc, hnext, hrest⟩ := ih h
    cases head with
    | none =>
      refine ⟨hsrc.imp_right (List.mem_cons_of_mem _), hnext, fun u hu => hrest u ?_⟩
      simpa using hu
    | some u =>
      cases next with
      | none =>
        refine ⟨.inr ?_, by simp, fun v hv => ?_⟩
        · rcases hsrc with hsrc | hsrc
          · rw [← hsrc]; simp [takeNext]
          · exact List.mem_cons_of_mem _ hsrc
        · rcases List.mem_cons.1 hv with hv | hv
          · exact hnext v (by rw [hv]; rfl)
          · exact hrest v hv
      | some n =>
        -- the smaller of `u` and `n` goes on
        by_cases hlt : u < n
        · have hstep : takeNext (some n) (some u) = some u := if_pos hlt
          have hu := hnext u hstep
          rw [UInt32.lt_iff_toNat_lt] at hlt
          rw [hstep] at hsrc
          refine ⟨.inr (List.mem_cons.2 (hsrc.imp_left Eq.symm)), fun m hm => ?_, fun v hv => ?_⟩
          · obtain rfl := Option.some.inj hm; omega
          · rcases List.mem_cons.1 hv with hv | hv
            · obtain rfl := Option.some.inj hv; exact hu
            · exact hrest v hv
        · have hstep : takeNext (some n) (some u) = some n := if_neg hlt
          have hn := hnext n hstep
          rw [UInt32.lt_iff_toNat_lt] at hlt
          rw [hstep] at hsrc
          refine ⟨hsrc.imp_right (List.mem_cons_of_mem _), fun m hm => ?_, fun v hv => ?_⟩
          · obtain rfl := Option.some.inj hm; exact hn
          · rcases List.mem_cons.1 hv with hv | hv
            · obtain rfl := Option.some.inj hv; omega
            · exact hrest v hv

theorem foldl_takeNext_eq_none {heads : List (Option UInt32)} {next : Option UInt32}
    (h : heads.foldl takeNext next = none) : next = none ∧ ∀ head ∈ heads, head = none := by
  induction heads generalizing next with
  | nil => exact ⟨h, by simp⟩
  | cons head rest ih =>
    obtain ⟨hstep, hrest⟩ := ih h
    cases head with
    | none => exact ⟨hstep, by simpa using hrest⟩
    | some u =>
      cases next with
      | none => simp [takeNext] at hstep
      | some n => simp only [takeNext] at hstep; split at hstep <;> simp at hstep

theorem counted_dropWhile {u : UInt32} :
    Counted ks ls (ps.dropWhile fun p => p.mode = portPolicyUnrestricted) u ↔ Counted ks ls ps u := by
  have key : (∃ p ∈ ps.dropWhile (fun p => p.mode = portPolicyUnrestricted),
      p.mode ≠ portPolicyUnrestricted ∧ p.uid = u) ↔
      ∃ p ∈ ps, p.mode ≠ portPolicyUnrestricted ∧ p.uid = u := by
    induction ps with
    | nil => simp
    | cons p rest ih =>
      by_cases hp : p.mode = portPolicyUnrestricted
      · rw [List.dropWhile_cons_of_pos (by simpa using hp), ih]
        simp [hp]
      · rw [List.dropWhile_cons_of_neg (by simpa using hp)]
  simp only [Counted, key]

structure IsNext (ks ls : List UInt32) (ps : List PortTargetV3) (n : UInt32) : Prop where
  source : ks.head? = some n ∨ ls.head? = some n ∨ ps.head?.map (·.uid) = some n
  ks_le : ∀ u ∈ ks, n.toNat ≤ u.toNat
  ls_le : ∀ u ∈ ls, n.toNat ≤ u.toNat
  ps_le : ∀ p ∈ ps, n.toNat ≤ targetKey p

theorem isNext_of_foldl (hs : MergeSorted ks ls ps) {n : UInt32}
    (h : [ks.head?, ls.head?, ps.head?.map (·.uid)].foldl takeNext none = some n) : IsNext ks ls ps n := by
  obtain ⟨hsrc, -, hle⟩ := foldl_takeNext_eq_some h
  have hmin {α : Type} {key : α → ℕ} {xs : List α} (hx : StrictBy key xs)
      (hhead : ∀ x, xs.head? = some x → n.toNat ≤ key x) : ∀ x ∈ xs, n.toNat ≤ key x := by
    cases xs with
    | nil => simp
    | cons x rest => exact fun y hy => Nat.le_trans (hhead x rfl) (hx.head_le y hy)
  refine ⟨by simpa [eq_comm] using hsrc, hmin hs.ks fun u hu => hle u (by simp [hu]),
    hmin hs.ls fun u hu => hle u (by simp [hu]), hmin hs.ps fun p hp => hle p.uid (by simp [hp])⟩

theorem decide_uid_eq (u n : UInt32) : decide (u = n) = (u.toNat == n.toNat) := by
  rw [Bool.eq_iff_iff]; simp [UInt32.toNat_inj]

theorem dropWhile_uid (xs : List UInt32) (n : UInt32) :
    (xs.dropWhile fun u => u = n) = xs.dropWhile fun u => u.toNat == n.toNat := by
  simp only [decide_uid_eq]

theorem dropWhile_target (ps : List PortTargetV3) (n : UInt32) :
    (ps.dropWhile fun p => p.uid = n) = ps.dropWhile fun p => targetKey p == n.toNat := by
  simp only [decide_uid_eq, targetKey]

theorem counted_skip (hs : MergeSorted ks ls ps) {n u : UInt32} (hn : IsNext ks ls ps n) :
    Counted (ks.dropWhile fun u => u = n) (ls.dropWhile fun u => u = n) (ps.dropWhile fun p => p.uid = n) u ↔
      Counted ks ls ps u ∧ u ≠ n := by
  have hps (p : PortTargetV3) := mem_dropWhile_key hs.ps hn.ps_le (y := p)
  rw [dropWhile_uid, dropWhile_uid, dropWhile_target]
  simp only [Counted, mem_dropWhile_key hs.ks hn.ks_le, mem_dropWhile_key hs.ls hn.ls_le, hps, ne_eq,
    UInt32.toNat_inj]
  constructor
  · rintro (⟨h, hne⟩ | ⟨h, hne⟩ | ⟨p, ⟨h, hne⟩, hm, rfl⟩)
    · exact ⟨.inl h, hne⟩
    · exact ⟨.inr (.inl h), hne⟩
    · exact ⟨.inr (.inr ⟨p, h, hm, rfl⟩), fun e => hne (congrArg UInt32.toNat e)⟩
  · rintro ⟨h | h | ⟨p, h, hm, rfl⟩, hne⟩
    · exact .inl ⟨h, hne⟩
    · exact .inr (.inl ⟨h, hne⟩)
    · exact .inr (.inr ⟨p, ⟨h, fun e => hne (UInt32.toNat_inj.1 e)⟩, hm, rfl⟩)

theorem MergeSorted.skip (hs : MergeSorted ks ls ps) (n : UInt32) :
    MergeSorted (ks.dropWhile fun u => u = n) (ls.dropWhile fun u => u = n) (ps.dropWhile fun p => p.uid = n) :=
  ⟨hs.ks.sublist (List.dropWhile_sublist _), hs.ls.sublist (List.dropWhile_sublist _),
    hs.ps.sublist (List.dropWhile_sublist _)⟩

theorem IsNext.le_of_counted {n u : UInt32} (hn : IsNext ks ls ps n) (h : Counted ks ls ps u) :
    n.toNat ≤ u.toNat := by
  rcases h with h | h | ⟨p, h, -, rfl⟩
  · exact hn.ks_le u h
  · exact hn.ls_le u h
  · exact hn.ps_le p h

theorem IsNext.skip_length {n : UInt32} (hn : IsNext ks ls ps n) :
    (ks.dropWhile fun u => u = n).length + (ls.dropWhile fun u => u = n).length +
      (ps.dropWhile fun p => p.uid = n).length < ks.length + ls.length + ps.length := by
  have hks := (List.dropWhile_sublist (fun u => decide (u = n)) (l := ks)).length_le
  have hls := (List.dropWhile_sublist (fun u => decide (u = n)) (l := ls)).length_le
  have hps := (List.dropWhile_sublist (fun p => decide (p.uid = n)) (l := ps)).length_le
  rcases hn.source with h | h | h
  · have := length_dropWhile_key h (rfl : n.toNat = n.toNat)
    rw [← dropWhile_uid] at this
    omega
  · have := length_dropWhile_key h (rfl : n.toNat = n.toNat)
    rw [← dropWhile_uid] at this
    omega
  · obtain ⟨p, hp, rfl⟩ := Option.map_eq_some_iff.1 h
    have := length_dropWhile_key hp (rfl : targetKey p = targetKey p)
    rw [show targetKey p = p.uid.toNat from rfl, ← dropWhile_target] at this
    omega

theorem IsNext.counted {n : UInt32} (hn : IsNext ks ls ps n)
    (hp : ∀ p, ps.head? = some p → p.mode ≠ portPolicyUnrestricted) : Counted ks ls ps n := by
  rcases hn.source with h | h | h
  · exact .inl (List.mem_of_mem_head? h)
  · exact .inr (.inl (List.mem_of_mem_head? h))
  · obtain ⟨p, hh, rfl⟩ := Option.map_eq_some_iff.1 h
    exact .inr (.inr ⟨p, List.mem_of_mem_head? hh, hp p hh, rfl⟩)

/-- The merge is strictly increasing, holds only counted uids, and with enough room all of them. -/
theorem mergeUids_spec (room : ℕ) (hs : MergeSorted ks ls ps) :
    StrictBy UInt32.toNat (mergeUids room ks ls ps) ∧ (mergeUids room ks ls ps).length ≤ room ∧
    (∀ u ∈ mergeUids room ks ls ps, Counted ks ls ps u) ∧
    (ks.length + ls.length + ps.length ≤ room → ∀ u, Counted ks ls ps u → u ∈ mergeUids room ks ls ps) := by
  induction room generalizing ks ls ps with
  | zero =>
    refine ⟨StrictBy.nil, by simp [mergeUids], by simp [mergeUids], fun hlen u hu => ?_⟩
    obtain ⟨rfl, rfl, rfl⟩ : ks = [] ∧ ls = [] ∧ ps = [] := by
      simp only [← List.length_eq_zero_iff]; omega
    simp [Counted] at hu
  | succ room ih =>
    have hunr (u : UInt32) : Counted ks ls (ps.dropWhile fun p => p.mode = portPolicyUnrestricted) u ↔
        Counted ks ls ps u := counted_dropWhile
    have hhead : ∀ p, (ps.dropWhile fun p => p.mode = portPolicyUnrestricted).head? = some p →
        p.mode ≠ portPolicyUnrestricted := by
      intro p hp
      have := List.head?_dropWhile_not (fun p : PortTargetV3 => decide (p.mode = portPolicyUnrestricted)) ps
      simpa [hp] using this
    have hle := (List.dropWhile_sublist (fun p => decide (p.mode = portPolicyUnrestricted)) (l := ps)).length_le
    have hs' : MergeSorted ks ls (ps.dropWhile fun p => p.mode = portPolicyUnrestricted) :=
      ⟨hs.ks, hs.ls, hs.ps.sublist (List.dropWhile_sublist _)⟩
    simp only [mergeUids, ← hunr]
    generalize (ps.dropWhile fun p => p.mode = portPolicyUnrestricted) = ps' at *
    cases hnext : [ks.head?, ls.head?, ps'.head?.map (·.uid)].foldl takeNext none with
    | none =>
      obtain ⟨hk, hl, hp⟩ : ks = [] ∧ ls = [] ∧ ps' = [] := by
        simpa using (foldl_takeNext_eq_none hnext).2
      subst hk hl hp
      exact ⟨StrictBy.nil, by simp, by simp, by simp [Counted]⟩
    | some n =>
      have hn := isNext_of_foldl hs' hnext
      have hskip (u : UInt32) := counted_skip hs' hn (u := u)
      have hshort := hn.skip_length
      obtain ⟨hsorted, hlen, hsound, hcomplete⟩ := ih (hs'.skip n)
      refine ⟨List.pairwise_cons.2 ⟨fun u hu => ?_, hsorted⟩, by simp; omega, fun u hu => ?_,
        fun hroom u hu => ?_⟩
      · obtain ⟨hc, hne⟩ := (hskip u).1 (hsound u hu)
        have hge := hn.le_of_counted hc
        have : n.toNat ≠ u.toNat := fun e => hne (UInt32.toNat_inj.1 e).symm
        omega
      · rcases List.mem_cons.1 hu with rfl | hu
        · exact hn.counted hhead
        · exact ((hskip u).1 (hsound u hu)).1
      · by_cases hun : u = n
        · exact hun ▸ List.mem_cons_self
        · exact List.mem_cons_of_mem _ (hcomplete (by omega) u ((hskip u).2 ⟨hu, hun⟩))

end Merge

/-! ### Reconciling -/

@[simp] theorem map_uid_carryStats (us : List UInt32) (old : List UidStats) :
    (carryStats us old).map (·.uid) = us := by
  induction us generalizing old with
  | nil => rfl
  | cons u us ih =>
    rw [carryStats]
    split
    · rw [List.map_cons, ih]; rfl
    · rename_i e rest _
      by_cases he : e.uid = u
      · rw [if_pos he, List.map_cons, ih, he]
      · rw [if_neg he, List.map_cons, ih]; rfl

theorem keepStats_sublist (s : PolicySnapshot) (room : ℕ) (es : List UidStats) :
    (keepStats s room es).Sublist es ∧ (keepStats s room es).length ≤ room := by
  induction es generalizing room with
  | nil => simp [keepStats]
  | cons e rest ih =>
    cases room with
    | zero => simp [keepStats]
    | succ room =>
      rw [keepStats]
      split
      · exact ⟨(ih room).1.cons_cons e, by simpa using (ih room).2⟩
      · exact ⟨(ih (room + 1)).1.cons e, (ih (room + 1)).2⟩

theorem reconcileCapacity_le (s : PolicySnapshot) : reconcileCapacity s ≤ uidStatsCapacity := by
  simp only [reconcileCapacity]
  split
  · exact Nat.le_refl _
  · rename_i h
    simp only [Bool.or_eq_true, decide_eq_true_eq, not_or, not_lt] at h
    exact h.2

/-- The lists of `s` all fit into the table. -/
def FitsStats (s : PolicySnapshot) : Prop :=
  policyHasInvertedStatsLayer s = false ∧
    s.kmodUids.length + s.lsposedUids.length + s.portTargets.length ≤ uidStatsCapacity

instance (s : PolicySnapshot) : Decidable (FitsStats s) := inferInstanceAs (Decidable (_ ∧ _))

section Reconcile
variable {kvmalloc : Bool} {s : PolicySnapshot} {t t' : StatsTable}

theorem kmodStatsReconcile_wf (h : kmodStatsReconcile kvmalloc s t = .ok t') (hs : s.WF) (ht : t.WF) :
    t'.WF := by
  have hmerge := mergeUids_spec (reconcileCapacity s) ⟨hs.kmod, hs.lsposed, hs.targets⟩
  simp only [kmodStatsReconcile] at h
  split at h
  · cases h
  split at h <;> obtain rfl := Except.ok.inj h
  · have hkeep := keepStats_sublist s (reconcileCapacity s) t.entries
    exact ⟨ht.sorted.sublist hkeep.1, hkeep.2, reconcileCapacity_le s⟩
  · refine ⟨?_, ?_, reconcileCapacity_le s⟩
    · rw [strictBy_statsKey_iff, map_uid_carryStats]
      exact hmerge.1
    · have hlen := congrArg List.length (map_uid_carryStats
        (mergeUids (reconcileCapacity s) s.kmodUids s.lsposedUids s.portTargets) t.entries)
      rw [List.length_map] at hlen
      simpa only [hlen] using hmerge.2.1

/-- After a reconcile that had room, every counted uid has an entry. -/
theorem kmodStatsReconcile_covers (h : kmodStatsReconcile kvmalloc s t = .ok t') (hs : s.WF)
    (hfit : FitsStats s) {u : UInt32} (hu : Counted s.kmodUids s.lsposedUids s.portTargets u) :
    u ∈ t'.uids := by
  obtain ⟨hinv, hlen⟩ := hfit
  have hcap : reconcileCapacity s = s.kmodUids.length + s.lsposedUids.length + s.portTargets.length := by
    simp only [reconcileCapacity, hinv, Bool.false_or, decide_eq_true_eq, if_neg (not_lt.2 hlen)]
  simp only [kmodStatsReconcile, hinv, Bool.false_eq_true, if_false] at h
  split at h
  · cases h
  obtain rfl := Except.ok.inj h
  rw [StatsTable.uids, map_uid_carryStats]
  exact (mergeUids_spec _ ⟨hs.kmod, hs.lsposed, hs.targets⟩).2.2.2 (Nat.le_of_eq hcap.symm) u hu

end Reconcile

/-! ### Clearing -/

@[simp] theorem clearStats_uids (t : StatsTable) : (clearStats t).uids = t.uids := by
  simp [StatsTable.uids, clearStats, Function.comp_def, UidStats.fresh]

theorem clearStats_wf {t : StatsTable} (h : t.WF) : (clearStats t).WF := by
  refine ⟨?_, by simpa [clearStats] using h.count_le, h.capacity_le⟩
  rw [strictBy_statsKey_iff, ← StatsTable.uids, clearStats_uids]
  exact strictBy_statsKey_iff.1 h.sorted

end VpnHide
