import VpnHide.PortGrants
import VpnHide.Lib.LeastRecent

/-!
# The cache of recent binds (`vpnhide_record_bound_socket`, `pending_port_lookup_one`)

Each set of the cache has four ways. A bind goes to the first way that is unused, expired or its own, and else takes the
place of the one that expires first. In runs whose binds are in order a bind is found until it expires or four others
have taken its set (`pendingPorts_keep`). Binds within one tick, and an expired way in front of the own one, upset this
order (`pendingPorts_lose`).
-/

namespace VpnHide
open TxnM

/-- The set an owner is looked up in. -/
def pendingSet (owner : OwnedPort) : ℕ := (ownedPortHash owner &&& (UInt32.ofNat pendingPortSets - 1)).toNat

/-- In use, and not yet expired. -/
def PendingPort.Unexpired (now : UInt64) (e : PendingPort) : Prop := e.owner.uid ≠ 0 ∧ ¬ timeAfterEq now e.expires

/-- A bind in order, given the ways of its set. No way that is unused or expired stands in front of an unexpired one of
the owner itself. And unless the owner has none and there is a way to spare, no other owner has been recorded in this
very tick. -/
structure OrderlyBind (hz now : UInt64) (owner : OwnedPort) (ways : List PendingPort) : Prop where
  inFront : ∀ {i j : ℕ} {e e' : PendingPort}, ways[j]? = some e → e.owner = owner → e.Unexpired now → i < j →
    ways[i]? = some e' → e'.Unexpired now
  alone : ((∃ e ∈ ways, ¬ e.Unexpired now) ∧ ∀ e ∈ ways, e.Unexpired now → e.owner ≠ owner) ∨
    ∀ e ∈ ways, e.Unexpired now → e.expires = now + 2 * hz → e.owner = owner

/-- The ways of the owner's set. -/
def GrantState.waysOf (st : GrantState) (owner : OwnedPort) : List PendingPort :=
  st.kernel.pendingPorts[pendingSet owner]?.elim [] Vector.toList

def GrantState.BindsInOrder (hz : ℕ) (st : GrantState) : GrantOp → Prop
  | .bind uid sk => ∀ owner, boundOwner st.kernel.policy uid sk = some owner →
      OrderlyBind (.ofNat hz) st.jiffies owner (st.waysOf owner)
  | _ => True

/-! ### The ways as places for recent keys -/

/-- An entry as a way: its owner and when it was recorded. -/
def PendingPort.way (ttl : ℕ) (now : UInt64) (e : PendingPort) : Way OwnedPort :=
  if e.owner.uid = 0 ∨ timeAfterEq now e.expires then none else some (e.expires.toNat - ttl, e.owner)

/-- The entry is unused or was recorded at some time up to now. -/
def PendingPort.From (ttl now : ℕ) (e : PendingPort) : Prop :=
  e.owner.uid = 0 ∨ ∃ t ≤ now, e.expires = .ofNat (t + ttl)

section Ways
variable {ttl now : ℕ} {e : PendingPort}

theorem PendingPort.way_of_zero (h : e.owner.uid = 0) (now : UInt64) : e.way ttl now = none := if_pos (.inl h)

theorem PendingPort.way_of_bind (hclock : now + ttl < 2 ^ 63) {t : ℕ} (ht : t ≤ now)
    (hexp : e.expires = .ofNat (t + ttl))
    (huid : e.owner.uid ≠ 0) : e.way ttl (.ofNat now) = if now < t + ttl then some (t, e.owner) else none := by
  have htime := timeAfterEq_ofNat (a := now) (b := t + ttl) (by omega) (by omega)
  have hstamp : (UInt64.ofNat (t + ttl)).toNat - ttl = t := by
    rw [UInt64.toNat_ofNat', Nat.mod_eq_of_lt (by omega), Nat.add_sub_cancel]
  rw [way, hexp, hstamp]
  by_cases hlive : now < t + ttl
  · rw [if_pos hlive, if_neg (not_or.2 ⟨huid, fun h => Nat.not_le.2 hlive (htime.1 h)⟩)]
  · rw [if_neg hlive, if_pos (.inr (htime.2 (Nat.not_lt.1 hlive)))]

theorem PendingPort.way_eq_none (e : PendingPort) (now : UInt64) : e.way ttl now = none ↔ ¬ e.Unexpired now := by
  unfold way Unexpired
  rw [← not_or]
  by_cases h : e.owner.uid = 0 ∨ timeAfterEq now e.expires = true
  · simp [h]
  · simp [h]

theorem PendingPort.way_eq_some (hclock : now + ttl < 2 ^ 63) (h : e.From ttl now) {t : ℕ} {owner : OwnedPort} :
    e.way ttl (.ofNat now) = some (t, owner) ↔
      e.Unexpired (.ofNat now) ∧ e.owner = owner ∧ e.expires = .ofNat (t + ttl) ∧ t ≤ now := by
  constructor
  · intro hway
    have hlive : e.Unexpired (.ofNat now) := by
      by_contra hdead
      rw [(e.way_eq_none _).2 hdead] at hway
      cases hway
    obtain ⟨t₀, ht₀, hexp⟩ := h.resolve_left hlive.1
    rw [way_of_bind hclock ht₀ hexp hlive.1] at hway
    split_ifs at hway
    cases hway
    exact ⟨hlive, rfl, hexp, ht₀⟩
  · rintro ⟨hlive, rfl, hexp, ht⟩
    have hway := way_of_bind hclock ht hexp hlive.1
    by_cases htime : now < t + ttl
    · rw [hway, if_pos htime]
    · rw [if_neg htime, e.way_eq_none] at hway
      exact absurd hlive hway

theorem PendingPort.way_later {now' : ℕ} (hclock : now' + ttl < 2 ^ 63) (hle : now ≤ now') (h : e.From ttl now) :
    e.way ttl (.ofNat now') = (e.way ttl (.ofNat now)).filter fun r => decide (now' < r.1 + ttl) := by
  by_cases huid : e.owner.uid = 0
  · rw [way_of_zero huid, way_of_zero huid, Option.filter_none]
  obtain ⟨t, ht, hexp⟩ := h.resolve_left huid
  rw [way_of_bind hclock (by omega) hexp huid, way_of_bind (by omega) ht hexp huid]
  by_cases hlive : now' < t + ttl
  · rw [if_pos hlive, if_pos (by omega), Option.filter_some, if_pos (decide_eq_true hlive)]
  · rw [if_neg hlive]
    split_ifs
    · rw [Option.filter_some, if_neg (by simpa using hlive)]
    · rfl

/-- The source's loop selects the way that the library's does. -/
theorem selectWay_eq {es : List PendingPort} (hclock : now + ttl < 2 ^ 63) (hfrom : ∀ e ∈ es, e.From ttl now)
    (owner : OwnedPort) (way selected : ℕ) {oldest : ℕ} (hold : oldest ≤ now) :
    selectWay owner (.ofNat now) es way selected (.ofNat (oldest + ttl)) =
      selectFrom owner (es.map (PendingPort.way ttl (.ofNat now))) way selected oldest := by
  induction es generalizing way selected oldest with
  | nil => rfl
  | cons e es ih =>
    obtain ⟨he, hes⟩ := List.forall_mem_cons.1 hfrom
    rw [selectWay, List.map_cons]
    cases hway : e.way ttl (.ofNat now) with
    | none =>
      have hstop : ownedPortEqual e.owner owner ∨ e.owner.uid = 0 ∨ timeAfterEq (.ofNat now) e.expires := by
        rw [e.way_eq_none, PendingPort.Unexpired, ← not_or, not_not] at hway
        exact .inr hway
      rw [if_pos hstop]
      rfl
    | some x =>
      obtain ⟨t, o⟩ := x
      obtain ⟨hlive, rfl, hexp, ht⟩ := (PendingPort.way_eq_some hclock he).1 hway
      rw [selectFrom]
      by_cases heq : e.owner = owner
      · rw [if_pos heq, if_pos (.inl (beq_iff_eq.2 heq))]
      · have hgo : ¬ (ownedPortEqual e.owner owner ∨ e.owner.uid = 0 ∨ timeAfterEq (.ofNat now) e.expires) := by
          rintro (h | h | h)
          · exact heq (beq_iff_eq.1 h)
          · exact hlive.1 h
          · exact hlive.2 h
        have htime := timeBefore_ofNat (a := t + ttl) (b := oldest + ttl) (by omega) (by omega)
        rw [if_neg heq, if_neg hgo, hexp]
        by_cases hlt : t < oldest
        · rw [if_pos hlt, if_pos (htime.2 (by omega))]
          exact ih hes _ _ ht
        · rw [if_neg hlt, if_neg (fun h => hlt (by have := htime.1 h; omega))]
          exact ih hes _ _ hold

theorem selectWay_eq_select {ways : Vector PendingPort pendingPortWays} (hclock : now + ttl < 2 ^ 63)
    (hfrom : ∀ e ∈ ways.toList, e.From ttl now) (owner : OwnedPort) :
    selectWay owner (.ofNat now) ways.toList 0 0 (ways.get ⟨0, by decide⟩).expires =
      select owner (ways.toList.map (PendingPort.way ttl (.ofNat now))) := by
  obtain ⟨e, es, hes⟩ : ∃ e es, ways.toList = e :: es := by
    refine List.exists_cons_of_length_eq_add_one (n := 3) ?_
    exact ways.length_toList
  have hfirst : ways.get ⟨0, by decide⟩ = e := by
    have hget : ways.toList[0]? = some (ways.get ⟨0, by decide⟩) := by
      rw [List.getElem?_eq_getElem (by rw [ways.length_toList]; decide), Vector.getElem_toList]
      rfl
    rw [hes] at hget
    exact (Option.some.inj hget).symm
  rw [hfirst, hes]
  rw [hes] at hfrom
  cases hway : e.way ttl (.ofNat now) with
  | none =>
    have hstop : ownedPortEqual e.owner owner ∨ e.owner.uid = 0 ∨ timeAfterEq (.ofNat now) e.expires := by
      rw [e.way_eq_none, PendingPort.Unexpired, ← not_or, not_not] at hway
      exact .inr hway
    rw [selectWay, if_pos hstop, select, List.map_cons, hway]
    rfl
  | some x =>
    obtain ⟨t, o⟩ := x
    obtain ⟨-, -, hexp, ht⟩ := (PendingPort.way_eq_some hclock (hfrom e (List.mem_cons_self ..))).1 hway
    rw [hexp, selectWay_eq hclock hfrom owner 0 0 ht, select, List.map_cons, hway]
    rfl

end Ways

/-! ### One bind -/

theorem pendingSet_lt (owner : OwnedPort) : pendingSet owner < pendingPortSets := by
  have hmask : (UInt32.ofNat pendingPortSets - 1).toNat = 255 := by decide
  rw [pendingSet, UInt32.toNat_and, hmask]
  exact Nat.lt_succ_of_le Nat.and_le_right

/-- The ways of a set as places for recent keys. -/
def viewWays (ttl : ℕ) (now : UInt64) (ways : Vector PendingPort pendingPortWays) : List (Way OwnedPort) :=
  ways.toList.map (PendingPort.way ttl now)

theorem length_viewWays (ttl : ℕ) (now : UInt64) (ways : Vector PendingPort pendingPortWays) :
    (viewWays ttl now ways).length = 4 := by
  rw [viewWays, List.length_map, ways.length_toList]
  rfl

theorem viewWays_ne_nil (ttl : ℕ) (now : UInt64) (ways : Vector PendingPort pendingPortWays) :
    viewWays ttl now ways ≠ [] := by
  intro hnil
  have hlen := length_viewWays ttl now ways
  rw [hnil] at hlen
  cases hlen

section Record
variable {hz now : ℕ} {owner : OwnedPort} {pending : PendingPorts} {ways : Vector PendingPort pendingPortWays}

/-- The entry that a bind writes over one with this sequence number. -/
def boundEntry (hz now : ℕ) (owner : OwnedPort) (sequence : UInt32) : PendingPort :=
  ⟨sequence + 1 + 1, owner, .ofNat (now + 2 * hz)⟩

theorem recordPending_eq (hclock : now + 2 * hz < 2 ^ 63) (hways : pending[pendingSet owner]? = some ways)
    (hfrom : ∀ e ∈ ways.toList, e.From (2 * hz) now) :
    ∃ entry ∈ ways.toList, (recordPending (.ofNat hz) (.ofNat now) owner pending).1 =
      pending.setIfInBounds (pendingSet owner)
        (ways.setIfInBounds (select owner (viewWays (2 * hz) (.ofNat now) ways))
          (boundEntry hz now owner entry.sequence)) := by
  have hrange : select owner (viewWays (2 * hz) (.ofNat now) ways) < pendingPortWays := by
    have hlt := select_lt (viewWays_ne_nil (2 * hz) (.ofNat now) ways) owner
    rwa [length_viewWays] at hlt
  obtain ⟨entry, hentry⟩ : ∃ entry, ways[select owner (viewWays (2 * hz) (.ofNat now) ways)]? = some entry :=
    ⟨_, Vector.getElem?_eq_getElem hrange⟩
  refine ⟨entry, Vector.mem_toList_iff.2 (Vector.mem_of_getElem? hentry), ?_⟩
  unfold recordPending
  dsimp only
  rw [← pendingSet, hways]
  dsimp only
  rw [selectWay_eq_select hclock hfrom owner, ← viewWays, hentry]
  dsimp only
  rw [boundEntry, ← ofNat_add_mul now 2 hz]
  rfl

theorem viewWays_boundEntry (hclock : now + 2 * hz < 2 ^ 63) (hhz : 0 < hz) (huid : owner.uid ≠ 0) (i : ℕ)
    (sequence : UInt32) :
    viewWays (2 * hz) (.ofNat now) (ways.setIfInBounds i (boundEntry hz now owner sequence)) =
      (viewWays (2 * hz) (.ofNat now) ways).set i (some (now, owner)) := by
  have hway : (boundEntry hz now owner sequence).way (2 * hz) (.ofNat now) = some (now, owner) := by
    rw [PendingPort.way_of_bind hclock (Nat.le_refl now) rfl huid, if_pos (by omega)]
    rfl
  rw [viewWays, viewWays, Vector.toList_setIfInBounds, List.map_set, hway]

theorem sequence_even (s : UInt32) : (s + 1 + 1) &&& 1 = s &&& 1 := by
  have hs := s.toNat_lt
  rw [← UInt32.toNat_inj, UInt32.toNat_and, UInt32.toNat_and, UInt32.toNat_add, UInt32.toNat_add]
  show ((s.toNat + 1) % 2 ^ 32 + 1) % 2 ^ 32 &&& 1 = s.toNat &&& 1
  rw [Nat.and_one_is_mod, Nat.and_one_is_mod]
  omega

end Record

theorem ownedPortFromSock_uid {uid : UInt32} {sk : Option BoundSock} {owner : OwnedPort}
    (h : ownedPortFromSock uid sk = some owner) : owner.uid = uid := by
  rcases sk with _ | sk
  · cases h
  have hread := (Option.filter_eq_some_iff.1 h).1
  unfold sockEndpoint at hread
  split_ifs at hread
  all_goals
    cases hread
    rfl

theorem boundOwner_uid {policy : Option PolicySnapshot} {uid : UInt32} {sk : Option BoundSock} {owner : OwnedPort}
    (h : boundOwner policy uid sk = some owner) : owner.uid ≠ 0 := by
  by_cases huid : uid = 0
  · rw [boundOwner, if_pos huid] at h
    cases h
  rw [boundOwner, if_neg huid] at h
  cases hread : ownedPortFromSock uid sk with
  | none =>
    rw [hread] at h
    cases h
  | some owner' =>
    rw [hread] at h
    dsimp only at h
    split_ifs at h
    cases h
    rw [ownedPortFromSock_uid hread]
    exact huid

/-! ### Whole runs -/

/-- The binds that go to a set. -/
def bindsIn (binds : List (ℕ × OwnedPort)) (k : ℕ) : List (ℕ × OwnedPort) := binds.filter fun b => pendingSet b.2 = k

structure PendingInv (hz : ℕ) (st : GrantState) : Prop where
  grants : GrantInv hz st
  even : ∀ ways ∈ st.kernel.pendingPorts.toList, ∀ e ∈ ways.toList, e.sequence &&& 1 = 0
  sets : ∀ {k : ℕ} {ways : Vector PendingPort pendingPortWays}, st.kernel.pendingPorts[k]? = some ways →
    Keeps (2 * hz) st.now (viewWays (2 * hz) st.jiffies ways) (bindsIn st.binds k)

namespace PendingInv
variable {hz : ℕ} {st : GrantState}

theorem from_binds (h : GrantInv hz st) {k : ℕ} {ways : Vector PendingPort pendingPortWays}
    (hways : st.kernel.pendingPorts[k]? = some ways) : ∀ e ∈ ways.toList, e.From (2 * hz) st.now := by
  intro e he
  rcases h.pending ways (Vector.mem_toList_iff.2 (Vector.mem_of_getElem? hways)) e he with hzero | ⟨t, ht, hexp⟩
  · exact .inl (by rw [hzero]; rfl)
  · exact .inr ⟨t, h.bound _ ht, hexp⟩

theorem clock (h : GrantInv hz st) : st.now + 2 * hz < 2 ^ 63 := by
  have := h.clock
  omega

theorem zero {k : ℕ} {ways : Vector PendingPort pendingPortWays}
    (hways : pendingPortsZero[k]? = some ways) (ttl now : ℕ)
    (jiffies : UInt64) : Keeps ttl now (viewWays ttl jiffies ways) [] := by
  have hzero : ways = Vector.replicate pendingPortWays ⟨0, OwnedPort.zero, 0⟩ := by
    have hmem := Vector.mem_toList_iff.2 (Vector.mem_of_getElem? hways)
    rw [pendingPortsZero, Vector.toList_replicate] at hmem
    exact List.eq_of_mem_replicate hmem
  have hway : (⟨0, OwnedPort.zero, 0⟩ : PendingPort).way ttl jiffies = none := PendingPort.way_of_zero rfl jiffies
  rw [hzero, viewWays, Vector.toList_replicate, List.map_replicate, hway]
  exact Keeps.empty ttl now pendingPortWays

theorem even_zero : ∀ ways ∈ pendingPortsZero.toList, ∀ e ∈ ways.toList, e.sequence &&& 1 = 0 := by
  intro ways hways e he
  rw [pendingPortsZero, Vector.toList_replicate] at hways
  rw [List.eq_of_mem_replicate hways, Vector.toList_replicate] at he
  rw [List.eq_of_mem_replicate he]
  rfl

theorem of_init (h : (grantSystem hz).init st) : PendingInv hz st := by
  have hgrants := GrantInv.of_init h
  obtain ⟨k, now, _, _⟩ := st
  obtain ⟨rfl, rfl, rfl, -⟩ := h
  exact ⟨hgrants, even_zero, fun hways => zero hways ..⟩

theorem frame (h : PendingInv hz st) {st' : GrantState} (hgrants : GrantInv hz st') (hnow : st'.now = st.now)
    (hbinds : st'.binds = st.binds) (hpending : st'.kernel.pendingPorts = st.kernel.pendingPorts) :
    PendingInv hz st' := by
  refine ⟨hgrants, hpending ▸ h.even, fun {k ways} hways => ?_⟩
  rw [hpending] at hways
  rw [hnow, GrantState.jiffies, hnow, hbinds]
  exact h.sets hways

theorem viewWays_getElem? (h : GrantInv hz st) {k : ℕ} {ways : Vector PendingPort pendingPortWays}
    (hways : st.kernel.pendingPorts[k]? = some ways) {i t : ℕ} {owner : OwnedPort} :
    (viewWays (2 * hz) st.jiffies ways)[i]? = some (some (t, owner)) ↔ ∃ e, ways.toList[i]? = some e ∧
      e.Unexpired st.jiffies ∧ e.owner = owner ∧ e.expires = .ofNat (t + 2 * hz) ∧ t ≤ st.now := by
  rw [viewWays, List.getElem?_map, Option.map_eq_some_iff]
  refine exists_congr fun e => and_congr_right fun he => ?_
  exact PendingPort.way_eq_some (clock h) (from_binds h hways e (List.mem_of_getElem? he))

theorem viewWays_free {k : ℕ} {ways : Vector PendingPort pendingPortWays} {ttl : ℕ} {now : UInt64} :
    (viewWays ttl now ways)[k]? = some none ↔ ∃ e, ways.toList[k]? = some e ∧ ¬ e.Unexpired now := by
  rw [viewWays, List.getElem?_map, Option.map_eq_some_iff]
  exact exists_congr fun e => and_congr_right fun _ => e.way_eq_none now

theorem orderly (h : GrantInv hz st) {owner : OwnedPort} {ways : Vector PendingPort pendingPortWays}
    (hways : st.kernel.pendingPorts[pendingSet owner]? = some ways)
    (ho : OrderlyBind (.ofNat hz) st.jiffies owner ways.toList) :
    Orderly st.now owner (viewWays (2 * hz) st.jiffies ways) := by
  constructor
  · intro i j t hj hij hfree
    obtain ⟨e, he, hlive, howner, -, -⟩ := (viewWays_getElem? h hways).1 hj
    obtain ⟨e', he', hdead⟩ := viewWays_free.1 hfree
    exact hdead (ho.inFront he howner hlive hij he')
  · refine ho.alone.imp ?_ ?_
    · rintro ⟨⟨e, he, hdead⟩, hother⟩
      obtain ⟨i, hi⟩ := List.getElem?_of_mem he
      refine ⟨List.mem_of_getElem? (viewWays_free.2 ⟨e, hi, hdead⟩), fun t hmem => ?_⟩
      obtain ⟨j, hj⟩ := List.getElem?_of_mem hmem
      obtain ⟨e', he', hlive, howner, -, -⟩ := (viewWays_getElem? h hways).1 hj
      exact hother e' (List.mem_of_getElem? he') hlive howner
    · intro halone owner' hmem
      obtain ⟨i, hi⟩ := List.getElem?_of_mem hmem
      obtain ⟨e, he, hlive, howner, hexp, -⟩ := (viewWays_getElem? h hways).1 hi
      rw [← howner]
      exact halone e (List.mem_of_getElem? he) hlive (hexp.trans (ofNat_add_mul st.now 2 hz).symm)

theorem bind (h : PendingInv hz st) (hhz : 0 < hz) {uid : UInt32} {sk : Option BoundSock}
    (ho : st.BindsInOrder hz (.bind uid sk)) : PendingInv hz (st.step hz (.bind uid sk)) := by
  have hgrants := h.grants.bind uid sk
  cases howner : boundOwner st.kernel.policy uid sk with
  | none =>
    refine h.frame hgrants rfl ?_ ?_
    · simp only [GrantState.step, howner]
      rfl
    · simp only [GrantState.step, vpnhideRecordBoundSocket, howner]
  | some owner =>
    have huid : owner.uid ≠ 0 := boundOwner_uid howner
    obtain ⟨ways, hways⟩ : ∃ ways, st.kernel.pendingPorts[pendingSet owner]? = some ways :=
      ⟨_, Vector.getElem?_eq_getElem (pendingSet_lt owner)⟩
    have ho := ho owner howner
    rw [GrantState.waysOf, hways] at ho
    obtain ⟨entry, hentry, hrecord⟩ := recordPending_eq (clock h.grants) hways (from_binds h.grants hways)
    have heven := h.even ways (Vector.mem_toList_iff.2 (Vector.mem_of_getElem? hways))
    simp only [GrantState.step, vpnhideRecordBoundSocket, howner] at hgrants ⊢
    rw [GrantState.jiffies, hrecord] at hgrants ⊢
    refine ⟨hgrants, ?_, ?_⟩
    · intro ways' hways' e he
      rw [Vector.toList_setIfInBounds] at hways'
      rcases List.mem_or_eq_of_mem_set hways' with hmem | rfl
      · exact h.even ways' hmem e he
      rw [Vector.toList_setIfInBounds] at he
      rcases List.mem_or_eq_of_mem_set he with hmem | rfl
      · exact heven e hmem
      · exact (sequence_even entry.sequence).trans (heven entry hentry)
    · intro k ways' hways'
      dsimp only at hways'
      rw [Vector.getElem?_setIfInBounds] at hways'
      split_ifs at hways' with hk
      · -- the set of the owner
        obtain rfl := hk
        cases hways'
        show Keeps (2 * hz) st.now (viewWays (2 * hz) (.ofNat st.now) _) (bindsIn ((st.now, owner) :: st.binds) _)
        rw [viewWays_boundEntry (clock h.grants) hhz huid, bindsIn, List.filter_cons_of_pos (by simp)]
        exact (h.sets hways).record (viewWays_ne_nil _ _ _) (by omega) (orderly h.grants hways ho)
      · show Keeps (2 * hz) st.now (viewWays (2 * hz) (.ofNat st.now) _) (bindsIn ((st.now, owner) :: st.binds) _)
        rw [bindsIn, List.filter_cons_of_neg (by simpa using hk)]
        exact h.sets hways'

theorem tick (h : PendingInv hz st) {ticks : ℕ} (hgrants : GrantInv hz (st.step hz (.tick ticks))) :
    PendingInv hz (st.step hz (.tick ticks)) := by
  refine ⟨hgrants, h.even, fun {k ways} hways => ?_⟩
  have hview : viewWays (2 * hz) (.ofNat (st.now + ticks)) ways =
      expireWays (2 * hz) (st.now + ticks) (viewWays (2 * hz) st.jiffies ways) := by
    rw [expireWays, viewWays, viewWays, List.map_map]
    refine List.map_congr_left fun e he => ?_
    exact PendingPort.way_later (clock hgrants) (Nat.le_add_right ..) (from_binds h.grants hways e he)
  show Keeps (2 * hz) (st.now + ticks) (viewWays (2 * hz) (.ofNat (st.now + ticks)) ways) (bindsIn st.binds k)
  rw [hview]
  exact (h.sets hways).expire (Nat.le_add_right ..)

theorem publish (h : PendingInv hz st) (alloc : AllocOutcomes) (capable : Bool) (request : Option PolicyIoctl) :
    PendingInv hz (st.step hz (.publish alloc capable request)) := by
  have hgrants := h.grants.publish alloc capable request
  rcases hrun : exec (vhSetPolicy alloc capable request) st.kernel with ⟨e | _, k'⟩
  · have hsame := vhSetPolicy_atomic alloc capable request st.kernel e
    rw [hrun] at hsame
    obtain rfl : k' = st.kernel := hsame rfl
    simp only [GrantState.step, hrun]
    exact h
  · obtain ⟨_, _, s, stats, -, -, -, -, rfl⟩ := vhSetPolicy_eq_ok.1 hrun
    simp only [GrantState.step, hrun] at hgrants ⊢
    exact ⟨hgrants, even_zero, fun hways => zero hways ..⟩

theorem update (h : PendingInv hz st) (alloc : OwnedAllocs) (capable : Bool) (request : Option OwnedPortsUpdate) :
    PendingInv hz (st.step hz (.update alloc capable request)) := by
  refine h.frame (h.grants.update alloc capable request) rfl rfl ?_
  rcases hrun : exec (vhSetOwnedPorts alloc (.ofNat hz) st.jiffies capable request) st.kernel with ⟨e | _, k'⟩
  · have hsame := vhSetOwnedPorts_atomic alloc (.ofNat hz) st.jiffies capable request st.kernel e
    rw [hrun] at hsame
    obtain rfl : k' = st.kernel := hsame rfl
    simp only [GrantState.step, hrun]
  · obtain ⟨-, update, snapshot, rfl, hbuild, rfl⟩ := vhSetOwnedPorts_eq_ok.1 hrun
    simp only [GrantState.step, hrun]

theorem of_reachable (hhz : 0 < hz) (h : ((grantSystem hz).restrict (GrantState.BindsInOrder hz)).Reachable st) :
    PendingInv hz st := by
  refine System.Reachable.invariant (M := (grantSystem hz).restrict _) (P := PendingInv hz) (fun _ => of_init) ?_ h
  rintro st op _ hst ⟨ho, rfl, hclock⟩
  have hgrants := hst.grants.step op hclock
  cases op with
  | update alloc capable request => exact hst.update alloc capable request
  | bind uid sk => exact hst.bind hhz ho
  | publish alloc capable request => exact hst.publish alloc capable request
  | tick ticks => exact hst.tick hgrants

theorem lookup (h : PendingInv hz st) {ways : Vector PendingPort pendingPortWays} {owner : OwnedPort}
    (hways : st.kernel.pendingPorts[pendingSet owner]? = some ways) {i t : ℕ}
    (hi : (viewWays (2 * hz) st.jiffies ways)[i]? = some (some (t, owner))) :
    pendingPortLookupOne st.kernel.pendingPorts st.jiffies owner := by
  obtain ⟨e, he, hlive, howner, hexp, ht⟩ := (viewWays_getElem? h.grants hways).1 hi
  have hmem := List.mem_of_getElem? he
  have hclock := h.grants.clock
  unfold pendingPortLookupOne
  dsimp only
  rw [← pendingSet, hways]
  refine List.any_eq_true.2 ⟨e, hmem, ?_⟩
  rw [h.even ways (Vector.mem_toList_iff.2 (Vector.mem_of_getElem? hways)) e hmem, howner]
  have htime : timeBefore st.jiffies e.expires := by
    have hbefore := hlive.2
    rw [hexp, GrantState.jiffies] at hbefore ⊢
    rw [timeAfterEq_ofNat (by omega) (by omega)] at hbefore
    rw [timeBefore_ofNat (by omega) (by omega)]
    omega
  simp [ownedPortEqual, htime]

end PendingInv

/-! ### The most recent owners -/

theorem bindsIn_append {recent older : List (ℕ × OwnedPort)} (t : ℕ) (owner : OwnedPort) :
    bindsIn (recent ++ (t, owner) :: older) (pendingSet owner) =
      bindsIn recent (pendingSet owner) ++ (t, owner) :: bindsIn older (pendingSet owner) := by
  rw [bindsIn, List.filter_append, List.filter_cons_of_pos (by simp)]
  rfl

theorem bindsIn_others (recent : List (ℕ × OwnedPort)) (owner : OwnedPort) :
    ((bindsIn recent (pendingSet owner)).map Prod.snd).toFinset.erase owner =
      (recent.map Prod.snd).toFinset.filter fun o => pendingSet o = pendingSet owner ∧ o ≠ owner := by
  ext o
  simp only [bindsIn, Finset.mem_erase, List.mem_toFinset, List.mem_map, List.mem_filter, decide_eq_true_eq,
    Finset.mem_filter]
  constructor
  · rintro ⟨hne, b, ⟨hb, hset⟩, rfl⟩
    exact ⟨⟨b, hb, rfl⟩, hset, hne⟩
  · rintro ⟨⟨b, hb, rfl⟩, hset, hne⟩
    exact ⟨hne, b, ⟨hb, hset⟩, rfl⟩

/-- In every state of every run whose binds are in order, a bind less than two seconds old is found, unless four other
owners have been recorded in its set since. -/
theorem pendingPorts_keep {hz : ℕ} {st : GrantState}
    (h : ((grantSystem hz).restrict (GrantState.BindsInOrder hz)).Reachable st)
    {recent older : List (ℕ × OwnedPort)} {t : ℕ}
    {owner : OwnedPort} (hbinds : st.binds = recent ++ (t, owner) :: older) (hlive : st.now < t + 2 * hz) :
    pendingPortLookupOne st.kernel.pendingPorts st.jiffies owner ∨
      4 ≤ ((recent.map Prod.snd).toFinset.filter fun o => pendingSet o = pendingSet owner ∧ o ≠ owner).card := by
  have hpast : t ≤ st.now := (GrantInv.of_reachable h.of_restrict).bound (t, owner) (by rw [hbinds]; simp)
  have hinv := PendingInv.of_reachable (by omega) h
  obtain ⟨ways, hways⟩ : ∃ ways, st.kernel.pendingPorts[pendingSet owner]? = some ways :=
    ⟨_, Vector.getElem?_eq_getElem (pendingSet_lt owner)⟩
  have hfound := (hinv.sets hways).found (hbinds ▸ bindsIn_append t owner) hlive
  rw [length_viewWays, bindsIn_others] at hfound
  rcases hfound with ⟨i, t', hi, -⟩ | hmany
  · exact .inl (hinv.lookup hways hi)
  · exact .inr hmany

/-- A TCP server of one app on every IPv4 address. -/
def serverSock (port : UInt16) : BoundSock := ⟨sockStream, afInet.toUInt16, port, 0, Vector.replicate 4 0⟩

def serverOwner (port : UInt16) : OwnedPort := ⟨10123, port, protoTcp, afInet, Vector.replicate 4 0⟩

def GrantOp.ticks : GrantOp → ℕ
  | .tick ticks => ticks
  | _ => 0

theorem GrantState.now_step (hz : ℕ) (st : GrantState) (op : GrantOp) : (st.step hz op).now = st.now + op.ticks := by
  cases op with
  | update alloc capable request => rfl
  | bind uid sk => rfl
  | publish alloc capable request =>
    unfold GrantState.step
    dsimp only
    split_ifs <;> rfl
  | tick ticks => rfl

/-- The state in which the app has just become a target. -/
def targetedState : GrantState :=
  GrantState.step 250 ⟨.init, 0, none, []⟩ (.publish ⟨true, true, true, true⟩ true (some sampleRequest))

theorem targetedState_now : targetedState.now = 0 := GrantState.now_step ..

theorem targetedState_reachable {G : GrantState → GrantOp → Prop}
    (hG : G ⟨.init, 0, none, []⟩ (.publish ⟨true, true, true, true⟩ true (some sampleRequest))) :
    ((grantSystem 250).restrict G).Reachable targetedState := by
  have hinit : ((grantSystem 250).restrict G).Reachable ⟨.init, 0, none, []⟩ := .init ⟨rfl, rfl, rfl, by decide⟩
  exact hinit.restrict_step ⟨rfl, by rw [targetedState_now]; decide⟩ hG

theorem pendingPorts_keep_sample :
    ∃ st, ((grantSystem 250).restrict (GrantState.BindsInOrder 250)).Reachable st ∧ st.binds = [(0, serverOwner 8080)] ∧
      pendingPortLookupOne st.kernel.pendingPorts st.jiffies (serverOwner 8080) := by
  have hstart := targetedState_reachable (G := GrantState.BindsInOrder 250) trivial
  have hunused : ∀ ways ∈ targetedState.kernel.pendingPorts.toList, ∀ e ∈ ways.toList,
      e.owner.uid = 0 := by decide +kernel
  have horder : GrantState.BindsInOrder 250 targetedState (.bind 10123 (some (serverSock 8080))) := by
    intro owner _
    obtain ⟨ways, hways⟩ : ∃ ways, targetedState.kernel.pendingPorts[pendingSet owner]? = some ways :=
      ⟨_, Vector.getElem?_eq_getElem (pendingSet_lt owner)⟩
    have hdead : ∀ e ∈ ways.toList, ¬ e.Unexpired targetedState.jiffies := fun e he hlive =>
      hlive.1 (hunused ways (Vector.mem_toList_iff.2 (Vector.mem_of_getElem? hways)) e he)
    rw [GrantState.waysOf, hways]
    refine ⟨fun hj _ hlive => absurd hlive (hdead _ (List.mem_of_getElem? hj)),
      .inr fun e he hlive => absurd hlive (hdead e he)⟩
  have hbind : ((grantSystem 250).restrict (GrantState.BindsInOrder 250)).Reachable
      (targetedState.step 250 (.bind 10123 (some (serverSock 8080)))) :=
    hstart.restrict_step ⟨rfl, by rw [GrantState.now_step, targetedState_now]; decide⟩ horder
  have hbinds : (targetedState.step 250 (.bind 10123 (some (serverSock 8080)))).binds = [(0, serverOwner 8080)] := by
    decide +kernel
  refine ⟨_, hbind, hbinds, ?_⟩
  have hlast : (targetedState.step 250 (.bind 10123 (some (serverSock 8080)))).binds =
      [] ++ (0, serverOwner 8080) :: [] := hbinds
  have hlive : (targetedState.step 250 (.bind 10123 (some (serverSock 8080)))).now < 0 + 2 * 250 := by
    rw [GrantState.now_step, targetedState_now]
    decide
  rcases pendingPorts_keep hbind hlast hlive with hfound | hmany
  · exact hfound
  · exact absurd hmany (by decide)

/-! ### Binds out of order -/

theorem reachable_foldl {hz : ℕ} {st : GrantState} (h : (grantSystem hz).Reachable st) {ops : List GrantOp}
    (hclock : st.now + (ops.map GrantOp.ticks).sum + 120 * hz < 2 ^ 63) :
    (grantSystem hz).Reachable (ops.foldl (GrantState.step hz) st) := by
  induction ops generalizing st with
  | nil => exact h
  | cons op ops ih =>
    have hnow := st.now_step hz op
    rw [List.map_cons, List.sum_cons] at hclock
    exact ih (h.step ⟨rfl, by omega⟩) (by omega)

def serve (port : UInt16) : GrantOp := .bind 10123 (some (serverSock port))

/-- Six servers of one set in one tick. The fifth and the sixth go to the way whose place in the row is the first. -/
def tiedState : GrantState :=
  [serve 8000, serve 8142, serve 8172, serve 8695, serve 8867, serve 9009].foldl (GrantState.step 250) targetedState

/-- The first server expires just when the third one binds again, which then has two ways. -/
def doubledState : GrantState :=
  [serve 8000, .tick 497, serve 8142, .tick 1, serve 8172, .tick 2, serve 8172, serve 8695, serve 8867].foldl
    (GrantState.step 250) targetedState

/-- A bind less than two seconds old is not found, though fewer than four others have been recorded in its set since. -/
def GrantState.Loses (hz : ℕ) (st : GrantState) (owner : OwnedPort) : Prop :=
  ∃ recent t older, st.binds = recent ++ (t, owner) :: older ∧ st.now < t + 2 * hz ∧
    ¬ pendingPortLookupOne st.kernel.pendingPorts st.jiffies owner ∧
    ((recent.map Prod.snd).toFinset.filter fun o => pendingSet o = pendingSet owner ∧ o ≠ owner).card < 4

theorem pendingPorts_lose :
    ((grantSystem 250).Reachable tiedState ∧ tiedState.Loses 250 (serverOwner 8867)) ∧
      (grantSystem 250).Reachable doubledState ∧ doubledState.Loses 250 (serverOwner 8142) := by
  have hstart : (grantSystem 250).Reachable targetedState :=
    (targetedState_reachable (G := fun _ _ => True) trivial).of_restrict
  have htied : (grantSystem 250).Reachable tiedState := reachable_foldl hstart (by rw [targetedState_now]; decide)
  have hdoubled : (grantSystem 250).Reachable doubledState := reachable_foldl hstart (by rw [targetedState_now]; decide)
  refine ⟨⟨htied, ?_⟩, hdoubled, ?_⟩
  · -- only the server on port 9009 came after it
    refine ⟨[(0, serverOwner 9009)], 0, [8695, 8172, 8142, 8000].map fun port => (0, serverOwner port), ?_⟩
    decide +kernel
  · -- three others came after it, one of them twice
    refine ⟨[(500, serverOwner 8867), (500, serverOwner 8695), (500, serverOwner 8172), (498, serverOwner 8172)], 497,
      [(0, serverOwner 8000)], ?_⟩
    decide +kernel

end VpnHide
