import VpnHide.PendingPorts
import VpnHide.Lib.Exec
import VpnHide.Lib.Seqlock

/-!
# Binds and lookups at the same time (`vpnhide_record_bound_socket`, `pending_port_lookup_one`)

A bind stores its entry word by word under `pending_ports_lock`; a lookup takes no lock and goes by the sequence number
of the entry. The machine below makes one access to an entry at a time, with any number of threads and lookups under
way, and between two barriers the words in any order. Its table is that of some serial order of the calls
(`pendingMachine_serial`), what a lookup finds was in it at a moment during the lookup (`pendingLookup_sound`), and what
stays in it is found (`pendingLookup_complete`). A policy publish clears the table with its sequence numbers, and a
lookup must not span that.
-/

namespace VpnHide

/-! ### Entries, word by word -/

/-- What `pending_port_lookup_one` loads between its two looks at the sequence. -/
inductive PendingWord
  | uid | port | protocol | family | address (i : Fin 4) | expires
  deriving DecidableEq, Repr

abbrev PendingData := OwnedPort × UInt64

def PendingWord.all : List PendingWord :=
  [.uid, .port, .protocol, .family] ++ (List.finRange 4).map .address ++ [.expires]

theorem PendingWord.mem_all (i : PendingWord) : i ∈ all := by
  cases i with
  | address i => simp [all]
  | _ => decide

def pendingWords : Words PendingData PendingWord ℕ where
  get d
    | .uid => d.1.uid.toNat
    | .port => d.1.port.toNat
    | .protocol => d.1.protocol.toNat
    | .family => d.1.family.toNat
    | .address i => d.1.address[i.val].toNat
    | .expires => d.2.toNat
  copy
    | .uid, src, dst => ({ dst.1 with uid := src.1.uid }, dst.2)
    | .port, src, dst => ({ dst.1 with port := src.1.port }, dst.2)
    | .protocol, src, dst => ({ dst.1 with protocol := src.1.protocol }, dst.2)
    | .family, src, dst => ({ dst.1 with family := src.1.family }, dst.2)
    | .address i, src, dst => ({ dst.1 with address := dst.1.address.set i.val src.1.address[i.val] }, dst.2)
    | .expires, src, dst => (dst.1, src.2)
  get_copy i src dst j := by
    cases i with
    | address i =>
      cases j with
      | address j =>
        simp only [PendingWord.address.injEq]
        by_cases hji : j = i
        · subst hji
          rw [if_pos rfl, Vector.getElem_set_self]
        · have hne : i.val ≠ j.val := fun h => hji (Fin.ext h.symm)
          rw [if_neg hji, Vector.getElem_set_ne _ _ hne]
      | _ => rfl
    | _ => cases j <;> rfl
  ext {d d'} h := by
    obtain ⟨⟨uid, port, protocol, family, address⟩, expires⟩ := d
    obtain ⟨⟨uid', port', protocol', family', address'⟩, expires'⟩ := d'
    have haddress : address = address' := Vector.ext fun i hi => UInt32.toNat_inj.1 (h (.address ⟨i, hi⟩))
    have huid : uid = uid' := UInt32.toNat_inj.1 (h .uid)
    have hport : port = port' := UInt16.toNat_inj.1 (h .port)
    have hprotocol : protocol = protocol' := UInt8.toNat_inj.1 (h .protocol)
    have hfamily : family = family' := UInt8.toNat_inj.1 (h .family)
    have hexpires : expires = expires' := UInt64.toNat_inj.1 (h .expires)
    subst haddress huid hport hprotocol hfamily hexpires
    rfl

def PendingPort.data (e : PendingPort) : PendingData := (e.owner, e.expires)

def PendingPort.withData (e : PendingPort) (d : PendingData) : PendingPort := ⟨e.sequence, d.1, d.2⟩

def PendingPort.guarded (e : PendingPort) : Guarded PendingData := ⟨e.sequence, e.data⟩

/-- `*e = src`, as far as one word. -/
def PendingPort.store (i : PendingWord) (src : PendingData) (e : PendingPort) : PendingPort :=
  e.withData (pendingWords.copy i src e.data)

def PendingPort.increment (e : PendingPort) : PendingPort := { e with sequence := e.sequence + 1 }

namespace PendingPorts

def entryAt (p : PendingPorts) (set way : ℕ) : Option PendingPort := p[set]?.bind fun ways => ways[way]?

def modifyAt (p : PendingPorts) (set way : ℕ) (f : PendingPort → PendingPort) : PendingPorts :=
  match p[set]? with
  | none => p
  | some ways =>
    match ways[way]? with
    | none => p
    | some e => p.setIfInBounds set (ways.setIfInBounds way (f e))

variable {p q : PendingPorts}

-- row by row, which the kernel evaluates faster than the comparison by places
instance : Decidable (p = q) := decidable_of_iff (p.toList = q.toList) Vector.toList_inj

theorem entryAt_isSome {set way : ℕ} (hset : set < pendingPortSets) (hway : way < pendingPortWays) :
    ∃ e, entryAt p set way = some e := by
  refine ⟨p[set][way], ?_⟩
  simp [entryAt, hset, hway]

theorem entryAt_modifyAt (p : PendingPorts) (set way : ℕ) (f : PendingPort → PendingPort) (set' way' : ℕ) :
    entryAt (modifyAt p set way f) set' way' =
      if set' = set ∧ way' = way then (entryAt p set way).map f else entryAt p set' way' := by
  unfold modifyAt entryAt
  cases hways : p[set]? with
  | none =>
    dsimp only
    split_ifs with h
    · rw [h.1, hways]
      rfl
    · rfl
  | some ways =>
    dsimp only
    cases he : ways[way]? with
    | none =>
      dsimp only
      split_ifs with h
      · rw [h.1, h.2, hways]
        show ways[way]? = (ways[way]?).map f
        rw [he]
        rfl
      · rfl
    | some e =>
      have hset : set < pendingPortSets := (Vector.getElem?_eq_some_iff.1 hways).1
      have hway : way < pendingPortWays := (Vector.getElem?_eq_some_iff.1 he).1
      dsimp only
      rw [Vector.getElem?_setIfInBounds]
      by_cases hs : set = set'
      · subst hs
        rw [if_pos rfl, if_pos hset]
        show (ways.setIfInBounds way (f e))[way']? = _
        rw [Vector.getElem?_setIfInBounds]
        by_cases hw : way = way'
        · subst hw
          rw [if_pos rfl, if_pos hway, if_pos ⟨rfl, rfl⟩]
          show _ = Option.map f (ways[way]?)
          rw [he]
          rfl
        · rw [if_neg hw, if_neg fun h => hw h.2.symm, hways]
          rfl
      · rw [if_neg hs, if_neg fun h => hs h.1.symm]

theorem ext_entryAt (h : ∀ set way, entryAt p set way = entryAt q set way) : p = q := by
  refine Vector.ext fun set hset => Vector.ext fun way hway => ?_
  have hentry := h set way
  simpa [entryAt, hset, hway] using hentry

theorem modifyAt_modifyAt (p : PendingPorts) (set way : ℕ) (f g : PendingPort → PendingPort) :
    modifyAt (modifyAt p set way f) set way g = modifyAt p set way fun e => g (f e) := by
  refine ext_entryAt fun set' way' => ?_
  simp only [entryAt_modifyAt]
  by_cases h : set' = set ∧ way' = way
  · simp only [if_pos h, and_self, if_true, Option.map_map]
    rfl
  · simp only [if_neg h]

end PendingPorts

/-! ### The machine -/

/-- A call of `vpnhide_record_bound_socket` that has passed the checks in front of the lock. -/
structure PendingBind where
  owner : OwnedPort
  now : UInt64
  deriving DecidableEq, Repr

/-- What the call stores. -/
def PendingBind.data (hz : UInt64) (b : PendingBind) : PendingData := (b.owner, b.now + 2 * hz)

theorem pendingPortWays_pos : 0 < pendingPortWays := by decide

/-- The way the call selects. -/
def PendingBind.selectedWay (b : PendingBind) (p : PendingPorts) : ℕ :=
  match p[pendingSet b.owner]? with
  | none => 0
  | some ways => selectWay b.owner b.now ways.toList 0 0 (ways.get ⟨0, pendingPortWays_pos⟩).expires

/-- A thread that binds, or that clears the table in `publish_policy_snapshot`. -/
inductive BindPhase
  | idle
  | called (b : PendingBind)
  | locked (b : PendingBind)
  | selected (b : PendingBind) (way : ℕ)
  | storing (b : PendingBind) (way : ℕ) (stored : List PendingWord)
  | closing
  | clearing
  deriving DecidableEq, Repr

/-- A call of `pending_port_lookup_one`. -/
inductive LookupPhase
  | idle
  | probing (wanted : OwnedPort) (way : ℕ)
  | loading (wanted : OwnedPort) (way : ℕ) (before : UInt32) (loaded : List PendingWord) (mine : PendingData)
  | comparing (wanted : OwnedPort) (way : ℕ) (before after : UInt32) (mine : PendingData)
  | done (wanted : OwnedPort) (found : Bool)
  deriving DecidableEq, Repr

/-- What is done to the table while the lock is held. -/
inductive PendingSection
  | bind (b : PendingBind)
  | clear

/-- The memory, the threads and lookups under way, and what has happened: the calls of each thread, and the sections
that have come to their end, in their order. -/
structure PendingMachine (ι ρ : Type) where
  pending : PendingPorts
  jiffies : UInt64
  lock : Option ι
  threads : ι → BindPhase
  lookups : ρ → LookupPhase
  calls : ι → List PendingBind
  log : List (ι × PendingSection)

inductive PendingAct (ι ρ : Type)
  | tick (jiffies : UInt64)
  | call (w : ι) (owner : OwnedPort)
  | lock (w : ι)
  | select (w : ι)
  | openEntry (w : ι)
  | store (w : ι) (i : PendingWord)
  | closeEntry (w : ι)
  | unlock (w : ι)
  | lockClear (w : ι)
  | wipe (w : ι) (set way : ℕ) (word : Option PendingWord)
  | start (r : ρ) (wanted : OwnedPort)
  | probe (r : ρ)
  | load (r : ρ) (i : PendingWord)
  | recheck (r : ρ)
  | compare (r : ρ)

/-- The increments of a sequence number. -/
def PendingAct.increments {ι ρ : Type} : PendingAct ι ρ → ℕ
  | .openEntry _ | .closeEntry _ => 1
  | _ => 0

/-- The lookup that acts. -/
def PendingAct.lookup? {ι ρ : Type} : PendingAct ι ρ → Option ρ
  | .start r _ | .probe r | .load r _ | .recheck r | .compare r => some r
  | _ => none

def PendingSection.apply (hz : UInt64) (p : PendingPorts) : PendingSection → PendingPorts
  | .bind b => (recordPending hz b.now b.owner p).1
  | .clear => pendingPortsZero

namespace PendingMachine
variable {ι ρ : Type}

/-- The table that the sections of the log make, one after the other. -/
def committed (hz : UInt64) (m : PendingMachine ι ρ) : PendingPorts :=
  (m.log.map Prod.snd).foldl (PendingSection.apply hz) pendingPortsZero

def initial (jiffies : UInt64) : PendingMachine ι ρ where
  pending := pendingPortsZero
  jiffies
  lock := none
  threads _ := .idle
  lookups _ := .idle
  calls _ := []
  log := []

/-- For a bind this is the second increment, for a clear the end of the `memset`. -/
def append (m : PendingMachine ι ρ) (w : ι) (sec : PendingSection) : PendingMachine ι ρ :=
  { m with log := m.log ++ [(w, sec)] }

variable [DecidableEq ι]

def setThread (m : PendingMachine ι ρ) (w : ι) (p : BindPhase) : PendingMachine ι ρ :=
  { m with threads := Function.update m.threads w p }

def setLookup [DecidableEq ρ] (m : PendingMachine ι ρ) (r : ρ) (p : LookupPhase) : PendingMachine ι ρ :=
  { m with lookups := Function.update m.lookups r p }

def modify (m : PendingMachine ι ρ) (set way : ℕ) (f : PendingPort → PendingPort) : PendingMachine ι ρ :=
  { m with pending := PendingPorts.modifyAt m.pending set way f }

def enter (m : PendingMachine ι ρ) (w : ι) (b : PendingBind) : PendingMachine ι ρ :=
  { m.setThread w (.called b) with calls := Function.update m.calls w (m.calls w ++ [b]) }

@[simp] theorem setThread_self (m : PendingMachine ι ρ) (w : ι) (p : BindPhase) : (m.setThread w p).threads w = p :=
  Function.update_self ..

theorem setThread_ne (m : PendingMachine ι ρ) {v w : ι} (h : v ≠ w) (p : BindPhase) :
    (m.setThread w p).threads v = m.threads v := Function.update_of_ne h ..

def stepThread (hz : UInt64) (m : PendingMachine ι ρ) (w : ι) : BindPhase → PendingAct ι ρ → Option (PendingMachine ι ρ)
  | .idle, .call _ owner => some (m.enter w ⟨owner, m.jiffies⟩)
  | .called b, .lock _ => if m.lock = none then some { m.setThread w (.locked b) with lock := some w } else none
  | .locked b, .select _ => some (m.setThread w (.selected b (b.selectedWay m.pending)))
  | .selected b way, .openEntry _ =>
    some ((m.modify (pendingSet b.owner) way .increment).setThread w (.storing b way []))
  -- between the two write barriers the words go to memory in any order
  | .storing b way stored, .store _ i =>
    if i ∈ stored then none
    else some ((m.modify (pendingSet b.owner) way (.store i (b.data hz))).setThread w (.storing b way (i :: stored)))
  | .storing b way stored, .closeEntry _ =>
    if ∀ i ∈ PendingWord.all, i ∈ stored then
      some ((m.modify (pendingSet b.owner) way .increment).setThread w .closing |>.append w (.bind b))
    else none
  | .closing, .unlock _ => some { m.setThread w .idle with lock := none }
  | .idle, .lockClear _ => if m.lock = none then some { m.setThread w .clearing with lock := some w } else none
  -- `memset`, one word of one entry at a time
  | .clearing, .wipe _ set way none => some (m.modify set way fun e => { e with sequence := 0 })
  | .clearing, .wipe _ set way (some i) => some (m.modify set way (.store i (OwnedPort.zero, 0)))
  | .clearing, .unlock _ =>
    if m.pending = pendingPortsZero then some ({ m.setThread w .idle with lock := none }.append w .clear) else none
  | _, _ => none

variable [DecidableEq ρ]

def stepLookup (m : PendingMachine ι ρ) (r : ρ) : LookupPhase → PendingAct ι ρ → Option (PendingMachine ι ρ)
  | .idle, .start _ wanted | .done _ _, .start _ wanted => some (m.setLookup r (.probing wanted 0))
  | .probing wanted way, .probe _ =>
    match PendingPorts.entryAt m.pending (pendingSet wanted) way with
    | none => some (m.setLookup r (.done wanted false))
    | some e =>
      if e.sequence &&& 1 = 0 then some (m.setLookup r (.loading wanted way e.sequence [] (OwnedPort.zero, 0)))
      else some (m.setLookup r (.probing wanted (way + 1)))
  -- between the two read barriers the words come from memory in any order
  | .loading wanted way before loaded mine, .load _ i =>
    if i ∈ loaded then none
    else (PendingPorts.entryAt m.pending (pendingSet wanted) way).map fun e =>
      m.setLookup r (.loading wanted way before (i :: loaded) (pendingWords.copy i e.data mine))
  | .loading wanted way before loaded mine, .recheck _ =>
    if ∀ i ∈ PendingWord.all, i ∈ loaded then
      (PendingPorts.entryAt m.pending (pendingSet wanted) way).map fun e =>
        m.setLookup r (.comparing wanted way before e.sequence mine)
    else none
  | .comparing wanted way before after mine, .compare _ =>
    if before = after ∧ after &&& 1 = 0 ∧ ownedPortEqual mine.1 wanted ∧ timeBefore m.jiffies mine.2 then
      some (m.setLookup r (.done wanted true))
    else some (m.setLookup r (.probing wanted (way + 1)))
  | _, _ => none

def step (hz : UInt64) (m : PendingMachine ι ρ) (a : PendingAct ι ρ) : Option (PendingMachine ι ρ) :=
  match a with
  | .tick jiffies => some { m with jiffies }
  | .call w _ | .lock w | .select w | .openEntry w | .store w _ | .closeEntry w | .unlock w | .lockClear w
  | .wipe w _ _ _ => m.stepThread hz w (m.threads w) a
  | .start r _ | .probe r | .load r _ | .recheck r | .compare r => m.stepLookup r (m.lookups r) a

end PendingMachine

/-! ### What a thread can do -/

open PendingMachine

section Threads
variable {ι ρ : Type} [DecidableEq ι] {hz : UInt64} {m m' : PendingMachine ι ρ} {w : ι} {a : PendingAct ι ρ}

/-- The steps of a thread. -/
inductive ThreadStep (hz : UInt64) (m : PendingMachine ι ρ) (w : ι) :
    BindPhase → PendingAct ι ρ → PendingMachine ι ρ → Prop
  | call {v : ι} (owner : OwnedPort) :
      ThreadStep hz m w .idle (.call v owner) (m.enter w ⟨owner, m.jiffies⟩)
  | lock {v : ι} {b : PendingBind} (hfree : m.lock = none) :
      ThreadStep hz m w (.called b) (.lock v) { m.setThread w (.locked b) with lock := some w }
  | select {v : ι} {b : PendingBind} :
      ThreadStep hz m w (.locked b) (.select v) (m.setThread w (.selected b (b.selectedWay m.pending)))
  | openEntry {v : ι} {b : PendingBind} {way : ℕ} :
      ThreadStep hz m w (.selected b way) (.openEntry v)
        ((m.modify (pendingSet b.owner) way .increment).setThread w (.storing b way []))
  | store {v : ι} {b : PendingBind} {way : ℕ} {stored : List PendingWord} (i : PendingWord) :
      ThreadStep hz m w (.storing b way stored) (.store v i)
        ((m.modify (pendingSet b.owner) way (.store i (b.data hz))).setThread w (.storing b way (i :: stored)))
  | closeEntry {v : ι} {b : PendingBind} {way : ℕ} {stored : List PendingWord}
      (hall : ∀ i ∈ PendingWord.all, i ∈ stored) :
      ThreadStep hz m w (.storing b way stored) (.closeEntry v)
        ((m.modify (pendingSet b.owner) way .increment).setThread w .closing |>.append w (.bind b))
  | unlock {v : ι} : ThreadStep hz m w .closing (.unlock v) { m.setThread w .idle with lock := none }
  | lockClear {v : ι} (hfree : m.lock = none) :
      ThreadStep hz m w .idle (.lockClear v) { m.setThread w .clearing with lock := some w }
  | wipe {v : ι} (set way : ℕ) (word : Option PendingWord) (f : PendingPort → PendingPort) :
      ThreadStep hz m w .clearing (.wipe v set way word) (m.modify set way f)
  | unlockClear {v : ι} (hzero : m.pending = pendingPortsZero) :
      ThreadStep hz m w .clearing (.unlock v) ({ m.setThread w .idle with lock := none }.append w .clear)

theorem ThreadStep.of_stepThread {p : BindPhase} (h : m.stepThread hz w p a = some m') : ThreadStep hz m w p a m' := by
  unfold stepThread at h
  split at h
  case h_1 => cases h; exact .call _
  case h_2 =>
    split_ifs at h with hfree
    cases h
    exact .lock hfree
  case h_3 => cases h; exact .select
  case h_4 => cases h; exact .openEntry
  case h_5 =>
    split_ifs at h
    cases h
    exact .store _
  case h_6 =>
    split_ifs at h with hall
    cases h
    exact .closeEntry hall
  case h_7 => cases h; exact .unlock
  case h_8 =>
    split_ifs at h with hfree
    cases h
    exact .lockClear hfree
  case h_9 => cases h; exact .wipe ..
  case h_10 => cases h; exact .wipe ..
  case h_11 =>
    split_ifs at h with hzero
    cases h
    exact .unlockClear hzero
  case h_12 => cases h

/-- The steps of a lookup, which only change its own phase. -/
inductive LookupStep (m : PendingMachine ι ρ) : LookupPhase → PendingAct ι ρ → LookupPhase → Prop
  | start {q : ρ} {p : LookupPhase} (wanted : OwnedPort) : LookupStep m p (.start q wanted) (.probing wanted 0)
  | pass {q : ρ} {wanted : OwnedPort} {way : ℕ}
      (he : PendingPorts.entryAt m.pending (pendingSet wanted) way = none) :
      LookupStep m (.probing wanted way) (.probe q) (.done wanted false)
  | note {q : ρ} {wanted : OwnedPort} {way : ℕ} {e : PendingPort}
      (he : PendingPorts.entryAt m.pending (pendingSet wanted) way = some e) (heven : e.sequence &&& 1 = 0) :
      LookupStep m (.probing wanted way) (.probe q) (.loading wanted way e.sequence [] (OwnedPort.zero, 0))
  | skip {q : ρ} {wanted : OwnedPort} {way : ℕ} {e : PendingPort}
      (he : PendingPorts.entryAt m.pending (pendingSet wanted) way = some e) (hodd : ¬ e.sequence &&& 1 = 0) :
      LookupStep m (.probing wanted way) (.probe q) (.probing wanted (way + 1))
  | load {q : ρ} {wanted : OwnedPort} {way : ℕ} {before : UInt32} {loaded : List PendingWord} {mine : PendingData}
      {e : PendingPort} (he : PendingPorts.entryAt m.pending (pendingSet wanted) way = some e) {i : PendingWord}
      (hi : i ∉ loaded) :
      LookupStep m (.loading wanted way before loaded mine) (.load q i)
        (.loading wanted way before (i :: loaded) (pendingWords.copy i e.data mine))
  | recheck {q : ρ} {wanted : OwnedPort} {way : ℕ} {before : UInt32} {loaded : List PendingWord} {mine : PendingData}
      {e : PendingPort} (he : PendingPorts.entryAt m.pending (pendingSet wanted) way = some e)
      (hall : ∀ i ∈ PendingWord.all, i ∈ loaded) :
      LookupStep m (.loading wanted way before loaded mine) (.recheck q) (.comparing wanted way before e.sequence mine)
  | hit {q : ρ} {wanted : OwnedPort} {way : ℕ} {before after : UInt32} {mine : PendingData}
      (h : before = after ∧ after &&& 1 = 0 ∧ ownedPortEqual mine.1 wanted ∧ timeBefore m.jiffies mine.2) :
      LookupStep m (.comparing wanted way before after mine) (.compare q) (.done wanted true)
  | miss {q : ρ} {wanted : OwnedPort} {way : ℕ} {before after : UInt32} {mine : PendingData}
      (h : ¬ (before = after ∧ after &&& 1 = 0 ∧ ownedPortEqual mine.1 wanted ∧ timeBefore m.jiffies mine.2)) :
      LookupStep m (.comparing wanted way before after mine) (.compare q) (.probing wanted (way + 1))

theorem ThreadStep.lookup?_eq {p : BindPhase} (h : ThreadStep hz m w p a m') : a.lookup? = none := by
  cases h <;> rfl

theorem ThreadStep.lookups_eq {p : BindPhase} (h : ThreadStep hz m w p a m') : m'.lookups = m.lookups := by
  cases h <;> rfl

omit [DecidableEq ι] in
theorem LookupStep.of_stepLookup [DecidableEq ρ] {r : ρ} {p : LookupPhase} (h : m.stepLookup r p a = some m') :
    ∃ p', LookupStep m p a p' ∧ m' = m.setLookup r p' := by
  unfold stepLookup at h
  split at h
  case h_1 | h_2 =>
    cases h
    exact ⟨_, .start _, rfl⟩
  case h_3 =>
    split at h
    case h_1 he =>
      cases h
      exact ⟨_, .pass he, rfl⟩
    case h_2 he =>
      split_ifs at h with hseq
      · cases h
        exact ⟨_, .note he hseq, rfl⟩
      · cases h
        exact ⟨_, .skip he hseq, rfl⟩
  case h_4 =>
    split_ifs at h with hi
    obtain ⟨e, he, rfl⟩ := Option.map_eq_some_iff.1 h
    exact ⟨_, .load he hi, rfl⟩
  case h_5 =>
    split_ifs at h with hall
    obtain ⟨e, he, rfl⟩ := Option.map_eq_some_iff.1 h
    exact ⟨_, .recheck he hall, rfl⟩
  case h_6 =>
    split_ifs at h with hhit
    · cases h
      exact ⟨_, .hit hhit, rfl⟩
    · cases h
      exact ⟨_, .miss hhit, rfl⟩
  case h_7 => cases h

/-- A step is a new time, a step of a thread or a step of a lookup. -/
theorem step_cases [DecidableEq ρ] (h : m.step hz a = some m') :
    (∃ jiffies, a = .tick jiffies ∧ m' = { m with jiffies }) ∨
    (∃ w, ThreadStep hz m w (m.threads w) a m') ∨
    (∃ r p, a.lookup? = some r ∧ LookupStep m (m.lookups r) a p ∧ m' = m.setLookup r p) := by
  unfold PendingMachine.step at h
  split at h
  case h_1 jiffies =>
    cases h
    exact .inl ⟨jiffies, rfl, rfl⟩
  case h_11 | h_12 | h_13 | h_14 | h_15 =>
    obtain ⟨p, hlookup, hset⟩ := LookupStep.of_stepLookup h
    exact .inr (.inr ⟨_, p, rfl, hlookup, hset⟩)
  all_goals exact .inr (.inl ⟨_, .of_stepThread h⟩)

end Threads

/-! ### The lock -/

/-- The entry of the table with some words of the call in it. -/
def PendingBind.partly (hz : UInt64) (b : PendingBind) (stored : List PendingWord) (e : PendingPort) : PendingPort :=
  e.increment.withData (stored.foldr (fun i d => pendingWords.copy i (b.data hz) d) e.data)

namespace BindPhase

/-- How the memory differs from the table of the log, for the thread that holds the lock. -/
def Describes (hz : UInt64) (base pending : PendingPorts) : BindPhase → Prop
  | .idle | .called _ => False
  | .locked _ | .closing => pending = base
  | .selected b way => pending = base ∧ way = b.selectedWay base
  | .storing b way stored =>
    way = b.selectedWay base ∧ pending = PendingPorts.modifyAt base (pendingSet b.owner) way (b.partly hz stored)
  | .clearing => True

def Holds : BindPhase → Prop
  | .idle | .called _ => False
  | _ => True

theorem Describes.holds {hz : UInt64} {base pending : PendingPorts} {p : BindPhase} (h : p.Describes hz base pending) :
    p.Holds := by
  cases p with
  | idle | called => exact h
  | _ => trivial

end BindPhase

theorem recordPending_eq_modifyAt (hz : UInt64) (b : PendingBind) (p : PendingPorts) :
    (recordPending hz b.now b.owner p).1 =
      PendingPorts.modifyAt p (pendingSet b.owner) (b.selectedWay p) fun e =>
        ⟨e.sequence + 1 + 1, b.owner, b.now + 2 * hz⟩ := by
  unfold recordPending PendingPorts.modifyAt PendingBind.selectedWay
  dsimp only
  rw [← pendingSet]
  cases p[pendingSet b.owner]? with
  | none => rfl
  | some ways =>
    dsimp only
    cases ways[selectWay b.owner b.now ways.toList 0 0 (ways.get ⟨0, by decide⟩).expires]? with
    | none => rfl
    | some e => rfl

/-- In every state the lock has at most one holder, and the memory is what its phase says. -/
structure LockInv {ι ρ : Type} (hz : UInt64) (m : PendingMachine ι ρ) : Prop where
  holder : ∀ w, (m.threads w).Holds → m.lock = some w
  free : m.lock = none → m.pending = m.committed hz
  busy : ∀ w, m.lock = some w → (m.threads w).Describes hz (m.committed hz) m.pending

namespace LockInv
variable {ι ρ : Type} {hz : UInt64} {m m' : PendingMachine ι ρ} {w : ι} {a : PendingAct ι ρ}

theorem initial (hz jiffies : UInt64) : LockInv hz (.initial jiffies : PendingMachine ι ρ) :=
  ⟨fun _ h => h.elim, fun _ => rfl, fun _ h => by cases h⟩

theorem congr (h : LockInv hz m) (hpending : m'.pending = m.pending) (hlock : m'.lock = m.lock)
    (hthreads : m'.threads = m.threads) (hlog : m'.log = m.log) : LockInv hz m' := by
  have hcommitted : m'.committed hz = m.committed hz := by rw [committed, committed, hlog]
  refine ⟨fun w hw => ?_, fun hfree => ?_, fun w hw => ?_⟩
  · rw [hlock]
    rw [hthreads] at hw
    exact h.holder w hw
  · rw [hpending, hcommitted]
    exact h.free (hlock ▸ hfree)
  · rw [hpending, hcommitted, hthreads]
    exact h.busy w (hlock ▸ hw)

variable [DecidableEq ι]

theorem held (h : LockInv hz m) (hw : m.lock = some w) {p : BindPhase} {pending : PendingPorts}
    {log : List (ι × PendingSection)}
    (hp : p.Describes hz ((log.map Prod.snd).foldl (PendingSection.apply hz) pendingPortsZero) pending) :
    LockInv hz { m.setThread w p with pending, log } := by
  refine ⟨fun v hv => ?_, fun hfree => ?_, fun v hv => ?_⟩
  · by_cases hvw : v = w
    · rw [hvw]
      exact hw
    · have hv' : (m.threads v).Holds := m.setThread_ne hvw _ ▸ hv
      exact absurd (Option.some.inj ((h.holder v hv').symm.trans hw)) hvw
  · cases hw.symm.trans hfree
  · obtain rfl : w = v := Option.some.inj (hw.symm.trans hv)
    show ((m.setThread w p).threads w).Describes hz _ pending
    rw [setThread_self]
    exact hp

theorem waits (h : LockInv hz m) (hw : ¬ (m.threads w).Holds) {p : BindPhase} (hp : ¬ p.Holds) :
    LockInv hz (m.setThread w p) := by
  refine ⟨fun v hv => ?_, h.free, fun v hv => ?_⟩
  · by_cases hvw : v = w
    · subst hvw
      rw [setThread_self] at hv
      exact absurd hv hp
    · rw [setThread_ne m hvw] at hv
      exact h.holder v hv
  · have hvw : v ≠ w := by
      rintro rfl
      exact hw (h.busy v hv).holds
    rw [setThread_ne m hvw]
    exact h.busy v hv

theorem takes (h : LockInv hz m) (hfree : m.lock = none) {p : BindPhase}
    (hp : p.Describes hz (m.committed hz) m.pending) : LockInv hz { m.setThread w p with lock := some w } := by
  refine ⟨fun v hv => ?_, fun hnone => (by cases hnone), fun v hv => ?_⟩
  · by_cases hvw : v = w
    · rw [hvw]
    · have hv' : (m.threads v).Holds := m.setThread_ne hvw _ ▸ hv
      cases (h.holder v hv').symm.trans hfree
  · obtain rfl : w = v := Option.some.inj hv
    show ((m.setThread w p).threads w).Describes hz (m.committed hz) m.pending
    rw [setThread_self]
    exact hp

theorem leaves (h : LockInv hz m) (hw : m.lock = some w) {log : List (ι × PendingSection)}
    (hlog : m.pending = (log.map Prod.snd).foldl (PendingSection.apply hz) pendingPortsZero) :
    LockInv hz { m.setThread w .idle with lock := none, log } := by
  refine ⟨fun v hv => ?_, fun _ => hlog, fun v hv => (by cases hv)⟩
  by_cases hvw : v = w
  · subst hvw
    rw [show _ = BindPhase.idle from m.setThread_self v _] at hv
    exact hv.elim
  · have hv' : (m.threads v).Holds := m.setThread_ne hvw _ ▸ hv
    exact absurd (Option.some.inj ((h.holder v hv').symm.trans hw)) hvw

theorem thread (h : LockInv hz m) (hstep : ThreadStep hz m w (m.threads w) a m') : LockInv hz m' := by
  generalize hp : m.threads w = p at hstep
  have hholds : p.Holds → m.lock = some w := fun hh => h.holder w (hp ▸ hh)
  have hbusy : m.lock = some w → p.Describes hz (m.committed hz) m.pending := fun hw => hp ▸ h.busy w hw
  cases hstep with
  | call owner =>
    have hwaits : LockInv hz (m.setThread w (.called ⟨owner, m.jiffies⟩)) := h.waits (by rw [hp]; exact id) id
    exact hwaits.congr rfl rfl rfl rfl
  | lock hfree => exact h.takes hfree (h.free hfree)
  | select =>
    have hw := hholds trivial
    have hbase : m.pending = m.committed hz := hbusy hw
    refine h.held hw ⟨hbase, ?_⟩
    rw [hbase]
    rfl
  | @openEntry _ b way =>
    have hw := hholds trivial
    obtain ⟨hbase, hway⟩ := hbusy hw
    refine h.held hw ⟨hway, ?_⟩
    show PendingPorts.modifyAt m.pending _ way PendingPort.increment = _
    rw [hbase]
    rfl
  | @store _ b way stored i =>
    have hw := hholds trivial
    obtain ⟨hway, hmem⟩ := hbusy hw
    refine h.held hw ⟨hway, ?_⟩
    show PendingPorts.modifyAt m.pending _ way (PendingPort.store i (b.data hz)) = _
    rw [hmem, PendingPorts.modifyAt_modifyAt]
    rfl
  | @closeEntry _ b way stored hall =>
    have hw := hholds trivial
    obtain ⟨hway, hmem⟩ := hbusy hw
    have hwhole : ∀ i, i ∈ stored := fun i => hall i i.mem_all
    refine h.held hw ?_
    show PendingPorts.modifyAt m.pending _ way PendingPort.increment = _
    rw [List.map_append, List.foldl_append]
    show _ = (recordPending hz b.now b.owner (m.committed hz)).1
    rw [hmem, PendingPorts.modifyAt_modifyAt, recordPending_eq_modifyAt, ← hway]
    unfold PendingBind.partly
    simp only [Words.foldr_copy_all _ _ _ hwhole]
    rfl
  | unlock => exact h.leaves (hholds trivial) (hbusy (hholds trivial))
  | lockClear hfree => exact h.takes hfree trivial
  | wipe set way word f =>
    have hw := hholds trivial
    have hheld : LockInv hz (((m.modify set way f).setThread w .clearing)) := h.held hw trivial
    refine hheld.congr rfl rfl ?_ rfl
    show m.threads = Function.update m.threads w .clearing
    rw [← hp, Function.update_eq_self]
  | unlockClear hzero =>
    refine h.leaves (hholds trivial) ?_
    rw [hzero, List.map_append, List.foldl_append]
    rfl

theorem step [DecidableEq ρ] (h : LockInv hz m) (hstep : m.step hz a = some m') : LockInv hz m' := by
  rcases step_cases hstep with ⟨jiffies, -, rfl⟩ | ⟨w, hthread⟩ | ⟨r, p, -, -, rfl⟩
  · exact h.congr rfl rfl rfl rfl
  · exact h.thread hthread
  · exact h.congr rfl rfl rfl rfl

end LockInv

/-! ### What a step can do to an entry -/

/-- No entry is being stored. -/
def PendingPorts.Settled (p : PendingPorts) : Prop :=
  ∀ set way e, entryAt p set way = some e → e.guarded.Settled

theorem PendingPorts.Settled.modifyAt {p : PendingPorts} (h : p.Settled) {set way : ℕ} {f : PendingPort → PendingPort}
    (hf : ∀ e : PendingPort, e.guarded.Settled → (f e).guarded.Settled) :
    (PendingPorts.modifyAt p set way f).Settled := by
  intro set' way' e' he'
  rw [entryAt_modifyAt] at he'
  split_ifs at he' with hat
  · obtain ⟨e, he, rfl⟩ := Option.map_eq_some_iff.1 he'
    exact hf e (h _ _ e he)
  · exact h _ _ e' he'

theorem PendingPorts.settled_zero : pendingPortsZero.Settled := by
  intro set way e he
  obtain ⟨ways, hways, he⟩ := Option.bind_eq_some_iff.1 he
  obtain ⟨hset, rfl⟩ := Vector.getElem?_eq_some_iff.1 hways
  obtain ⟨hway, rfl⟩ := Vector.getElem?_eq_some_iff.1 he
  simp only [pendingPortsZero, Vector.getElem_replicate]
  rfl

theorem PendingPorts.Settled.apply {p : PendingPorts} (h : p.Settled) (hz : UInt64) (sec : PendingSection) :
    (sec.apply hz p).Settled := by
  cases sec with
  | bind b =>
    show PendingPorts.Settled (recordPending hz b.now b.owner p).1
    rw [recordPending_eq_modifyAt]
    refine h.modifyAt fun e he => ?_
    exact (sequence_even e.sequence).trans he
  | clear => exact settled_zero

theorem settled_committed {ι ρ : Type} (hz : UInt64) (m : PendingMachine ι ρ) : (m.committed hz).Settled :=
  List.foldlRecOn (m.log.map Prod.snd) (PendingSection.apply hz) PendingPorts.settled_zero fun _ hp sec _ =>
    hp.apply hz sec

theorem odd_of_even {s : UInt32} (h : s &&& 1 = 0) : ¬ (s + 1) &&& 1 = 0 := by
  intro hodd
  have hs := congrArg UInt32.toNat h
  have hs' := congrArg UInt32.toNat hodd
  rw [UInt32.toNat_and] at hs hs'
  rw [UInt32.toNat_add] at hs'
  change s.toNat &&& 1 = 0 at hs
  change (s.toNat + 1) % 2 ^ 32 &&& 1 = 0 at hs'
  rw [Nat.and_one_is_mod] at hs hs'
  omega

theorem PendingPorts.moves_modifyAt {p : PendingPorts} {set way set' way' : ℕ} {f : PendingPort → PendingPort}
    {e : PendingPort} {n : ℕ} (he : entryAt p set' way' = some e)
    (hf : set' = set → way' = way → e.guarded.Moves (f e).guarded n) :
    ∃ e', entryAt (modifyAt p set way f) set' way' = some e' ∧ ∃ k ≤ n, e.guarded.Moves e'.guarded k := by
  rw [entryAt_modifyAt]
  by_cases hat : set' = set ∧ way' = way
  · obtain ⟨rfl, rfl⟩ := hat
    rw [if_pos ⟨rfl, rfl⟩, he]
    exact ⟨f e, rfl, n, le_rfl, hf rfl rfl⟩
  · rw [if_neg hat]
    exact ⟨e, he, 0, Nat.zero_le n, .refl _⟩

section Moves
variable {ι ρ : Type} [DecidableEq ι] {hz : UInt64} {m m' : PendingMachine ι ρ} {w : ι} {a : PendingAct ι ρ}

/-- An entry is only stored to between two increments, unless the table is being cleared. -/
theorem LockInv.moves_thread (h : LockInv hz m) (hclear : ∀ w, m.threads w ≠ .clearing)
    (hstep : ThreadStep hz m w (m.threads w) a m') {set way : ℕ} {e : PendingPort}
    (he : PendingPorts.entryAt m.pending set way = some e) :
    ∃ e', PendingPorts.entryAt m'.pending set way = some e' ∧ ∃ k ≤ a.increments, e.guarded.Moves e'.guarded k := by
  have hsame : ∃ e', PendingPorts.entryAt m.pending set way = some e' ∧
      ∃ k ≤ a.increments, e.guarded.Moves e'.guarded k := ⟨e, he, 0, Nat.zero_le _, .refl _⟩
  generalize hp : m.threads w = p at hstep
  cases hstep with
  | call | lock | select | unlock | lockClear | unlockClear => exact hsame
  | openEntry | closeEntry => exact PendingPorts.moves_modifyAt he fun _ _ => .increment rfl
  | @store _ b way' stored i =>
    refine PendingPorts.moves_modifyAt he fun hset hway => .store rfl ?_
    -- the entry is the committed one with its number incremented
    have hholds : (m.threads w).Holds := by rw [hp]; trivial
    have hbusy := h.busy w (h.holder w hholds)
    rw [hp] at hbusy
    obtain ⟨-, hmem⟩ := hbusy
    rw [hmem, PendingPorts.entryAt_modifyAt, if_pos ⟨hset, hway⟩] at he
    obtain ⟨e₀, he₀, rfl⟩ := Option.map_eq_some_iff.1 he
    exact odd_of_even (settled_committed hz m _ _ e₀ he₀)
  | wipe => exact absurd hp (hclear w)

variable [DecidableEq ρ]

theorem LockInv.moves (h : LockInv hz m) (hclear : ∀ w, m.threads w ≠ .clearing) (hstep : m.step hz a = some m')
    {set way : ℕ} {e : PendingPort} (he : PendingPorts.entryAt m.pending set way = some e) :
    ∃ e', PendingPorts.entryAt m'.pending set way = some e' ∧ ∃ k ≤ a.increments, e.guarded.Moves e'.guarded k := by
  rcases step_cases hstep with ⟨jiffies, -, rfl⟩ | ⟨w, hthread⟩ | ⟨r, p, -, -, rfl⟩
  · exact ⟨e, he, 0, Nat.zero_le _, .refl _⟩
  · exact h.moves_thread hclear hthread he
  · exact ⟨e, he, 0, Nat.zero_le _, .refl _⟩

omit [DecidableEq ι] [DecidableEq ρ] in
/-- A settled entry of the memory is that of the table, unless it is being cleared. -/
theorem LockInv.committed_of_settled (h : LockInv hz m) (hclear : ∀ w, m.threads w ≠ .clearing) {set way : ℕ}
    {e : PendingPort} (he : PendingPorts.entryAt m.pending set way = some e) (hs : e.guarded.Settled) :
    PendingPorts.entryAt (m.committed hz) set way = some e := by
  cases hlock : m.lock with
  | none => rwa [← h.free hlock]
  | some w =>
    have hbusy := h.busy w hlock
    cases hp : m.threads w with
    | idle | called =>
      rw [hp] at hbusy
      exact hbusy.elim
    | locked | closing =>
      rw [hp] at hbusy
      rwa [← show m.pending = m.committed hz from hbusy]
    | selected =>
      rw [hp] at hbusy
      rwa [← hbusy.1]
    | storing b way' stored =>
      rw [hp] at hbusy
      rw [hbusy.2, PendingPorts.entryAt_modifyAt] at he
      split_ifs at he with hat
      · obtain ⟨e₀, he₀, rfl⟩ := Option.map_eq_some_iff.1 he
        exact absurd hs (odd_of_even (settled_committed hz m _ _ e₀ he₀))
      · exact he
    | clearing => exact absurd hp (hclear w)

theorem not_clearing_step (hclear : ∀ w, m.threads w ≠ .clearing) (ha : ∀ w, a ≠ .lockClear w)
    (hstep : m.step hz a = some m') (v : ι) : m'.threads v ≠ .clearing := by
  rcases step_cases hstep with ⟨jiffies, -, rfl⟩ | ⟨w, hthread⟩ | ⟨r, p, -, -, rfl⟩
  · exact hclear v
  · have hset : ∀ {p : BindPhase}, p ≠ .clearing → (m.setThread w p).threads v ≠ .clearing := by
      intro p hp
      by_cases hvw : v = w
      · rw [hvw, setThread_self]
        exact hp
      · rw [setThread_ne m hvw]
        exact hclear v
    generalize m.threads w = p at hthread
    cases hthread with
    | lockClear => exact absurd rfl (ha _)
    | wipe => exact hclear v
    | _ => exact hset (by simp)
  · exact hclear v

end Moves

/-! ### The calls of the threads and the log -/

/-- The call of a thread that is not in the log yet. -/
def BindPhase.unlogged : BindPhase → Option PendingBind
  | .called b | .locked b | .selected b _ | .storing b _ _ => some b
  | .idle | .closing | .clearing => none

def PendingSection.bind? : PendingSection → Option PendingBind
  | .bind b => some b
  | .clear => none

section Calls
variable {ι ρ : Type} [DecidableEq ι] {hz : UInt64} {m m' : PendingMachine ι ρ} {w : ι} {a : PendingAct ι ρ}

/-- The calls of a thread that are in the log. -/
def PendingMachine.logged (m : PendingMachine ι ρ) (w : ι) : List PendingBind :=
  m.log.filterMap fun entry => if entry.1 = w then entry.2.bind? else none

/-- The calls of each thread are in the log, in their order and once each, but for the one under way. -/
def CallInv (m : PendingMachine ι ρ) : Prop := ∀ w, m.calls w = m.logged w ++ (m.threads w).unlogged.toList

theorem CallInv.of_thread (h : CallInv m) (w : ι) (hcalls : ∀ v ≠ w, m'.calls v = m.calls v)
    (hlogged : ∀ v ≠ w, m'.logged v = m.logged v) (hthreads : ∀ v ≠ w, m'.threads v = m.threads v)
    (hself : m'.calls w = m'.logged w ++ (m'.threads w).unlogged.toList) : CallInv m' := by
  intro v
  by_cases hvw : v = w
  · rw [hvw]
    exact hself
  · rw [hcalls v hvw, hlogged v hvw, hthreads v hvw]
    exact h v

theorem CallInv.goesOn (h : CallInv m) {p : BindPhase} (hp : p.unlogged = (m.threads w).unlogged)
    (hcalls : m'.calls = m.calls) (hlog : m'.log = m.log) (hthreads : m'.threads = (m.setThread w p).threads) :
    CallInv m' := by
  have hlogged : ∀ v, m'.logged v = m.logged v := fun v => by rw [logged, logged, hlog]
  refine h.of_thread w (fun v _ => by rw [hcalls]) (fun v _ => hlogged v) (fun v hv => ?_) ?_
  · rw [hthreads, setThread_ne m hv]
  · rw [hcalls, hlogged, hthreads, setThread_self, hp]
    exact h w

theorem logged_append_self (m : PendingMachine ι ρ) (w : ι) (sec : PendingSection) :
    (m.append w sec).logged w = m.logged w ++ sec.bind?.toList := by
  unfold logged append
  rw [List.filterMap_append]
  cases sec with
  | bind b => simp [PendingSection.bind?]
  | clear => simp [PendingSection.bind?]

theorem logged_append_ne (m : PendingMachine ι ρ) {v : ι} (hv : v ≠ w) (sec : PendingSection) :
    (m.append w sec).logged v = m.logged v := by
  unfold logged append
  rw [List.filterMap_append]
  simp [hv.symm]

theorem CallInv.thread (h : CallInv m) (hstep : ThreadStep hz m w (m.threads w) a m') : CallInv m' := by
  have hw := h w
  generalize hp : m.threads w = p at hstep
  rw [hp] at hw
  cases hstep with
  | call owner =>
    refine h.of_thread w (fun v hv => Function.update_of_ne hv ..) (fun _ _ => rfl) (fun v hv => m.setThread_ne hv _) ?_
    show Function.update m.calls w _ w = m.logged w ++ ((m.setThread w _).threads w).unlogged.toList
    rw [Function.update_self, setThread_self, hw]
    simp [BindPhase.unlogged]
  | lock | select | openEntry | store | unlock | lockClear => exact h.goesOn (by rw [hp]; rfl) rfl rfl rfl
  | wipe => exact h
  | @closeEntry _ b way stored =>
    refine h.of_thread w (fun _ _ => rfl) (fun v hv => logged_append_ne _ hv _) (fun v hv => m.setThread_ne hv _) ?_
    show m.calls w = _ ++ ((m.setThread w .closing).threads w).unlogged.toList
    rw [logged_append_self, setThread_self, hw]
    exact (List.append_nil _).symm
  | unlockClear =>
    refine h.of_thread w (fun _ _ => rfl) (fun v hv => logged_append_ne _ hv _) (fun v hv => m.setThread_ne hv _) ?_
    show m.calls w = _ ++ ((m.setThread w .idle).threads w).unlogged.toList
    rw [logged_append_self, setThread_self, hw]
    exact (List.append_nil _).symm

theorem CallInv.step [DecidableEq ρ] (h : CallInv m) (hstep : m.step hz a = some m') : CallInv m' := by
  rcases step_cases hstep with ⟨jiffies, -, rfl⟩ | ⟨w, hthread⟩ | ⟨r, p, -, -, rfl⟩
  · exact h
  · exact h.thread hthread
  · exact h

end Calls

/-! ### Binds: a serial order -/

section Runs
variable {ι ρ : Type} [DecidableEq ι] [DecidableEq ρ] {hz jiffies : UInt64} {m m' m₁ m₂ : PendingMachine ι ρ}
  {a : PendingAct ι ρ} {acts : List (PendingAct ι ρ)} {r : ρ} {wanted : OwnedPort}

theorem LockInv.of_execs (h : execs (PendingMachine.step hz) (.initial jiffies) acts = some m) : LockInv hz m :=
  execs_invariant (.initial hz jiffies) (fun _ _ _ hm hstep => hm.step hstep) h

theorem CallInv.of_execs (h : execs (PendingMachine.step hz) (.initial jiffies) acts = some m) : CallInv m :=
  execs_invariant (fun _ => rfl) (fun _ _ _ hm hstep => CallInv.step hm hstep) h

/-- In every run the threads hold the lock one at a time. Each has its calls in the log once and in their order, but for
the one under way. The sections of the log, one after the other, make the table that is in memory while the lock is
free; and while it is held for a bind, every entry with an even number is still that of the table. -/
theorem pendingMachine_serial (h : execs (PendingMachine.step hz) (.initial jiffies) acts = some m) :
    (∀ v w, (m.threads v).Holds → (m.threads w).Holds → v = w) ∧
      (∀ w, m.calls w = m.logged w ++ (m.threads w).unlogged.toList) ∧
      (m.lock = none → m.pending = m.committed hz) ∧
      ((∀ w, m.threads w ≠ .clearing) → ∀ set way e, PendingPorts.entryAt m.pending set way = some e →
        e.sequence &&& 1 = 0 → PendingPorts.entryAt (m.committed hz) set way = some e) := by
  have hinv := LockInv.of_execs h
  refine ⟨fun v w hv hw => ?_, CallInv.of_execs h, hinv.free, fun hclear set way e he hs => ?_⟩
  · exact Option.some.inj ((hinv.holder v hv).symm.trans (hinv.holder w hw))
  · exact hinv.committed_of_settled hclear he hs

/-- The steps of a bind, with one thread. -/
def bindActs (owner : OwnedPort) : List (PendingAct Unit Unit) :=
  [.call () owner, .lock (), .select (), .openEntry ()] ++ PendingWord.all.map (.store ()) ++
    [.closeEntry (), .unlock ()]

theorem pendingMachine_serial_bind :
    ∃ m : PendingMachine Unit Unit,
      execs (PendingMachine.step 250) (.initial 1000) (bindActs (serverOwner 8080)) = some m ∧ m.lock = none ∧
      m.pending = m.committed 250 := by
  obtain ⟨m, h⟩ := Option.isSome_iff_exists.1 (show (execs (PendingMachine.step 250)
    (.initial 1000 : PendingMachine Unit Unit) (bindActs (serverOwner 8080))).isSome by decide +kernel)
  have hlock : (execs (PendingMachine.step 250) (.initial 1000 : PendingMachine Unit Unit)
    (bindActs (serverOwner 8080))).map PendingMachine.lock = some none := by decide +kernel
  rw [h] at hlock
  have hfree : m.lock = none := Option.some.inj hlock
  exact ⟨m, h, hfree, (pendingMachine_serial h).2.2.1 hfree⟩

/-! ### Lookups -/

def increments (acts : List (PendingAct ι ρ)) : ℕ := (acts.map PendingAct.increments).sum

omit [DecidableEq ι] [DecidableEq ρ] in
theorem increments_append (acts acts' : List (PendingAct ι ρ)) :
    increments (acts ++ acts') = increments acts + increments acts' := by
  unfold increments
  rw [List.map_append, List.sum_append]

theorem pendingPortLookupOne_of_entryAt {p : PendingPorts} {now : UInt64} {way : ℕ} {e : PendingPort}
    (he : PendingPorts.entryAt p (pendingSet wanted) way = some e) (hs : e.sequence &&& 1 = 0)
    (howner : ownedPortEqual e.owner wanted) (hlive : timeBefore now e.expires) :
    pendingPortLookupOne p now wanted := by
  obtain ⟨ways, hways, hway⟩ := Option.bind_eq_some_iff.1 he
  unfold pendingPortLookupOne
  dsimp only
  rw [← pendingSet, hways]
  dsimp only
  refine List.any_eq_true.2 ⟨e, Vector.mem_toList_iff.2 (Vector.mem_of_getElem? hway), ?_⟩
  simp [hs, howner, hlive]

/-- What is known of a lookup from the run so far, from `m₁` to `m`. The number it has noted was that of an entry of the
table at some moment `m₀`. -/
def LookupPhase.Traced (hz : UInt64) (m₁ : PendingMachine ι ρ) (acts : List (PendingAct ι ρ)) (m : PendingMachine ι ρ) :
    LookupPhase → Prop
  | .idle | .probing _ _ | .done _ false => True
  | .loading wanted way before loaded mine =>
    ∃ m₀ rest e₀ e n, Visits (PendingMachine.step hz) m₁ acts m₀ rest ∧
      PendingPorts.entryAt (m₀.committed hz) (pendingSet wanted) way = some e₀ ∧ e₀.sequence = before ∧
      PendingPorts.entryAt m.pending (pendingSet wanted) way = some e ∧ n ≤ increments rest ∧
      Reading pendingWords e₀.guarded e.guarded loaded mine n
  | .comparing wanted way before after mine =>
    ∃ m₀ rest e₀, Visits (PendingMachine.step hz) m₁ acts m₀ rest ∧
      PendingPorts.entryAt (m₀.committed hz) (pendingSet wanted) way = some e₀ ∧ e₀.guarded.Settled ∧
      (before = after → mine = e₀.data)
  | .done wanted true =>
    ∃ m₀ rest m' rest', Visits (PendingMachine.step hz) m₁ acts m₀ rest ∧
      Visits (PendingMachine.step hz) m₀ rest m' rest' ∧ pendingPortLookupOne (m₀.committed hz) m'.jiffies wanted

/-- Whatever step the machine takes, what is known of the lookup so far stays true. -/
theorem LookupPhase.Traced.carry {p : LookupPhase} (hinv : LockInv hz m) (hclear : ∀ w, m.threads w ≠ .clearing)
    (hstep : m.step hz a = some m') (h : p.Traced hz m₁ acts m) : p.Traced hz m₁ (acts ++ [a]) m' := by
  match p, h with
  | .idle, _ | .probing _ _, _ | .done _ false, _ => trivial
  | .loading wanted way before loaded mine, ⟨m₀, rest, e₀, e, n, hvisits, he₀, hbefore, he, hn, hreading⟩ =>
    obtain ⟨e', he', k, hk, hmoves⟩ := hinv.moves hclear hstep he
    refine ⟨m₀, rest ++ [a], e₀, e', n + k, hvisits.snoc a, he₀, hbefore, he', ?_, hreading.move hmoves⟩
    rw [increments_append]
    exact Nat.add_le_add hn hk
  | .comparing wanted way before after mine, ⟨m₀, rest, e₀, hvisits, hrest⟩ =>
    exact ⟨m₀, rest ++ [a], e₀, hvisits.snoc a, hrest⟩
  | .done wanted true, ⟨m₀, rest, m'', rest', hvisits, hvisits', hfound⟩ =>
    exact ⟨m₀, rest ++ [a], m'', rest' ++ [a], hvisits.snoc a, hvisits'.snoc a, hfound⟩

theorem LookupPhase.Traced.own {p p' : LookupPhase} (hinv : LockInv hz m) (hclear : ∀ w, m.threads w ≠ .clearing)
    (hrun : execs (PendingMachine.step hz) m₁ acts = some m) (hincs : increments acts < 2 ^ 32)
    (hstep : LookupStep m p a p') (h : p.Traced hz m₁ acts m) : p'.Traced hz m₁ acts m := by
  cases hstep with
  | start | pass | skip | miss => trivial
  | @note _ wanted way e he heven =>
    have hs : e.guarded.Settled := heven
    exact ⟨m, [], e, e, 0, .last hrun, hinv.committed_of_settled hclear he hs, rfl, he, Nat.zero_le _, .start _ hs _⟩
  | @load _ wanted way before loaded mine e he i hi =>
    obtain ⟨m₀, rest, e₀, e', n, hvisits, he₀, hbefore, he', hn, hreading⟩ := h
    obtain rfl := Option.some.inj (he'.symm.trans he)
    exact ⟨m₀, rest, e₀, e', n, hvisits, he₀, hbefore, he', hn, hreading.load i⟩
  | @recheck _ wanted way before loaded mine e he hall =>
    obtain ⟨m₀, rest, e₀, e', n, hvisits, he₀, rfl, he', hn, hreading⟩ := h
    obtain rfl := Option.some.inj (he'.symm.trans he)
    refine ⟨m₀, rest, e₀, hvisits, he₀, hreading.settled, fun hseq => ?_⟩
    have hrest : increments rest ≤ increments acts := by
      obtain ⟨front, rfl, -⟩ := hvisits
      rw [increments_append]
      exact Nat.le_add_left ..
    have hlt : n < 2 ^ 32 := by omega
    exact (hreading.whole (fun i => hall i i.mem_all) hlt hseq.symm).1
  | @hit _ wanted way before after mine hhit =>
    obtain ⟨m₀, rest, e₀, hvisits, he₀, hs, hwhole⟩ := h
    obtain ⟨hseq, -, howner, hlive⟩ := hhit
    obtain rfl := hwhole hseq
    exact ⟨m₀, rest, m, [], hvisits, .last (hvisits.execs_rest hrun),
      pendingPortLookupOne_of_entryAt he₀ hs howner hlive⟩

theorem LookupPhase.traced_run (hinv : LockInv hz m₁) (hclear : ∀ w, m₁.threads w ≠ .clearing)
    (hfirst : m₁.lookups r = .probing wanted 0) :
    ∀ acts m, execs (PendingMachine.step hz) m₁ acts = some m → (∀ w, .lockClear w ∉ acts) → increments acts < 2 ^ 32 →
      LockInv hz m ∧ (∀ w, m.threads w ≠ .clearing) ∧ (m.lookups r).Traced hz m₁ acts m := by
  refine execs_induction (fun _ _ => ⟨hinv, hclear, by rw [hfirst]; trivial⟩) ?_
  intro acts m a m' hrun ih hstep hacts hincs
  have hacts' : ∀ w, .lockClear w ∉ acts := fun w hw => hacts w (List.mem_append_left _ hw)
  have hincs' : increments acts < 2 ^ 32 := by
    rw [increments_append] at hincs
    omega
  obtain ⟨hinv, hclear, htraced⟩ := ih hacts' hincs'
  have ha : ∀ w, a ≠ .lockClear w := by
    rintro w rfl
    exact hacts w (List.mem_append_right _ (List.mem_singleton_self _))
  refine ⟨hinv.step hstep, not_clearing_step hclear ha hstep, ?_⟩
  rcases step_cases hstep with ⟨jiffies, -, rfl⟩ | ⟨w, hthread⟩ | ⟨r', p, -, hlookup, rfl⟩
  · exact htraced.carry hinv hclear hstep
  · rw [hthread.lookups_eq]
    exact htraced.carry hinv hclear hstep
  · by_cases hr : r = r'
    · subst hr
      have hown := htraced.own hinv hclear hrun hincs' hlookup
      rw [show (m.setLookup r p).lookups r = p from Function.update_self ..]
      exact hown.carry hinv hclear hstep
    · rw [show (m.setLookup r' p).lookups r = m.lookups r from Function.update_of_ne hr ..]
      exact htraced.carry hinv hclear hstep

/-- What a lookup finds was in the table at a moment of the lookup, and had not expired at a later one. No clear may
happen meanwhile, nor `2 ^ 32` increments. -/
theorem pendingLookup_sound (h₁ : execs (PendingMachine.step hz) (.initial jiffies) acts = some m₁)
    (hclear : ∀ w, m₁.threads w ≠ .clearing) (hfirst : m₁.lookups r = .probing wanted 0)
    {during : List (PendingAct ι ρ)} (h₂ : execs (PendingMachine.step hz) m₁ during = some m₂)
    (hduring : ∀ w, .lockClear w ∉ during) (hincs : increments during < 2 ^ 32)
    (hfound : m₂.lookups r = .done wanted true) :
    ∃ m₀ rest m' rest', Visits (PendingMachine.step hz) m₁ during m₀ rest ∧
      Visits (PendingMachine.step hz) m₀ rest m' rest' ∧ pendingPortLookupOne (m₀.committed hz) m'.jiffies wanted := by
  obtain ⟨-, -, htraced⟩ :=
    LookupPhase.traced_run (LockInv.of_execs h₁) hclear hfirst during m₂ h₂ hduring hincs
  rw [hfound] at htraced
  exact htraced

/-- The steps of a lookup that finds its entry in the first way. -/
def lookupActs : List (PendingAct Unit Unit) :=
  .probe () :: PendingWord.all.map (.load ()) ++ [.recheck (), .compare ()]

theorem pendingLookup_sound_bind :
    ∃ m₁ m₂ : PendingMachine Unit Unit,
      execs (PendingMachine.step 250) (.initial 1000) (bindActs (serverOwner 8080) ++ [.start () (serverOwner 8080)]) =
        some m₁ ∧
      execs (PendingMachine.step 250) m₁ lookupActs = some m₂ ∧ m₂.lookups () = .done (serverOwner 8080) true ∧
      ∃ m₀ rest m' rest', Visits (PendingMachine.step 250) m₁ lookupActs m₀ rest ∧
        Visits (PendingMachine.step 250) m₀ rest m' rest' ∧
        pendingPortLookupOne (m₀.committed 250) m'.jiffies (serverOwner 8080) := by
  have hfirst : (execs (PendingMachine.step 250) (.initial 1000)
      (bindActs (serverOwner 8080) ++ [.start () (serverOwner 8080)])).map
      (fun m : PendingMachine Unit Unit => (m.threads (), m.lookups ())) =
      some (.idle, .probing (serverOwner 8080) 0) := by decide +kernel
  have hlast : (execs (PendingMachine.step 250) (.initial 1000)
      ((bindActs (serverOwner 8080) ++ [.start () (serverOwner 8080)]) ++ lookupActs)).map
      (fun m : PendingMachine Unit Unit => m.lookups ()) = some (.done (serverOwner 8080) true) := by decide +kernel
  obtain ⟨m₁, h₁, hphases⟩ := Option.map_eq_some_iff.1 hfirst
  rw [execs_append, h₁, Option.bind_some] at hlast
  obtain ⟨m₂, h₂, hdone⟩ := Option.map_eq_some_iff.1 hlast
  have hidle : m₁.threads () = .idle := congrArg Prod.fst hphases
  refine ⟨m₁, m₂, h₁, h₂, hdone, pendingLookup_sound h₁ (fun _ => ?_) (congrArg Prod.snd hphases) h₂ ?_ ?_ hdone⟩
  · rw [hidle]
    decide
  · simp [lookupActs]
  · decide

-- Across a clear the numbers start again. The lookup takes the port from the first bind and the address from the
-- second, and
-- finds an endpoint that nobody has bound.
example :
    let bound (port : UInt16) (address : UInt32) : OwnedPort := ⟨10123, port, protoTcp, afInet, #v[address, 0, 0, 0]⟩
    let set := pendingSet (bound 8080 0x0100007f)
    let clear : List (PendingAct Unit Unit) :=
      .lockClear () :: (none :: PendingWord.all.map some).map (.wipe () set 0) ++ [.unlock ()]
    (execs (PendingMachine.step 250) (.initial 1000) (bindActs (bound 8080 0x0100007f) ++
      [.start () (bound 8080 0xf400007f), .probe (), .load () .port] ++ clear ++ bindActs (bound 9871 0xf400007f) ++
      (PendingWord.all.erase .port).map (.load ()) ++ [.recheck (), .compare ()])).map
      (fun m : PendingMachine Unit Unit => m.lookups ()) = some (.done (bound 8080 0xf400007f) true) := by
  decide +kernel

/-- The steps that a lookup may still take. -/
def LookupPhase.remaining : LookupPhase → ℕ
  | .idle | .done _ _ => 0
  | .probing _ way => 12 * (pendingPortWays - way) + 1
  | .loading _ way _ loaded _ => 12 * (pendingPortWays - (way + 1)) + (PendingWord.all.length - loaded.length) + 3
  | .comparing _ way _ _ _ => 12 * (pendingPortWays - (way + 1)) + 2

/-- The lookup has not passed the entry, or has found it. -/
def LookupPhase.Meets (way : ℕ) (e : PendingPort) : LookupPhase → Prop
  | .idle => False
  | .probing wanted at' => wanted = e.owner ∧ at' ≤ way
  | .loading wanted at' before loaded mine =>
    wanted = e.owner ∧ at' ≤ way ∧ loaded.Nodup ∧
      (at' = way → before = e.sequence ∧ ∀ i ∈ loaded, pendingWords.get mine i = pendingWords.get e.data i)
  | .comparing wanted at' before after mine =>
    wanted = e.owner ∧ at' ≤ way ∧ (at' = way → before = e.sequence ∧ after = e.sequence ∧ mine = e.data)
  | .done wanted found => wanted = e.owner ∧ found = true

theorem PendingPorts.lt_ways {p : PendingPorts} {set way : ℕ} {e : PendingPort} (h : entryAt p set way = some e) :
    way < pendingPortWays := by
  obtain ⟨ways, -, hway⟩ := Option.bind_eq_some_iff.1 h
  exact (Vector.getElem?_eq_some_iff.1 hway).1

theorem PendingWord.length_lt {loaded : List PendingWord} {i : PendingWord} (hnodup : loaded.Nodup) (hi : i ∉ loaded) :
    loaded.length < all.length := by
  have hsub : (i :: loaded) ⊆ all := fun j _ => j.mem_all
  exact ((List.nodup_cons.2 ⟨hi, hnodup⟩).subperm hsub).length_le

section Meets
variable {way : ℕ} {e : PendingPort} {p p' : LookupPhase}

omit [DecidableEq ι] [DecidableEq ρ] in
theorem LookupPhase.Meets.step (hstep : LookupStep m p a p')
    (he : PendingPorts.entryAt m.pending (pendingSet e.owner) way = some e) (heven : e.sequence &&& 1 = 0)
    (hlive : timeBefore m.jiffies e.expires) (hstart : ∀ q wanted, a ≠ .start q wanted) (h : p.Meets way e) :
    p'.Meets way e ∧ p'.remaining < p.remaining := by
  have hway := PendingPorts.lt_ways he
  cases hstep with
  | start => exact absurd rfl (hstart _ _)
  | @pass _ wanted at' hnone =>
    obtain ⟨rfl, hat⟩ := h
    obtain ⟨e', he'⟩ := @PendingPorts.entryAt_isSome m.pending _ at' (pendingSet_lt e.owner) (by omega)
    cases hnone.symm.trans he'
  | @note _ wanted at' e' he' _ =>
    obtain ⟨rfl, hat⟩ := h
    refine ⟨⟨rfl, hat, List.nodup_nil, ?_⟩, ?_⟩
    · rintro rfl
      obtain rfl := Option.some.inj (he'.symm.trans he)
      exact ⟨rfl, fun i hi => by cases hi⟩
    · have hwords : PendingWord.all.length = 9 := by decide
      simp only [remaining, hwords, List.length_nil]
      omega
  | @skip _ wanted at' e' he' hodd =>
    obtain ⟨rfl, hat⟩ := h
    have hne : at' ≠ way := by
      rintro rfl
      obtain rfl := Option.some.inj (he'.symm.trans he)
      exact hodd heven
    refine ⟨⟨rfl, by omega⟩, ?_⟩
    simp only [remaining]
    omega
  | @load _ wanted at' before loaded mine e' he' i hi =>
    obtain ⟨rfl, hat, hnodup, hwords⟩ := h
    refine ⟨⟨rfl, hat, List.nodup_cons.2 ⟨hi, hnodup⟩, ?_⟩, ?_⟩
    · rintro rfl
      obtain rfl := Option.some.inj (he'.symm.trans he)
      obtain ⟨hbefore, hwords⟩ := hwords rfl
      refine ⟨hbefore, fun j hj => ?_⟩
      rw [pendingWords.get_copy]
      split_ifs with hji
      · rfl
      · exact hwords j ((List.mem_cons.1 hj).resolve_left hji)
    · have hlt := PendingWord.length_lt hnodup hi
      simp only [remaining, List.length_cons]
      omega
  | @recheck _ wanted at' before loaded mine e' he' hall =>
    obtain ⟨rfl, hat, -, hwords⟩ := h
    refine ⟨⟨rfl, hat, ?_⟩, ?_⟩
    · rintro rfl
      obtain rfl := Option.some.inj (he'.symm.trans he)
      obtain ⟨hbefore, hwords⟩ := hwords rfl
      exact ⟨hbefore, rfl, pendingWords.ext fun i => hwords i (hall i i.mem_all)⟩
    · simp only [remaining]
      omega
  | hit =>
    refine ⟨⟨h.1, rfl⟩, ?_⟩
    simp only [remaining]
    omega
  | @miss _ wanted at' before after mine hmiss =>
    obtain ⟨rfl, hat, hwhole⟩ := h
    have hne : at' ≠ way := by
      rintro rfl
      obtain ⟨rfl, rfl, rfl⟩ := hwhole rfl
      exact hmiss ⟨rfl, heven, beq_self_eq_true _, hlive⟩
    refine ⟨⟨rfl, by omega⟩, ?_⟩
    simp only [remaining]
    omega

theorem LookupPhase.Meets.enabled (h : (m.lookups r).Meets way e) (hway : way < pendingPortWays)
    (hmore : m.lookups r ≠ .done e.owner true) :
    ∃ a, a.lookup? = some r ∧ (∀ wanted, a ≠ .start r wanted) ∧ (m.step hz a).isSome := by
  have hstep : ∀ a : PendingAct ι ρ, a.lookup? = some r → m.step hz a = m.stepLookup r (m.lookups r) a := by
    rintro (_ | _ | _ | _ | _ | _ | _ | _ | _ | _ | _ | _ | _ | _ | _) ha <;> cases ha <;> rfl
  cases hp : m.lookups r with
  | idle =>
    rw [hp] at h
    exact h.elim
  | probing wanted at' =>
    refine ⟨.probe r, rfl, nofun, ?_⟩
    rw [hstep _ rfl, hp, stepLookup]
    split
    · rfl
    · split_ifs <;> rfl
  | loading wanted at' before loaded mine =>
    rw [hp] at h
    obtain ⟨rfl, hat, -, -⟩ := h
    obtain ⟨e', he'⟩ := @PendingPorts.entryAt_isSome m.pending _ at' (pendingSet_lt e.owner) (by omega)
    by_cases hall : ∀ i ∈ PendingWord.all, i ∈ loaded
    · refine ⟨.recheck r, rfl, nofun, ?_⟩
      rw [hstep _ rfl, hp, stepLookup, if_pos hall, he']
      rfl
    · push Not at hall
      obtain ⟨i, -, hi⟩ := hall
      refine ⟨.load r i, rfl, nofun, ?_⟩
      rw [hstep _ rfl, hp, stepLookup, if_neg hi, he']
      rfl
  | comparing wanted at' before after mine =>
    refine ⟨.compare r, rfl, nofun, ?_⟩
    rw [hstep _ rfl, hp, stepLookup]
    split_ifs <;> rfl
  | done wanted found =>
    rw [hp] at h
    obtain ⟨rfl, rfl⟩ := h
    exact absurd hp hmore

theorem LookupPhase.Meets.run (hfirst : m₁.lookups r = .probing e.owner 0) (heven : e.sequence &&& 1 = 0) :
    ∀ acts m, execs (PendingMachine.step hz) m₁ acts = some m → (∀ wanted, .start r wanted ∉ acts) →
      (∀ m rest, Visits (PendingMachine.step hz) m₁ acts m rest →
        PendingPorts.entryAt m.pending (pendingSet e.owner) way = some e ∧ timeBefore m.jiffies e.expires) →
      (m.lookups r).Meets way e ∧ acts.countP (fun a => a.lookup? = some r) + (m.lookups r).remaining ≤ 49 := by
  refine execs_induction (fun _ _ => ?_) ?_
  · rw [hfirst]
    exact ⟨⟨rfl, Nat.zero_le _⟩, le_rfl⟩
  intro acts m a m' hrun ih hstep hstart hstays
  obtain ⟨hmeets, hcount⟩ := ih (fun wanted hw => hstart wanted (List.mem_append_left _ hw))
    fun m rest hvisits => hstays m (rest ++ [a]) (hvisits.snoc a)
  rw [List.countP_append, List.countP_singleton]
  rcases step_cases hstep with ⟨jiffies, rfl, rfl⟩ | ⟨w, hthread⟩ | ⟨r', p, hr', hlookup, rfl⟩
  · exact ⟨hmeets, hcount⟩
  · rw [hthread.lookups_eq, hthread.lookup?_eq]
    exact ⟨hmeets, hcount⟩
  · by_cases hr : r = r'
    · subst hr
      obtain ⟨he, hlive⟩ := hstays m [a] ((Visits.last hrun).snoc a)
      have hnostart : ∀ q wanted, a ≠ .start q wanted := by
        rintro q wanted rfl
        cases hr'
        exact hstart wanted (List.mem_append_right _ (List.mem_singleton_self _))
      obtain ⟨hmeets', hless⟩ := hmeets.step hlookup he heven hlive hnostart
      rw [show (m.setLookup r p).lookups r = p from Function.update_self .., if_pos (decide_eq_true hr')]
      exact ⟨hmeets', by omega⟩
    · have hne : ¬ a.lookup? = some r := fun ha => hr (Option.some.inj (ha.symm.trans hr'))
      rw [show (m.setLookup r' p).lookups r = m.lookups r from Function.update_of_ne hr .., if_neg (by simpa using hne)]
      exact ⟨hmeets, hcount⟩

/-- While an entry stays, a lookup of its owner goes on to find it: it never ends without it, it has found it or can
take its next step, and it takes no more than 49 steps of its own. -/
theorem pendingLookup_complete (hfirst : m₁.lookups r = .probing e.owner 0)
    (h : execs (PendingMachine.step hz) m₁ acts = some m₂) (hstart : ∀ wanted, .start r wanted ∉ acts)
    (heven : e.sequence &&& 1 = 0)
    (hstays : ∀ m rest, Visits (PendingMachine.step hz) m₁ acts m rest →
      PendingPorts.entryAt m.pending (pendingSet e.owner) way = some e ∧ timeBefore m.jiffies e.expires) :
    (∀ wanted, m₂.lookups r ≠ .done wanted false) ∧
    (m₂.lookups r = .done e.owner true ∨
      ∃ a, a.lookup? = some r ∧ (∀ wanted, a ≠ .start r wanted) ∧ (m₂.step hz a).isSome) ∧
    acts.countP (fun a => a.lookup? = some r) ≤ 49 := by
  obtain ⟨hmeets, hcount⟩ := LookupPhase.Meets.run hfirst heven acts m₂ h hstart hstays
  have hway := PendingPorts.lt_ways (hstays m₂ [] (.last h)).1
  refine ⟨fun wanted hfalse => ?_, ?_, by omega⟩
  · rw [hfalse] at hmeets
    exact Bool.false_ne_true hmeets.2
  by_cases hdone : m₂.lookups r = .done e.owner true
  · exact .inl hdone
  · exact .inr (hmeets.enabled hway hdone)

theorem pendingLookup_complete_bind :
    ∃ m₁ m₂ : PendingMachine Unit Unit, m₁.lookups () = .probing (serverOwner 8080) 0 ∧
      execs (PendingMachine.step 250) m₁ lookupActs = some m₂ ∧
      (∀ wanted, m₂.lookups () ≠ .done wanted false) ∧
      (m₂.lookups () = .done (serverOwner 8080) true ∨
        ∃ a, a.lookup? = some () ∧ (∀ wanted, a ≠ .start () wanted) ∧ (m₂.step 250 a).isSome) ∧
      lookupActs.countP (fun a => a.lookup? = some ()) ≤ 49 := by
  have hstays : ∀ k ∈ List.range 13, (execs (PendingMachine.step 250) (.initial 1000)
      ((bindActs (serverOwner 8080) ++ [.start () (serverOwner 8080)]) ++ lookupActs.take k)).any
      fun m : PendingMachine Unit Unit =>
        PendingPorts.entryAt m.pending (pendingSet (serverOwner 8080)) 0 = some ⟨2, serverOwner 8080, 1500⟩ ∧
          timeBefore m.jiffies 1500 := by decide +kernel
  have hfirst : (execs (PendingMachine.step 250) (.initial 1000)
      (bindActs (serverOwner 8080) ++ [.start () (serverOwner 8080)])).map
      (fun m : PendingMachine Unit Unit => m.lookups ()) = some (.probing (serverOwner 8080) 0) := by decide +kernel
  obtain ⟨m₁, h₁, hphase⟩ := Option.map_eq_some_iff.1 hfirst
  simp only [execs_append _ _ (_ ++ _), h₁, Option.bind_some] at hstays
  obtain ⟨m₂, h₂, -⟩ := (Option.any_eq_true _ _).1 (hstays 12 (by decide))
  have hvisits : ∀ m rest, Visits (PendingMachine.step 250) m₁ lookupActs m rest →
      PendingPorts.entryAt m.pending (pendingSet (serverOwner 8080)) 0 = some ⟨2, serverOwner 8080, 1500⟩ ∧
        timeBefore m.jiffies 1500 := by
    rintro m rest ⟨before, hbefore, hm⟩
    have hlen : before.length < 13 := by
      have hall := congrArg List.length hbefore
      rw [List.length_append] at hall
      change 12 = _ at hall
      omega
    obtain ⟨m', hm', hentry⟩ := (Option.any_eq_true _ _).1 (hstays before.length (List.mem_range.2 hlen))
    rw [hbefore, List.take_left, hm] at hm'
    obtain rfl := Option.some.inj hm'
    exact of_decide_eq_true hentry
  refine ⟨m₁, m₂, hphase, h₂,
    pendingLookup_complete (e := ⟨2, serverOwner 8080, 1500⟩) hphase h₂ ?_ (by decide) hvisits⟩
  simp [lookupActs]

end Meets

end Runs

end VpnHide
