import VpnHide.StaleWriters

/-!
# Blocking readers

A reader of the control device renders the policy under the lock and stamps the text with the generation
after it has released the lock. A writer that publishes and increments in between goes unnoticed: the
reader keeps the old text under the new generation and waits for the next change
(`staleReaders_miss_update`). If no writer completes its increment inside the gap of a reader that copied
before its publish, and the counter does not wrap, no update is lost (`staleReaders_current`).
-/

namespace VpnHide
open Machine

variable {ι ρ : Type}

/-- The number of a publish whose increment is still to come. -/
def WriterPhase.publishNo : WriterPhase → Option ℕ
  | .published no | .released no => some no
  | .start | .locked | .compared | .reconciled | .failing _ | .done _ => none

/-- No increment wraps, and none completes a publish that a reader in its gap has not seen. -/
def ReaderSchedule (m : Machine ι ρ) : Action ι ρ → Prop
  | .increment w => m.kernel.generation.toNat + 1 < 2 ^ 32 ∧
      ∀ r no seen, m.writers w = .released no → (m.readers r).phase = .unlocked seen → no ≤ seen
  | .bump => m.kernel.generation.toNat + 1 < 2 ^ 32
  | _ => True

/-- Some writer numbered above `seen` is between its publish and its increment. -/
def Machine.InFlightAfter (m : Machine ι ρ) (seen : ℕ) : Prop :=
  ∃ w no, (m.writers w).publishNo = some no ∧ seen < no

/-- What a reader knows: during a refill its stamp is behind, and a stale text comes with a writer that
will still move the generation. -/
structure ReaderInv (m : Machine ι ρ) (x : Reader) : Prop where
  reached : x.generation ≤ m.generation
  refill : x.phase ≠ .idle → x.generation < m.generation
  copied : ∀ seen, x.phase = .copied seen → x.text = some m.kernel.policy ∧ seen ≤ m.publishes
  unlocked : ∀ seen, x.phase = .unlocked seen →
    (x.text = some m.kernel.policy ∨ m.InFlightAfter seen) ∧ seen ≤ m.publishes
  idle : x.phase = .idle →
    x.generation < m.generation ∨ x.text = some m.kernel.policy ∨ ∃ w, (m.writers w).publishNo.isSome

namespace ReaderInv
variable {m m' : Machine ι ρ} {x : Reader} {w : ι}

theorem keep (h : ReaderInv m x) (hg : m'.generation = m.generation)
    (hp : m'.kernel.policy = m.kernel.policy) (hn : m'.publishes = m.publishes)
    (hw : ∀ w no, (m.writers w).publishNo = some no → (m'.writers w).publishNo = some no) :
    ReaderInv m' x where
  reached := hg ▸ h.reached
  refill := hg ▸ h.refill
  copied seen hx := by
    rw [hp, hn]
    exact h.copied seen hx
  unlocked seen hx := by
    obtain ⟨htext, hseen⟩ := h.unlocked seen hx
    rw [hp, hn]
    exact ⟨htext.imp_right fun ⟨w, no, hno, hlt⟩ => ⟨w, no, hw w no hno, hlt⟩, hseen⟩
  idle hx := by
    rw [hg, hp]
    refine (h.idle hx).imp_right (.imp_right ?_)
    rintro ⟨w, hsome⟩
    obtain ⟨no, hno⟩ := Option.isSome_iff_exists.1 hsome
    exact ⟨w, by rw [hw w no hno]; rfl⟩

/-- The counter moves, and no reader in its gap loses its last witness. -/
theorem advance (h : ReaderInv m x) (hg : m.generation < m'.generation)
    (hp : m'.kernel.policy = m.kernel.policy) (hn : m'.publishes = m.publishes)
    (hw : ∀ seen, x.phase = .unlocked seen → m.InFlightAfter seen → m'.InFlightAfter seen) :
    ReaderInv m' x where
  reached := UInt64.le_of_lt (UInt64.lt_of_le_of_lt h.reached hg)
  refill hx := UInt64.lt_trans (h.refill hx) hg
  copied seen hx := by
    rw [hp, hn]
    exact h.copied seen hx
  unlocked seen hx := by
    obtain ⟨htext, hseen⟩ := h.unlocked seen hx
    rw [hp, hn]
    exact ⟨htext.imp_right (hw seen hx), hseen⟩
  idle _ := .inl (UInt64.lt_of_le_of_lt h.reached hg)

/-- A publish is in flight for every reader outside the critical section. -/
theorem publish (h : ReaderInv m x) (hg : m'.generation = m.generation)
    (hn : m'.publishes = m.publishes + 1) (hw : (m'.writers w).publishNo = some (m.publishes + 1))
    (hx : ¬ x.phase.HoldsLock) : ReaderInv m' x where
  reached := hg ▸ h.reached
  refill := hg ▸ h.refill
  copied seen hc := absurd (hc ▸ trivial) hx
  unlocked seen hu := by
    have hseen := (h.unlocked seen hu).2
    exact ⟨.inr ⟨w, _, hw, by omega⟩, by omega⟩
  idle _ := .inr (.inr ⟨w, by rw [hw]; rfl⟩)

end ReaderInv

def ReadersInv (m : Machine ι ρ) : Prop := ∀ r, ReaderInv m (m.readers r)

namespace ReadersInv
variable {jobs : ι → WriterJob} {m m' : Machine ι ρ} {w : ι} {r : ρ}

theorem congr {n : Machine ι ρ} (h : ReadersInv m) (hr : n.readers = m.readers) (hw : n.writers = m.writers)
    (hg : n.generation = m.generation) (hp : n.kernel.policy = m.kernel.policy)
    (hn : n.publishes = m.publishes) : ReadersInv n := by
  intro r
  rw [hr]
  exact (h r).keep hg hp hn fun w no hno => by rwa [hw]

theorem setWriter [DecidableEq ι] (h : ReadersInv m) {p : WriterPhase}
    (hp : ∀ no, (m.writers w).publishNo = some no → p.publishNo = some no) :
    ReadersInv (m.setWriter w p) := by
  intro r
  refine (h r).keep rfl rfl rfl fun w' no hno => ?_
  rw [setWriter_writers]
  split
  · rename_i heq
    exact hp no (heq ▸ hno)
  · exact hno

theorem setReader [DecidableEq ρ] (h : ReadersInv m) {x : Reader} (hx : ReaderInv m x) :
    ReadersInv (m.setReader r x) := by
  intro r'
  rw [setReader_readers]
  split
  · exact hx.keep rfl rfl rfl fun _ _ hno => hno
  · exact (h r').keep rfl rfl rfl fun _ _ hno => hno

theorem publish [DecidableEq ι] (h : ReadersInv m) (hmutex : m.Mutex) (hw : m.writers w = .reconciled)
    (s : PolicySnapshot) :
    ReadersInv ((m.publishSnapshot s).setWriter w (.published (m.publishes + 1))) := by
  intro r
  refine (h r).publish rfl rfl (w := w) (by rw [setWriter_writers, if_pos rfl]; rfl) fun hr => ?_
  -- the writer holds the lock, so no reader does
  have hlock := (hmutex.writer hw trivial).symm.trans (hmutex (.inr r) hr)
  cases hlock

theorem increment [DecidableEq ι] (h : ReadersInv m) {no : ℕ} (hw : m.writers w = .released no)
    (hsched : ReaderSchedule m (.increment w)) :
    ReadersInv (m.incrementGeneration.setWriter w (.done (.ok ()))) := by
  intro r
  refine (h r).advance (generationU64_lt_succ hsched.1) rfl rfl ?_
  rintro seen hr ⟨w', no', hno, hlt⟩
  refine ⟨w', no', ?_, hlt⟩
  rw [setWriter_writers]
  split
  · -- this writer's publish is one the reader has seen
    rename_i heq
    rw [heq, hw] at hno
    obtain rfl := Option.some.inj hno
    have hle := hsched.2 r no seen hw hr
    omega
  · exact hno

end ReadersInv

namespace ReaderInv
variable {m : Machine ι ρ} {x : Reader}

theorem busy (h : ReaderInv m x) {p : ReaderPhase} (hp : x.phase = p) (hne : p ≠ .idle) :
    x.generation < m.generation := h.refill (hp ▸ hne)

theorem enter (h : ReaderInv m x) (hg : x.generation < m.generation) :
    ReaderInv m { x with phase := .entered } :=
  ⟨h.reached, fun _ => hg, nofun, nofun, nofun⟩

theorem lock (h : ReaderInv m x) (hx : x.phase = .entered) : ReaderInv m { x with phase := .locked } :=
  ⟨h.reached, fun _ => h.busy hx nofun, nofun, nofun, nofun⟩

theorem copy (h : ReaderInv m x) (hx : x.phase = .locked) :
    ReaderInv m { x with text := some m.kernel.policy, phase := .copied m.publishes } :=
  ⟨h.reached, fun _ => h.busy hx nofun, fun _ hseen => ⟨rfl, by cases hseen; exact Nat.le_refl _⟩, nofun, nofun⟩

theorem fail (h : ReaderInv m x) (hx : x.phase = .locked) : ReaderInv m { x with phase := .idle } :=
  ⟨h.reached, fun hne => absurd rfl hne, nofun, nofun, fun _ => .inl (h.busy hx nofun)⟩

theorem unlock (h : ReaderInv m x) {seen : ℕ} (hx : x.phase = .copied seen) :
    ReaderInv m { x with phase := .unlocked seen } := by
  obtain ⟨htext, hseen⟩ := h.copied seen hx
  refine ⟨h.reached, fun _ => h.busy hx nofun, nofun, fun seen' heq => ?_, nofun⟩
  cases heq
  exact ⟨.inl htext, hseen⟩

/-- A reader that stamps a stale text is saved by the writer in flight. -/
theorem sample (h : ReaderInv m x) {seen : ℕ} (hx : x.phase = .unlocked seen) :
    ReaderInv m { x with generation := m.generation, phase := .idle } := by
  refine ⟨UInt64.le_refl _, fun hne => absurd rfl hne, nofun, nofun, fun _ => .inr ?_⟩
  rcases (h.unlocked seen hx).1 with htext | ⟨w, no, hno, -⟩
  · exact .inl htext
  · exact .inr ⟨w, by rw [hno]; rfl⟩

end ReaderInv

section Runs
variable [DecidableEq ι] [DecidableEq ρ] {jobs : ι → WriterJob} {m m' : Machine ι ρ} {a : Action ι ρ}

theorem ReadersInv.step (h : ReadersInv m) (hmutex : m.Mutex) (hsched : ReaderSchedule m a)
    (hs : Step jobs m a m') : ReadersInv m' := by
  have grounded {w : ι} {p q : WriterPhase} (hw : m.writers w = p) (hp : p.publishNo = none) :
      ∀ no, (m.writers w).publishNo = some no → q.publishNo = some no := by
    intro no hno
    rw [hw, hp] at hno
    cases hno
  have withLock (holder : Option (ι ⊕ ρ)) : ReadersInv { m with lock := holder } :=
    h.congr rfl rfl rfl rfl rfl
  cases hs with
  | lock hw _ => exact (withLock (some _)).setWriter (grounded hw rfl)
  | compare hw => exact h.setWriter (grounded hw rfl)
  | @reconcile w stats hw _ =>
    have hstats : ReadersInv { m with kernel := { m.kernel with stats } } := h.congr rfl rfl rfl rfl rfl
    exact hstats.setWriter (grounded hw rfl)
  | reconcileFail hw _ => exact h.setWriter (grounded hw rfl)
  | publish hw => exact h.publish hmutex hw _
  | unlock hw => exact (withLock none).setWriter fun no hno => by rwa [hw] at hno
  | unlockFail hw => exact (withLock none).setWriter (grounded hw rfl)
  | increment hw => exact h.increment hw hsched
  | bump => exact fun r => (h r).advance (generationU64_lt_succ hsched) rfl rfl fun _ _ hf => hf
  | enter _ hg => exact h.setReader ((h _).enter hg)
  | readLock hr _ => exact (withLock (some _)).setReader ((withLock (some _) _).lock hr)
  | copy hr => exact h.setReader ((h _).copy hr)
  | readFail hr => exact (withLock none).setReader ((withLock none _).fail hr)
  | readUnlock hr => exact (withLock none).setReader ((withLock none _).unlock hr)
  | sample hr => exact h.setReader ((h _).sample hr)

theorem readersInv_of_reachable (h : ((policyMachine jobs).restrict ReaderSchedule).Reachable m) :
    m.Mutex ∧ ReadersInv m := by
  refine h.invariant (P := fun m => m.Mutex ∧ ReadersInv m) ?_ ?_
  · rintro _ rfl
    have hbehind : (0 : UInt64) < generationU64 1 := by decide
    exact ⟨mutex_initial, fun r => ⟨UInt64.le_of_lt hbehind, fun _ => hbehind, fun _ hx => (by cases hx),
      fun _ hx => (by cases hx), fun _ => .inl hbehind⟩⟩
  · rintro m a m' ⟨hmutex, hinv⟩ ⟨hsched, hs⟩
    exact ⟨hmutex.step hs, hinv.step hmutex hsched hs⟩

/-- On such schedules, whenever no writer is between its publish and its increment and a reader would
block, the text it holds was rendered from the published snapshot. -/
theorem staleReaders_current (h : ((policyMachine jobs).restrict ReaderSchedule).Reachable m) (r : ρ)
    (hquiet : ∀ w, (m.writers w).publishNo = none)
    (hnext : m.generation ≤ (m.readers r).generation) : (m.readers r).text = some m.kernel.policy := by
  have hinv := (readersInv_of_reachable h).2 r
  have hcurrent : ¬ (m.readers r).generation < m.generation := UInt64.not_lt.2 hnext
  have hidle : (m.readers r).phase = .idle := by
    by_contra hbusy
    exact hcurrent (hinv.refill hbusy)
  rcases hinv.idle hidle with hlt | htext | ⟨w, hw⟩
  · exact absurd hlt hcurrent
  · exact htext
  · rw [hquiet w] at hw
    cases hw

end Runs

/-- A reader that refills after the writer has returned holds the writer's policy. -/
theorem staleReaders_current_sample :
    ∃ m : Machine Bool Unit, ((policyMachine twoWriters).restrict ReaderSchedule).Reachable m ∧
      (m.readers ()).text = some (some (twoWriters false).snapshot) := by
  have h₀ : ((policyMachine twoWriters).restrict ReaderSchedule).Reachable
      (Machine.initial : Machine Bool Unit) := .init rfl
  have h₁ := h₀.restrict_step (.lock (w := false) rfl rfl) trivial
  have h₂ := h₁.restrict_step (.compare (w := false) rfl) trivial
  have h₃ := h₂.restrict_step (.reconcile (w := false) rfl rfl) trivial
  have h₄ := h₃.restrict_step (.publish (w := false) rfl) trivial
  have h₅ := h₄.restrict_step (.unlock (w := false) rfl) trivial
  have h₆ := h₅.restrict_step (.increment (w := false) rfl)
    ⟨show (1 : UInt32).toNat + 1 < 2 ^ 32 by decide, fun _ _ _ _ h => by cases h⟩
  have h₇ := h₆.restrict_step (.enter (r := ()) rfl (show (0 : UInt64) < generationU64 2 by decide)) trivial
  have h₈ := h₇.restrict_step (.readLock (r := ()) rfl rfl) trivial
  have h₉ := h₈.restrict_step (.copy (r := ()) rfl) trivial
  have h₁₀ := h₉.restrict_step (.readUnlock (r := ()) rfl) trivial
  have h₁₁ := h₁₀.restrict_step (.sample (r := ()) rfl) trivial
  exact ⟨_, h₁₁, staleReaders_current h₁₁ () (by rintro (_ | _) <;> rfl) (UInt64.le_refl _)⟩

/-- The writer publishes and increments while the reader is between its unlock and its sample: the reader
holds the text of the state before any policy and waits for generation 3. -/
theorem staleReaders_miss_update :
    ∃ m : Machine Bool Unit, (policyMachine twoWriters).Reachable m ∧
      (∀ w, (m.writers w).publishNo = none) ∧ m.generation ≤ (m.readers ()).generation ∧
      m.kernel.policy = some (twoWriters false).snapshot ∧ (m.readers ()).text = some none := by
  have h₀ : (policyMachine twoWriters).Reachable (Machine.initial : Machine Bool Unit) := .init rfl
  have h₁ := h₀.step (.enter (r := ()) rfl (show (0 : UInt64) < generationU64 1 by decide))
  have h₂ := h₁.step (.readLock (r := ()) rfl rfl)
  have h₃ := h₂.step (.copy (r := ()) rfl)
  have h₄ := h₃.step (.readUnlock (r := ()) rfl)
  have h₅ := h₄.step (.lock (w := false) rfl rfl)
  have h₆ := h₅.step (.compare (w := false) rfl)
  have h₇ := h₆.step (.reconcile (w := false) rfl rfl)
  have h₈ := h₇.step (.publish (w := false) rfl)
  have h₉ := h₈.step (.unlock (w := false) rfl)
  have h₁₀ := h₉.step (.increment (w := false) rfl)
  have h₁₁ := h₁₀.step (.sample (r := ()) rfl)
  exact ⟨_, h₁₁, by rintro (_ | _) <;> rfl, UInt64.le_refl _, rfl, rfl⟩

end VpnHide
