import VpnHide.Kernel
import VpnHide.Lib.Transition
import Mathlib.Logic.Function.Basic
import Mathlib.Logic.Relation

/-!
# Writers and readers of the policy

Any number of `publish_policy_snapshot` calls and of readers of the control device, interleaved step by
step. Both take `policy_apply_lock`. A writer increments the generation only after it has released the
lock, and a reader samples the generation only after it has released the lock; these two gaps are what the
steps make visible. Other writes to the device increment the generation at any time (`bump`).

A writer that is not interrupted does what `publishPolicySnapshot` does (`Machine.solo_run`).
-/

namespace VpnHide
open TxnM

/-! ### Generations -/

theorem toNat_generationU64 (g : UInt32) :
    (generationU64 g).toNat = if g.toNat < 2147483648 then g.toNat else 18446744069414584320 + g.toNat := by
  have hext : (generationU64 g).toNat = (g.toBitVec.signExtend 64).toNat := rfl
  have hlt := g.toNat_lt
  have hg : g.toBitVec.toNat = g.toNat := rfl
  rw [hext, BitVec.toNat_signExtend, BitVec.msb_eq_decide, BitVec.toNat_setWidth, hg]
  simp only [decide_eq_true_eq]
  split <;> split <;> omega

theorem generationU64_lt_iff {g g' : UInt32} : generationU64 g < generationU64 g' ↔ g.toNat < g'.toNat := by
  have := g.toNat_lt
  have := g'.toNat_lt
  rw [UInt64.lt_iff_toNat_lt, toNat_generationU64, toNat_generationU64]
  split <;> split <;> omega

theorem generationU64_lt_succ {g : UInt32} (h : g.toNat + 1 < 2 ^ 32) :
    generationU64 g < generationU64 (g + 1) := by
  rw [generationU64_lt_iff, UInt32.toNat_add, UInt32.toNat_one, Nat.mod_eq_of_lt h]
  exact Nat.lt_succ_self _

/-! ### Threads -/

/-- One call of `publish_policy_snapshot`: its arguments, and whether its allocation will succeed. -/
structure WriterJob where
  snapshot : PolicySnapshot
  expectedGeneration : UInt64
  alloc : AllocOutcomes

/-- Where a writer stands. The number of a publish counts all publishes so far. -/
inductive WriterPhase where
  | start
  | locked
  | compared
  | reconciled
  | published (no : ℕ)
  /-- the lock is released, the generation not yet incremented -/
  | released (no : ℕ)
  /-- about to release the lock and return an error -/
  | failing (e : Errno)
  | done (result : Except Errno Unit)

/-- Where a reader stands in the refill of `vpnhide_dev_read`. A copy remembers how many publishes it
has seen. -/
inductive ReaderPhase where
  | idle
  | entered
  | locked
  | copied (seen : ℕ)
  /-- the lock is released, the generation not yet sampled -/
  | unlocked (seen : ℕ)

/-- `struct vpnhide_dev_reader`; the text is represented by the snapshot it was rendered from. -/
structure Reader where
  generation : UInt64
  text : Option (Option PolicySnapshot)
  phase : ReaderPhase

/-- The whole system, for writers `ι` and readers `ρ`. -/
structure Machine (ι ρ : Type) where
  kernel : KernelState
  /-- the holder of `policy_apply_lock` -/
  lock : Option (ι ⊕ ρ)
  writers : ι → WriterPhase
  readers : ρ → Reader
  publishes : ℕ

inductive Action (ι ρ : Type) where
  | lock (w : ι)
  | compare (w : ι)
  | reconcile (w : ι)
  | publish (w : ι)
  | unlock (w : ι)
  | increment (w : ι)
  | bump
  | enter (r : ρ)
  | readLock (r : ρ)
  | copy (r : ρ)
  | readFail (r : ρ)
  | readUnlock (r : ρ)
  | sample (r : ρ)

/-! ### Steps -/

section Steps
variable {ι ρ : Type}

namespace Machine

def generation (m : Machine ι ρ) : UInt64 := generationU64 m.kernel.generation

def setWriter [DecidableEq ι] (m : Machine ι ρ) (w : ι) (p : WriterPhase) : Machine ι ρ :=
  { m with writers := Function.update m.writers w p }

def setReader [DecidableEq ρ] (m : Machine ι ρ) (r : ρ) (x : Reader) : Machine ι ρ :=
  { m with readers := Function.update m.readers r x }

/-- `atomic_inc(&vpnhide_config_generation)`. -/
def incrementGeneration (m : Machine ι ρ) : Machine ι ρ :=
  { m with kernel := { m.kernel with generation := m.kernel.generation + 1 } }

/-- The writes of `publish_policy_snapshot` between the pointer swap and the release of the lock. -/
def publishSnapshot (m : Machine ι ρ) (s : PolicySnapshot) : Machine ι ρ :=
  { m with
    kernel := { m.kernel with
      policy := some s
      pendingPorts := pendingPortsZero
      ownedPorts := none
      udpRates := vpnhideUdpRatesPrune s m.kernel.udpRates }
    publishes := m.publishes + 1 }

end Machine

open Machine
variable [DecidableEq ι] [DecidableEq ρ]

def WriterJob.compare (j : WriterJob) (generation : UInt64) : WriterPhase :=
  if j.expectedGeneration ≠ 0 ∧ j.expectedGeneration ≠ generation then .failing .eagain else .compared

inductive Step (jobs : ι → WriterJob) : Machine ι ρ → Action ι ρ → Machine ι ρ → Prop
  | lock {m : Machine ι ρ} {w : ι} (h : m.writers w = .start) (hl : m.lock = none) :
      Step jobs m (.lock w) ({ m with lock := some (.inl w) }.setWriter w .locked)
  | compare {m : Machine ι ρ} {w : ι} (h : m.writers w = .locked) :
      Step jobs m (.compare w) (m.setWriter w ((jobs w).compare m.generation))
  | reconcile {m : Machine ι ρ} {w : ι} {stats : StatsTable} (h : m.writers w = .compared)
      (hs : kmodStatsReconcile (jobs w).alloc.stats (jobs w).snapshot m.kernel.stats = .ok stats) :
      Step jobs m (.reconcile w)
        ({ m with kernel := { m.kernel with stats := stats } }.setWriter w .reconciled)
  | reconcileFail {m : Machine ι ρ} {w : ι} {e : Errno} (h : m.writers w = .compared)
      (hs : kmodStatsReconcile (jobs w).alloc.stats (jobs w).snapshot m.kernel.stats = .error e) :
      Step jobs m (.reconcile w) (m.setWriter w (.failing e))
  | publish {m : Machine ι ρ} {w : ι} (h : m.writers w = .reconciled) :
      Step jobs m (.publish w)
        ((m.publishSnapshot (jobs w).snapshot).setWriter w (.published (m.publishes + 1)))
  | unlock {m : Machine ι ρ} {w : ι} {no : ℕ} (h : m.writers w = .published no) :
      Step jobs m (.unlock w) ({ m with lock := none }.setWriter w (.released no))
  | unlockFail {m : Machine ι ρ} {w : ι} {e : Errno} (h : m.writers w = .failing e) :
      Step jobs m (.unlock w) ({ m with lock := none }.setWriter w (.done (.error e)))
  | increment {m : Machine ι ρ} {w : ι} {no : ℕ} (h : m.writers w = .released no) :
      Step jobs m (.increment w) (m.incrementGeneration.setWriter w (.done (.ok ())))
  | bump {m : Machine ι ρ} : Step jobs m .bump m.incrementGeneration
  | enter {m : Machine ι ρ} {r : ρ} (h : (m.readers r).phase = .idle)
      (hg : (m.readers r).generation < m.generation) :
      Step jobs m (.enter r) (m.setReader r { m.readers r with phase := .entered })
  | readLock {m : Machine ι ρ} {r : ρ} (h : (m.readers r).phase = .entered) (hl : m.lock = none) :
      Step jobs m (.readLock r)
        ({ m with lock := some (.inr r) }.setReader r { m.readers r with phase := .locked })
  | copy {m : Machine ι ρ} {r : ρ} (h : (m.readers r).phase = .locked) :
      Step jobs m (.copy r)
        (m.setReader r { m.readers r with text := some m.kernel.policy, phase := .copied m.publishes })
  | readFail {m : Machine ι ρ} {r : ρ} (h : (m.readers r).phase = .locked) :
      Step jobs m (.readFail r)
        ({ m with lock := none }.setReader r { m.readers r with phase := .idle })
  | readUnlock {m : Machine ι ρ} {r : ρ} {seen : ℕ} (h : (m.readers r).phase = .copied seen) :
      Step jobs m (.readUnlock r)
        ({ m with lock := none }.setReader r { m.readers r with phase := .unlocked seen })
  | sample {m : Machine ι ρ} {r : ρ} {seen : ℕ} (h : (m.readers r).phase = .unlocked seen) :
      Step jobs m (.sample r)
        (m.setReader r { m.readers r with generation := m.generation, phase := .idle })

/-- Module load: no policy, the readers just opened, the writers not yet called. -/
def Machine.initial : Machine ι ρ where
  kernel := .init
  lock := none
  writers _ := .start
  readers _ := ⟨0, none, .idle⟩
  publishes := 0

def policyMachine (jobs : ι → WriterJob) : System (Machine ι ρ) (Action ι ρ) where
  init m := m = .initial
  step := Step jobs

end Steps

/-! ### The lock -/

def WriterPhase.HoldsLock : WriterPhase → Prop
  | .locked | .compared | .reconciled | .published _ | .failing _ => True
  | .start | .released _ | .done _ => False

def ReaderPhase.HoldsLock : ReaderPhase → Prop
  | .locked | .copied _ => True
  | .idle | .entered | .unlocked _ => False

section Mutex
variable {ι ρ : Type} {m m' : Machine ι ρ} {t t₀ : ι ⊕ ρ}

/-- The thread is between `mutex_lock` and `mutex_unlock`. -/
def Machine.Holds (m : Machine ι ρ) : ι ⊕ ρ → Prop
  | .inl w => (m.writers w).HoldsLock
  | .inr r => (m.readers r).phase.HoldsLock

/-- Whoever is in the critical section holds the lock, so at most one thread is. -/
def Machine.Mutex (m : Machine ι ρ) : Prop := ∀ t, m.Holds t → m.lock = some t

namespace Machine

theorem setWriter_writers [DecidableEq ι] (m : Machine ι ρ) (w w' : ι) (p : WriterPhase) :
    (m.setWriter w p).writers w' = if w' = w then p else m.writers w' := Function.update_apply ..

theorem setReader_readers [DecidableEq ρ] (m : Machine ι ρ) (r r' : ρ) (x : Reader) :
    (m.setReader r x).readers r' = if r' = r then x else m.readers r' := Function.update_apply ..

theorem holds_setWriter [DecidableEq ι] {w : ι} {p : WriterPhase} (h : (m.setWriter w p).Holds t) :
    (t = .inl w ∧ p.HoldsLock) ∨ (t ≠ .inl w ∧ m.Holds t) := by
  rcases t with w' | r
  · by_cases hw : w' = w
    · subst hw
      exact .inl ⟨rfl, by simpa [Holds, setWriter] using h⟩
    · exact .inr ⟨by simpa using hw, by simpa [Holds, setWriter, hw] using h⟩
  · exact .inr ⟨by simp, h⟩

theorem holds_setReader [DecidableEq ρ] {r : ρ} {x : Reader} (h : (m.setReader r x).Holds t) :
    (t = .inr r ∧ x.phase.HoldsLock) ∨ (t ≠ .inr r ∧ m.Holds t) := by
  rcases t with w | r'
  · exact .inr ⟨by simp, h⟩
  · by_cases hr : r' = r
    · subst hr
      exact .inl ⟨rfl, by simpa [Holds, setReader] using h⟩
    · exact .inr ⟨by simpa using hr, by simpa [Holds, setReader, hr] using h⟩

namespace Mutex

theorem writer (hm : m.Mutex) {w : ι} {p : WriterPhase} (h : m.writers w = p) (hp : p.HoldsLock) :
    m.lock = some (.inl w) := hm (.inl w) (show (m.writers w).HoldsLock from h ▸ hp)

theorem keepWriter [DecidableEq ι] (hm : m.Mutex) {w : ι} {p : WriterPhase}
    (hp : p.HoldsLock → (m.writers w).HoldsLock) : (m.setWriter w p).Mutex := by
  intro t ht
  rcases holds_setWriter ht with ⟨rfl, hw⟩ | ⟨-, ht⟩
  · exact hm (.inl w) (hp hw)
  · exact hm t ht

theorem keepReader [DecidableEq ρ] (hm : m.Mutex) {r : ρ} {x : Reader}
    (hx : x.phase.HoldsLock → (m.readers r).phase.HoldsLock) : (m.setReader r x).Mutex := by
  intro t ht
  rcases holds_setReader ht with ⟨rfl, hr⟩ | ⟨-, ht⟩
  · exact hm (.inr r) (hx hr)
  · exact hm t ht

theorem acquire (hm : m.Mutex) (hfree : m.lock = none) (hlock : m'.lock = some t₀)
    (h : ∀ t, m'.Holds t → t = t₀ ∨ m.Holds t) : m'.Mutex := by
  intro t ht
  rcases h t ht with rfl | ht
  · exact hlock
  · rw [hm t ht] at hfree
    cases hfree

theorem release (hm : m.Mutex) (h₀ : m.Holds t₀) (h : ∀ t, m'.Holds t → t ≠ t₀ ∧ m.Holds t) : m'.Mutex := by
  intro t ht
  obtain ⟨hne, ht⟩ := h t ht
  exact absurd (Option.some.inj ((hm t ht).symm.trans (hm t₀ h₀))) hne

theorem releaseWriter [DecidableEq ι] (hm : m.Mutex) {w : ι} {p : WriterPhase} (h₀ : m.Holds (.inl w))
    (hp : ¬ p.HoldsLock) : ({ m with lock := none }.setWriter w p).Mutex :=
  hm.release h₀ fun _ ht => (holds_setWriter ht).resolve_left fun h => hp h.2

theorem releaseReader [DecidableEq ρ] (hm : m.Mutex) {r : ρ} {x : Reader} (h₀ : m.Holds (.inr r))
    (hx : ¬ x.phase.HoldsLock) : ({ m with lock := none }.setReader r x).Mutex :=
  hm.release h₀ fun _ ht => (holds_setReader ht).resolve_left fun h => hx h.2

theorem step [DecidableEq ι] [DecidableEq ρ] {jobs : ι → WriterJob} {a : Action ι ρ} (hm : m.Mutex)
    (h : Step jobs m a m') : m'.Mutex := by
  have holdsWriter {w : ι} {p : WriterPhase} (h : m.writers w = p) (hp : p.HoldsLock) :
      (m.writers w).HoldsLock := h ▸ hp
  have holdsReader {r : ρ} {p : ReaderPhase} (h : (m.readers r).phase = p) (hp : p.HoldsLock) :
      (m.readers r).phase.HoldsLock := h ▸ hp
  cases h with
  | lock h hl => exact hm.acquire hl rfl fun t ht => (holds_setWriter ht).imp And.left And.right
  | compare h => exact hm.keepWriter fun _ => holdsWriter h trivial
  | reconcile h _ => exact keepWriter (m := { m with kernel := _ }) hm fun _ => holdsWriter h trivial
  | reconcileFail h _ => exact hm.keepWriter fun _ => holdsWriter h trivial
  | publish h => exact keepWriter (m := m.publishSnapshot _) hm fun _ => holdsWriter h trivial
  | unlock h => exact hm.releaseWriter (holdsWriter h trivial) id
  | unlockFail h => exact hm.releaseWriter (holdsWriter h trivial) id
  | increment h => exact keepWriter (m := m.incrementGeneration) hm False.elim
  | bump => exact hm
  | enter h _ => exact hm.keepReader False.elim
  | readLock h hl => exact hm.acquire hl rfl fun t ht => (holds_setReader ht).imp And.left And.right
  | copy h => exact hm.keepReader fun _ => holdsReader h trivial
  | readFail h => exact hm.releaseReader (holdsReader h trivial) id
  | readUnlock h => exact hm.releaseReader (holdsReader h trivial) id
  | sample h => exact hm.keepReader False.elim

end Mutex

theorem mutex_initial : (initial : Machine ι ρ).Mutex := by
  rintro (w | r) ht <;> exact ht.elim

end Machine

end Mutex

section Solo
variable {ι ρ : Type} [DecidableEq ι] [DecidableEq ρ]
open Machine

/-! ### A writer on its own -/

/-- What the threads can do together. -/
def Machine.Path (jobs : ι → WriterJob) : Machine ι ρ → Machine ι ρ → Prop :=
  Relation.ReflTransGen fun m m' => ∃ a, Step jobs m a m'

theorem Machine.Path.snoc {jobs : ι → WriterJob} {m m' m'' : Machine ι ρ} {a : Action ι ρ}
    (hp : Path jobs m m') (hs : Step jobs m' a m'') : Path jobs m m'' := hp.tail ⟨a, hs⟩

/-- A writer that nobody interrupts runs `publishPolicySnapshot`. -/
theorem Machine.solo_run {jobs : ι → WriterJob} {m : Machine ι ρ} {w : ι} {result : Except Errno Unit}
    {k : KernelState} (h : m.writers w = .start) (hl : m.lock = none)
    (hrun : exec (publishPolicySnapshot (jobs w).alloc (jobs w).snapshot (jobs w).expectedGeneration)
      m.kernel = (result, k)) :
    ∃ m', Path jobs m m' ∧ m'.lock = none ∧ m'.writers w = .done result ∧ m'.kernel = k := by
  have hself (m : Machine ι ρ) (p : WriterPhase) : (m.setWriter w p).writers w = p := Function.update_self ..
  have hstart : Path jobs m m := .refl
  have hcompared : Path jobs m ((({ m with lock := some (.inl w) } : Machine ι ρ).setWriter w
      .locked).setWriter w ((jobs w).compare m.generation)) :=
    (hstart.snoc (.lock h hl)).snoc (.compare (hself _ _))
  rw [exec_publishPolicySnapshot] at hrun
  by_cases hgen : (jobs w).expectedGeneration ≠ 0 ∧ (jobs w).expectedGeneration ≠ m.generation
  · obtain ⟨rfl, rfl⟩ := Prod.mk.inj ((if_pos hgen).symm.trans hrun)
    rw [show (jobs w).compare _ = .failing .eagain from if_pos hgen] at hcompared
    exact ⟨_, hcompared.snoc (.unlockFail (hself _ _)), rfl, hself _ _, rfl⟩
  · replace hrun := (if_neg hgen).symm.trans hrun
    rw [show (jobs w).compare _ = .compared from if_neg hgen] at hcompared
    cases hstats : kmodStatsReconcile (jobs w).alloc.stats (jobs w).snapshot m.kernel.stats with
    | error e =>
      rw [hstats] at hrun
      obtain ⟨rfl, rfl⟩ := Prod.mk.inj hrun
      have hfailing := hcompared.snoc (.reconcileFail (hself _ _) hstats)
      exact ⟨_, hfailing.snoc (.unlockFail (hself _ _)), rfl, hself _ _, rfl⟩
    | ok stats =>
      rw [hstats] at hrun
      obtain ⟨rfl, rfl⟩ := Prod.mk.inj hrun
      have hpublished := (hcompared.snoc (.reconcile (hself _ _) hstats)).snoc (.publish (hself _ _))
      have hreleased := hpublished.snoc (.unlock (hself _ _))
      exact ⟨_, hreleased.snoc (.increment (hself _ _)), rfl, hself _ _, rfl⟩

end Solo

end VpnHide
