import VpnHide.Concurrency

/-!
# Optimistic writers

`expected_generation` is meant to let one of several writers through that prepared their policy from the
same generation. The check runs under the lock, but the generation moves only after the lock is free
again: a second writer can be checked in between and overwrite the first one's policy
(`staleWriters_both_commit`). On the schedules that keep every check out of that gap, and as long as the
32-bit counter does not wrap, the intended guarantee holds in every run (`staleWriters_exclusive`): one of
them at most gets through, and it replaces the policy of the generation it supplied.
-/

namespace VpnHide
open Machine

variable {ι ρ : Type}

/-- No generation check while some writer has released the lock and not yet incremented the generation,
and no increment wraps. -/
def WriterSchedule (jobs : ι → WriterJob) (m : Machine ι ρ) : Action ι ρ → Prop
  | .compare w => (jobs w).expectedGeneration ≠ 0 → ∀ w' no, m.writers w' ≠ .released no
  | .increment _ | .bump => m.kernel.generation.toNat + 1 < 2 ^ 32
  | _ => True

/-- The generation check let the writer through, and it has not failed since. -/
def WriterPhase.Passed : WriterPhase → Prop
  | .compared | .reconciled | .published _ | .released _ | .done (.ok _) => True
  | .start | .locked | .failing _ | .done (.error _) => False

/-- Writers that passed the check supplied a generation that has been reached, and left behind once
they returned; no two of them supplied the same one. -/
structure WriterInv (jobs : ι → WriterJob) (m : Machine ι ρ) : Prop where
  reached : ∀ w, (jobs w).expectedGeneration ≠ 0 → (m.writers w).Passed →
    (jobs w).expectedGeneration ≤ m.generation
  behind : ∀ w, (jobs w).expectedGeneration ≠ 0 → m.writers w = .done (.ok ()) →
    (jobs w).expectedGeneration < m.generation
  unique : ∀ w w', (jobs w).expectedGeneration ≠ 0 →
    (jobs w).expectedGeneration = (jobs w').expectedGeneration →
    (m.writers w).Passed → (m.writers w').Passed → w = w'

namespace WriterInv
variable {jobs : ι → WriterJob} {m m' : Machine ι ρ} {w : ι}

theorem mono (h : WriterInv jobs m) (hg : m.generation ≤ m'.generation)
    (hpass : ∀ w, (m'.writers w).Passed → (m.writers w).Passed)
    (hdone : ∀ w, m'.writers w = .done (.ok ()) → m.writers w = .done (.ok ()) ∨
      ((jobs w).expectedGeneration ≠ 0 → (jobs w).expectedGeneration < m'.generation)) :
    WriterInv jobs m' where
  reached w hne hw := UInt64.le_trans (h.reached w hne (hpass w hw)) hg
  behind w hne hw := by
    rcases hdone w hw with hw | hlt
    · exact UInt64.lt_of_lt_of_le (h.behind w hne hw) hg
    · exact hlt hne
  unique w w' hne heq hw hw' := h.unique w w' hne heq (hpass w hw) (hpass w' hw')

theorem setWriter [DecidableEq ι] (h : WriterInv jobs m) (hm : m'.writers = m.writers)
    (hg : m.generation ≤ m'.generation) {p : WriterPhase} (hp : p.Passed → (m.writers w).Passed)
    (hd : p = .done (.ok ()) → (jobs w).expectedGeneration ≠ 0 →
      (jobs w).expectedGeneration < m'.generation) : WriterInv jobs (m'.setWriter w p) := by
  refine h.mono hg (fun w' hw' => ?_) fun w' hw' => ?_
  · rw [setWriter_writers] at hw'
    split at hw'
    · rename_i heq
      exact heq ▸ hp hw'
    · exact hm ▸ hw'
  · rw [setWriter_writers] at hw'
    split at hw'
    · rename_i heq
      exact .inr (heq ▸ hd hw')
    · exact .inl (hm ▸ hw')

/-- A writer passes the check while nobody is short of an increment. -/
theorem pass [DecidableEq ι] (h : WriterInv jobs m) (hmutex : m.Mutex) (hw : m.writers w = .locked)
    (hgap : (jobs w).expectedGeneration ≠ 0 → ∀ w' no, m.writers w' ≠ .released no)
    (hcheck : (jobs w).expectedGeneration = 0 ∨ (jobs w).expectedGeneration = m.generation) :
    WriterInv jobs (m.setWriter w .compared) := by
  -- another writer that passed with the same generation would hold the lock, sit in the gap or be done
  have hother {w' : ι} (hne : (jobs w).expectedGeneration ≠ 0)
      (heq : (jobs w).expectedGeneration = (jobs w').expectedGeneration)
      (hp : (m.writers w').Passed) : w' = w := by
    have hlock := hmutex.writer hw trivial
    have hgen := hcheck.resolve_left hne
    have hholds (hl : (m.writers w').HoldsLock) : w' = w :=
      Sum.inl.inj (Option.some.inj ((hmutex.writer rfl hl).symm.trans hlock))
    cases hw' : m.writers w' with
    | compared | reconciled | published => exact hholds (by rw [hw']; trivial)
    | released no => exact absurd hw' (hgap hne w' no)
    | done result =>
      rw [hw'] at hp
      cases result with
      | error e => exact hp.elim
      | ok _ =>
        have hlt := h.behind w' (heq ▸ hne) hw'
        rw [← heq, hgen] at hlt
        exact absurd hlt (UInt64.lt_irrefl _)
    | start | locked | failing => rw [hw'] at hp; exact hp.elim
  constructor
  · intro w' hne hw'
    rw [setWriter_writers] at hw'
    split at hw'
    · rename_i heq
      rw [heq] at hne ⊢
      exact UInt64.le_of_eq (hcheck.resolve_left hne)
    · exact h.reached w' hne hw'
  · intro w' hne hw'
    rw [setWriter_writers] at hw'
    split at hw'
    · cases hw'
    · exact h.behind w' hne hw'
  · intro w₁ w₂ hne heq h₁ h₂
    rw [setWriter_writers] at h₁ h₂
    split at h₁ <;> split at h₂ <;> rename_i e₁ e₂
    · rw [e₁, e₂]
    · rw [e₁] at hne heq ⊢
      exact (hother hne heq h₂).symm
    · rw [e₂] at heq ⊢
      exact hother (heq ▸ hne) heq.symm h₁
    · exact h.unique w₁ w₂ hne heq h₁ h₂

theorem step [DecidableEq ι] [DecidableEq ρ] {a : Action ι ρ} (h : WriterInv jobs m) (hmutex : m.Mutex)
    (hsched : WriterSchedule jobs m a) (hs : Step jobs m a m') : WriterInv jobs m' := by
  have hrefl : m.generation ≤ m.generation := UInt64.le_refl _
  cases hs with
  | lock hw _ => exact h.setWriter (by rfl) (by exact hrefl) (by exact False.elim) (by nofun)
  | @compare w hw =>
    by_cases hgen : (jobs w).expectedGeneration ≠ 0 ∧ (jobs w).expectedGeneration ≠ m.generation
    · rw [WriterJob.compare, if_pos hgen]
      exact h.setWriter rfl hrefl (by exact False.elim) (by nofun)
    · rw [WriterJob.compare, if_neg hgen]
      exact h.pass hmutex hw hsched (by rwa [not_and_or, not_not, not_not] at hgen)
  | reconcile hw _ => exact h.setWriter (by rfl) (by exact hrefl) (by simp [hw, WriterPhase.Passed]) (by nofun)
  | reconcileFail hw _ => exact h.setWriter rfl hrefl (by exact False.elim) (by nofun)
  | publish hw => exact h.setWriter (by rfl) (by exact hrefl) (by simp [hw, WriterPhase.Passed]) (by nofun)
  | unlock hw => exact h.setWriter (by rfl) (by exact hrefl) (by simp [hw, WriterPhase.Passed]) (by nofun)
  | unlockFail hw => exact h.setWriter (by rfl) (by exact hrefl) (by exact False.elim) (by nofun)
  | @increment w _ hw =>
    have hlt : m.generation < m.incrementGeneration.generation := generationU64_lt_succ hsched
    have hpassed : (m.writers w).Passed := by rw [hw]; trivial
    exact h.setWriter (by rfl) (UInt64.le_of_lt hlt) (fun _ => hpassed)
      fun _ hne => UInt64.lt_of_le_of_lt (h.reached w hne hpassed) hlt
  | bump => exact h.mono (UInt64.le_of_lt (generationU64_lt_succ hsched)) (fun _ hw => hw) fun _ hw => .inl hw
  | enter | readLock | copy | readFail | readUnlock | sample =>
    exact h.mono hrefl (fun _ hw => hw) fun _ hw => .inl hw

end WriterInv

/-- From the moment `m₀` on at which a writer's generation is the current one: as long as no policy counts as newer, the
policy is that of `m₀` or its writer has yet to increment the generation, and a writer that passed the check has that of
`m₀` before it. -/
structure SeenInv (jobs : ι → WriterJob) (w : ι) (m₀ m : Machine ι ρ) : Prop where
  later : (jobs w).expectedGeneration ≤ m.generation
  pending : (jobs w).expectedGeneration = m.generation → m.kernel.policy ≠ m₀.kernel.policy →
    ∃ x no, m.writers x = .published no ∨ m.writers x = .released no
  kept : m.writers w = .compared ∨ m.writers w = .reconciled → m.kernel.policy = m₀.kernel.policy

namespace SeenInv
variable {jobs : ι → WriterJob} {w x : ι} {m₀ m m' : Machine ι ρ}

theorem refl (hgen : (jobs w).expectedGeneration = m.generation) : SeenInv jobs w m m :=
  ⟨UInt64.le_of_eq hgen, fun _ hne => absurd rfl hne, fun _ => rfl⟩

theorem setWriter [DecidableEq ι] (h : SeenInv jobs w m₀ m) (hwriters : m'.writers = m.writers)
    (hpolicy : m'.kernel.policy = m.kernel.policy) (hgeneration : m'.generation = m.generation) {p : WriterPhase}
    (hpending : ∀ no, m.writers x = .published no ∨ m.writers x = .released no → p = .published no ∨ p = .released no)
    (hkept : x = w → p = .compared ∨ p = .reconciled → m.kernel.policy = m₀.kernel.policy) :
    SeenInv jobs w m₀ (m'.setWriter x p) := by
  have hother : ∀ v, v ≠ x → (m'.setWriter x p).writers v = m.writers v := fun v hv => by
    rw [setWriter_writers, if_neg hv, hwriters]
  have hself : (m'.setWriter x p).writers x = p := by rw [setWriter_writers, if_pos rfl]
  have hpolicy' : (m'.setWriter x p).kernel.policy = m.kernel.policy := hpolicy
  have hgeneration' : (m'.setWriter x p).generation = m.generation := hgeneration
  refine ⟨hgeneration' ▸ h.later, fun hgen hne => ?_, fun hphase => ?_⟩
  · obtain ⟨y, no, hy⟩ := h.pending (hgen.trans hgeneration') (hpolicy' ▸ hne)
    by_cases hyx : y = x
    · subst hyx
      refine ⟨y, no, ?_⟩
      rw [hself]
      exact hpending no hy
    · refine ⟨y, no, ?_⟩
      rw [hother y hyx]
      exact hy
  · rw [hpolicy']
    by_cases hxw : w = x
    · subst hxw
      exact hkept rfl (hself ▸ hphase)
    · exact h.kept (hother w hxw ▸ hphase)

theorem increment (h : SeenInv jobs w m₀ m) (hlt : m.generation < m'.generation)
    (hkept : m'.writers w = .compared ∨ m'.writers w = .reconciled → m'.kernel.policy = m₀.kernel.policy) :
    SeenInv jobs w m₀ m' := by
  have hlater := UInt64.lt_of_le_of_lt h.later hlt
  exact ⟨UInt64.le_of_lt hlater, fun hgen => absurd (hgen ▸ hlater) (UInt64.lt_irrefl _), hkept⟩

/-- With the lock in hand and nobody short of an increment, the policy is that of `m₀`. -/
theorem pass (h : SeenInv jobs w m₀ m) (hmutex : m.Mutex) (hw : m.writers w = .locked)
    (hgap : ∀ x no, m.writers x ≠ .released no) (hgen : (jobs w).expectedGeneration = m.generation) :
    m.kernel.policy = m₀.kernel.policy := by
  by_contra hne
  obtain ⟨x, no, hx | hx⟩ := h.pending hgen hne
  · have hlock := (hmutex.writer hw trivial).symm.trans (hmutex.writer hx trivial)
    cases hlock
    cases hw.symm.trans hx
  · exact hgap x no hx

theorem step [DecidableEq ι] [DecidableEq ρ] {a : Action ι ρ} (h : SeenInv jobs w m₀ m)
    (hne : (jobs w).expectedGeneration ≠ 0) (hmutex : m.Mutex) (hsched : WriterSchedule jobs m a)
    (hs : Step jobs m a m') : SeenInv jobs w m₀ m' := by
  -- of the steps that leave policy and generation alone, only the check needs an argument
  have hsame {x : ι} {p : WriterPhase} {m' : Machine ι ρ} (hwriters : m'.writers = m.writers)
      (hpolicy : m'.kernel.policy = m.kernel.policy) (hgeneration : m'.generation = m.generation)
      (hx : ∀ no, m.writers x ≠ .published no ∧ m.writers x ≠ .released no) (hp : p ≠ .compared ∧ p ≠ .reconciled) :
      SeenInv jobs w m₀ (m'.setWriter x p) :=
    h.setWriter hwriters hpolicy hgeneration (fun no hx' => absurd hx' (not_or.2 (hx no)))
      fun _ hp' => absurd hp' (not_or.2 hp)
  cases hs with
  | lock hx _ => exact hsame (by rfl) (by rfl) (by rfl) (by simp [hx]) (by simp)
  | @compare x hx =>
    refine h.setWriter (by rfl) (by rfl) (by rfl) (by simp [hx]) ?_
    rintro rfl hpass
    by_cases hgen : (jobs x).expectedGeneration = m.generation
    · exact h.pass hmutex hx (hsched hne) hgen
    · rw [WriterJob.compare, if_pos ⟨hne, hgen⟩] at hpass
      simp at hpass
  | reconcile hx _ =>
    exact h.setWriter (by rfl) (by rfl) (by rfl) (by simp [hx]) fun heq _ => h.kept (.inl (heq ▸ hx))
  | reconcileFail hx _ => exact hsame (by rfl) (by rfl) (by rfl) (by simp [hx]) (by simp)
  | @publish x hx =>
    refine ⟨h.later, fun _ _ => ⟨x, m.publishes + 1, .inl ?_⟩, fun hphase => ?_⟩
    · rw [setWriter_writers, if_pos rfl]
    · rw [setWriter_writers] at hphase
      split at hphase
      · simp at hphase
      · -- the one who publishes holds the lock, and so would `w`
        rename_i hwx
        have hw : (m.writers w).HoldsLock := by
          obtain hw | hw := hphase <;> exact (show m.writers w = _ from hw) ▸ trivial
        exact absurd (Sum.inl.inj (Option.some.inj ((hmutex.writer rfl hw).symm.trans (hmutex.writer hx trivial)))) hwx
  | unlock hx => exact h.setWriter (by rfl) (by rfl) (by rfl) (by simp [hx]) (by simp)
  | unlockFail hx => exact hsame (by rfl) (by rfl) (by rfl) (by simp [hx]) (by simp)
  | @increment x _ hx =>
    refine h.increment (generationU64_lt_succ hsched) fun hphase => ?_
    rw [setWriter_writers] at hphase
    split at hphase
    · simp at hphase
    · exact h.kept hphase
  | bump => exact h.increment (generationU64_lt_succ hsched) h.kept
  | enter | readLock | copy | readFail | readUnlock | sample => exact ⟨h.later, h.pending, h.kept⟩

end SeenInv

section Runs
variable [DecidableEq ι] [DecidableEq ρ] {jobs : ι → WriterJob} {m : Machine ι ρ}

theorem writerInv_of_reachable (h : ((policyMachine jobs).restrict (WriterSchedule jobs)).Reachable m) :
    m.Mutex ∧ WriterInv jobs m := by
  refine h.invariant (P := fun m => m.Mutex ∧ WriterInv jobs m) ?_ ?_
  · rintro _ rfl
    refine ⟨mutex_initial, ?_⟩
    exact ⟨fun w _ hw => hw.elim, fun w _ hw => (by cases hw), fun w w' _ _ hw => hw.elim⟩
  · rintro m a m' ⟨hmutex, hinv⟩ ⟨hsched, hs⟩
    exact ⟨hmutex.step hs, hinv.step hmutex hsched hs⟩

theorem SeenInv.leads {w : ι} {m₀ : Machine ι ρ}
    (hm₀ : ((policyMachine jobs).restrict (WriterSchedule jobs)).Reachable m₀)
    (hne : (jobs w).expectedGeneration ≠ 0) (hgen : (jobs w).expectedGeneration = m₀.generation)
    (h : ((policyMachine jobs).restrict (WriterSchedule jobs)).Leads m₀ m) : SeenInv jobs w m₀ m := by
  induction h with
  | refl => exact .refl hgen
  | step hs hstep ih => exact ih.step hne (writerInv_of_reachable (hs.reachable hm₀)).1 hstep.1 hstep.2

/-- Only the check takes a writer to where it may publish. -/
theorem Step.before_publish {m' : Machine ι ρ} {a : Action ι ρ} {w : ι} (hs : Step jobs m a m')
    (hw : m'.writers w = .compared ∨ m'.writers w = .reconciled) :
    (m.writers w = .compared ∨ m.writers w = .reconciled) ∨ (jobs w).compare m.generation = .compared := by
  cases hs with
  | @compare x _ =>
    rw [setWriter_writers] at hw
    split at hw
    · rename_i hwx
      subst hwx
      refine .inr (hw.resolve_right fun hw => ?_)
      unfold WriterJob.compare at hw
      split at hw <;> cases hw
    · exact .inl hw
  | @reconcile x _ hx _ =>
    rw [setWriter_writers] at hw
    split at hw
    · rename_i hwx
      exact .inl (.inl (hwx ▸ hx))
    · exact .inl hw
  | lock | reconcileFail | publish | unlock | unlockFail | increment =>
    rw [setWriter_writers] at hw
    split at hw
    · simp at hw
    · exact .inl hw
  | bump | enter | readLock | copy | readFail | readUnlock | sample => exact .inl hw

/-- Before a writer publishes, its generation has been the current one. -/
theorem seen_of_reachable {w : ι} (h : ((policyMachine jobs).restrict (WriterSchedule jobs)).Reachable m)
    (hne : (jobs w).expectedGeneration ≠ 0) (hw : m.writers w = .compared ∨ m.writers w = .reconciled) :
    ∃ m₀, ((policyMachine jobs).restrict (WriterSchedule jobs)).Reachable m₀ ∧
      ((policyMachine jobs).restrict (WriterSchedule jobs)).Leads m₀ m ∧
      (jobs w).expectedGeneration = m₀.generation := by
  induction h with
  | init hinit =>
    subst hinit
    obtain hw | hw := hw <;> cases hw
  | @step m m' _ hm hstep ih =>
    obtain hbefore | hpass := Step.before_publish hstep.2 hw
    · obtain ⟨m₀, hm₀, hleads, hgen⟩ := ih hbefore
      exact ⟨m₀, hm₀, hleads.step hstep, hgen⟩
    · refine ⟨m, hm, .step .refl hstep, ?_⟩
      by_contra hgen
      rw [WriterJob.compare, if_pos ⟨hne, hgen⟩] at hpass
      cases hpass

/-- On such schedules two writers that supplied the same non-zero generation never both return 0: once one has, the
check turns every other one away with `-EAGAIN`. And what a writer that supplied a non-zero generation replaces is the
policy that was there whenever that generation was the current one. -/
theorem staleWriters_exclusive (h : ((policyMachine jobs).restrict (WriterSchedule jobs)).Reachable m) :
    (∀ w w', w ≠ w' → (jobs w).expectedGeneration ≠ 0 →
      (jobs w).expectedGeneration = (jobs w').expectedGeneration →
      ¬ (m.writers w = .done (.ok ()) ∧ m.writers w' = .done (.ok ())) ∧
      (m.writers w = .done (.ok ()) → (jobs w').compare m.generation = .failing .eagain)) ∧
    ∀ w m', (jobs w).expectedGeneration ≠ 0 → Step jobs m (.publish w) m' →
      (∃ m₀, ((policyMachine jobs).restrict (WriterSchedule jobs)).Reachable m₀ ∧
        ((policyMachine jobs).restrict (WriterSchedule jobs)).Leads m₀ m ∧
        (jobs w).expectedGeneration = m₀.generation) ∧
      ∀ m₀, ((policyMachine jobs).restrict (WriterSchedule jobs)).Reachable m₀ →
        ((policyMachine jobs).restrict (WriterSchedule jobs)).Leads m₀ m →
        (jobs w).expectedGeneration = m₀.generation → m.kernel.policy = m₀.kernel.policy := by
  obtain ⟨-, hinv⟩ := writerInv_of_reachable h
  refine ⟨fun w w' hne hexpected hsame => ⟨?_, fun hw => ?_⟩, fun w m' hexpected hpublish => ?_⟩
  · rintro ⟨hw, hw'⟩
    exact hne (hinv.unique w w' hexpected hsame (by rw [hw]; trivial) (by rw [hw']; trivial))
  · have hlt := hinv.behind w hexpected hw
    rw [hsame] at hlt hexpected
    exact if_pos ⟨hexpected, fun heq => absurd (heq ▸ hlt) (UInt64.lt_irrefl _)⟩
  · cases hpublish with
    | publish hw =>
      refine ⟨seen_of_reachable h hexpected (.inr hw), fun m₀ hm₀ hleads hgen => ?_⟩
      exact (SeenInv.leads hm₀ hexpected hgen hleads).kept (.inr hw)

end Runs

/-- A snapshot without any entry. -/
def blankSnapshot (flags : UInt32) : PolicySnapshot where
  activeHooksMask := portHookMask
  javaHooksMask := 0
  debugEnabled := 0
  flags := flags
  kmodMatchMode := 0
  lsposedMatchMode := 0
  portMatchMode := 0
  ifacePrefixes := ⟨0, Vector.replicate 32 (Vector.replicate 16 0)⟩
  kmodUids := []
  lsposedUids := []
  portTargets := []
  portRules := []
  appHookMasks := []

/-- Two writers that both read generation 1. -/
def twoWriters (w : Bool) : WriterJob := ⟨blankSnapshot (if w then 2 else 1), 1, ⟨true, true, true, true⟩⟩

theorem staleWriters_exclusive_sample :
    ∃ m₁ m : Machine Bool Empty,
      ((policyMachine twoWriters).restrict (WriterSchedule twoWriters)).Leads .initial m₁ ∧
      m₁.writers false = .reconciled ∧ m₁.kernel.policy = (Machine.initial : Machine Bool Empty).kernel.policy ∧
      ((policyMachine twoWriters).restrict (WriterSchedule twoWriters)).Reachable m ∧
      m.writers false = .done (.ok ()) ∧ (twoWriters true).compare m.generation = .failing .eagain := by
  have h₀ : ((policyMachine twoWriters).restrict (WriterSchedule twoWriters)).Reachable
      (Machine.initial : Machine Bool Empty) := .init rfl
  have l₀ : ((policyMachine twoWriters).restrict (WriterSchedule twoWriters)).Leads
      (Machine.initial : Machine Bool Empty) .initial := .refl
  have l₁ := l₀.restrict_step (.lock (w := false) rfl rfl) trivial
  have l₂ := l₁.restrict_step (.compare (w := false) rfl) fun _ w' no h => by cases w' <;> cases h
  have l₃ := l₂.restrict_step (.reconcile (w := false) rfl rfl) trivial
  have l₄ := l₃.restrict_step (.publish (w := false) rfl) trivial
  have l₅ := l₄.restrict_step (.unlock (w := false) rfl) trivial
  have l₆ := l₅.restrict_step (.increment (w := false) rfl) (show (1 : UInt32).toNat + 1 < 2 ^ 32 by decide)
  have h₆ := l₆.reachable h₀
  have hkept := ((staleWriters_exclusive (l₃.reachable h₀)).2 false _ (by decide) (.publish rfl)).2
  exact ⟨_, _, l₃, rfl, hkept .initial h₀ l₃ rfl, h₆, rfl,
    ((staleWriters_exclusive h₆).1 false true (by decide) (by decide) rfl).2 rfl⟩

/-- The second writer is checked after the first has released the lock and before it increments the
generation: both return 0, and the first policy is gone. -/
theorem staleWriters_both_commit :
    ∃ m : Machine Bool Empty, (policyMachine twoWriters).Reachable m ∧
      m.writers false = .done (.ok ()) ∧ m.writers true = .done (.ok ()) ∧
      m.kernel.policy = some (twoWriters true).snapshot := by
  have h₀ : (policyMachine twoWriters).Reachable (Machine.initial : Machine Bool Empty) := .init rfl
  have h₁ := h₀.step (.lock (w := false) rfl rfl)
  have h₂ := h₁.step (.compare (w := false) rfl)
  have h₃ := h₂.step (.reconcile (w := false) rfl rfl)
  have h₄ := h₃.step (.publish (w := false) rfl)
  have h₅ := h₄.step (.unlock (w := false) rfl)
  have h₆ := h₅.step (.lock (w := true) rfl rfl)
  have h₇ := h₆.step (.compare (w := true) rfl)
  have h₈ := h₇.step (.reconcile (w := true) rfl rfl)
  have h₉ := h₈.step (.publish (w := true) rfl)
  have h₁₀ := h₉.step (.unlock (w := true) rfl)
  have h₁₁ := h₁₀.step (.increment (w := false) rfl)
  exact ⟨_, h₁₁.step (.increment (w := true) rfl), rfl, rfl, rfl⟩

end VpnHide
