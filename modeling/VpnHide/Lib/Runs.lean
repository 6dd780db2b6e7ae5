import Mathlib.Data.List.Range

/-!
# Runs of a labelling

Scanning `0, 1, 2, …` under a partial labelling `f`, a run `[start, i - 1]` is closed whenever the label at
`i` differs from the one before. Once the scan has met an unlabelled index, the closed runs say where
each label stands (`RunScan.mem_runs`). They are in order, and no two of them could be one (`RunScan.runs_separated`).
-/

namespace VpnHide

variable {β : Type}

/-- The open run (if `label` is some label) and the closed ones, as first index, last index and label. -/
structure RunScan (β : Type) where
  start : ℕ
  label : Option β
  runs : List (ℕ × ℕ × β)

namespace RunScan

def close (s : RunScan β) (i : ℕ) : List (ℕ × ℕ × β) :=
  match s.label with
  | none => s.runs
  | some b => s.runs ++ [(s.start, i - 1, b)]

def step [DecidableEq β] (f : ℕ → Option β) (s : RunScan β) (i : ℕ) : RunScan β :=
  if f i ≠ s.label then ⟨i, f i, s.close i⟩ else s

def scan [DecidableEq β] (f : ℕ → Option β) (n : ℕ) : RunScan β := (List.range n).foldl (step f) ⟨0, none, []⟩

theorem scan_succ [DecidableEq β] (f : ℕ → Option β) (n : ℕ) : scan f (n + 1) = step f (scan f n) n := by
  rw [scan, List.range_succ, List.foldl_append]
  rfl

/-- What holds in front of index `n`. -/
structure Inv (f : ℕ → Option β) (n : ℕ) (s : RunScan β) : Prop where
  opened : ∀ b, s.label = some b → s.start < n ∧ ∀ j, s.start ≤ j → j < n → f j = some b
  last : ∀ m, n = m + 1 → s.label = f m
  sound : ∀ a e b, (a, e, b) ∈ s.runs → a ≤ e ∧ e < n ∧ ∀ j, a ≤ j → j ≤ e → f j = some b
  complete : ∀ j b, j < n → f j = some b →
    (∃ a e, (a, e, b) ∈ s.runs ∧ a ≤ j ∧ j ≤ e) ∨ s.label = some b ∧ s.start ≤ j

variable {f : ℕ → Option β} {n : ℕ} {s : RunScan β}

theorem Inv.initial : Inv f 0 ⟨0, none, []⟩ where
  opened := by nofun
  last := by nofun
  sound := by nofun
  complete := by nofun

theorem Inv.extend (h : Inv f n s) (heq : f n = s.label) : Inv f (n + 1) s where
  opened b hb := by
    obtain ⟨hlt, hrun⟩ := h.opened b hb
    refine ⟨by omega, fun j hj hjn => ?_⟩
    rcases Nat.lt_succ_iff_lt_or_eq.1 hjn with hjn | rfl
    · exact hrun j hj hjn
    · rw [heq, hb]
  last m hm := by
    obtain rfl := Nat.succ.inj hm
    exact heq.symm
  sound a e b hmem := by
    obtain ⟨hae, hen, hrun⟩ := h.sound a e b hmem
    exact ⟨hae, by omega, hrun⟩
  complete j b hj hb := by
    rcases Nat.lt_succ_iff_lt_or_eq.1 hj with hj | rfl
    · exact h.complete j b hj hb
    · have hlabel : s.label = some b := heq.symm.trans hb
      exact .inr ⟨hlabel, Nat.le_of_lt (h.opened b hlabel).1⟩

theorem mem_close {a e : ℕ} {b : β} :
    (a, e, b) ∈ s.close n ↔ (a, e, b) ∈ s.runs ∨ s.label = some b ∧ a = s.start ∧ e = n - 1 := by
  unfold close
  cases hl : s.label with
  | none => simp
  | some c =>
    simp only [List.mem_append, List.mem_singleton, Prod.mk.injEq, Option.some.injEq]
    refine or_congr_right ⟨?_, ?_⟩
    · rintro ⟨rfl, rfl, rfl⟩
      exact ⟨rfl, rfl, rfl⟩
    · rintro ⟨rfl, rfl, rfl⟩
      exact ⟨rfl, rfl, rfl⟩

theorem Inv.change (h : Inv f n s) : Inv f (n + 1) ⟨n, f n, s.close n⟩ where
  opened b hb := by
    refine ⟨Nat.lt_succ_self n, fun j hj hjn => ?_⟩
    obtain rfl : n = j := Nat.le_antisymm hj (Nat.le_of_lt_succ hjn)
    exact hb
  last m hm := by
    obtain rfl := Nat.succ.inj hm
    rfl
  sound a e b hmem := by
    rcases mem_close.1 hmem with hmem | ⟨hb, rfl, rfl⟩
    · obtain ⟨hae, hen, hrun⟩ := h.sound a e b hmem
      exact ⟨hae, by omega, hrun⟩
    · obtain ⟨hlt, hrun⟩ := h.opened b hb
      exact ⟨by omega, by omega, fun j hj hjn => hrun j hj (by omega)⟩
  complete j b hj hb := by
    rcases Nat.lt_succ_iff_lt_or_eq.1 hj with hj | rfl
    · refine .inl ?_
      rcases h.complete j b hj hb with ⟨a, e, hmem, hcover⟩ | ⟨hl, hstart⟩
      · exact ⟨a, e, mem_close.2 (.inl hmem), hcover⟩
      · exact ⟨s.start, n - 1, mem_close.2 (.inr ⟨hl, rfl, rfl⟩), hstart, by omega⟩
    · exact .inr ⟨hb, Nat.le_refl _⟩

theorem inv_scan [DecidableEq β] (f : ℕ → Option β) (n : ℕ) : Inv f n (scan f n) := by
  induction n with
  | zero => exact Inv.initial
  | succ n ih =>
    rw [scan_succ, step]
    split
    · exact ih.change
    · rename_i heq
      exact ih.extend (not_not.1 heq)

/-- After an unlabelled index every run is closed: an index has a label exactly if it lies in a run
with that label. -/
theorem mem_runs [DecidableEq β] (hn : f n = none) {j : ℕ} (hj : j ≤ n) (b : β) :
    f j = some b ↔ ∃ a e, (a, e, b) ∈ (scan f (n + 1)).runs ∧ a ≤ j ∧ j ≤ e := by
  have h := inv_scan f (n + 1)
  constructor
  · intro hb
    rcases h.complete j b (Nat.lt_succ_of_le hj) hb with hrun | ⟨hl, -⟩
    · exact hrun
    · rw [h.last n rfl, hn] at hl
      cases hl
  · rintro ⟨a, e, hmem, haj, hje⟩
    exact (h.sound a e b hmem).2.2 j haj hje

/-- The closed runs lie in order in front of the open one, and none of them could be longer. -/
structure Ordered (f : ℕ → Option β) (s : RunScan β) : Prop where
  before : ∀ r ∈ s.runs, r.2.1 < s.start
  maximal : ∀ r ∈ s.runs, f (r.2.1 + 1) ≠ some r.2.2
  sorted : s.runs.Pairwise fun r r' => r.2.1 < r'.1

theorem Ordered.change (h : Ordered f s) (hinv : Inv f n s) (hne : f n ≠ s.label) :
    Ordered f ⟨n, f n, s.close n⟩ := by
  have hclosed : ∀ r ∈ s.runs, r.2.1 < n := fun r hr => (hinv.sound r.1 r.2.1 r.2.2 hr).2.1
  cases hl : s.label with
  | none =>
    have hclose : s.close n = s.runs := by rw [close, hl]
    rw [hclose]
    exact ⟨hclosed, h.maximal, h.sorted⟩
  | some b =>
    have hclose : s.close n = s.runs ++ [(s.start, n - 1, b)] := by rw [close, hl]
    have hstart := (hinv.opened b hl).1
    have hlast : n - 1 + 1 = n := by omega
    rw [hclose]
    constructor
    · intro r hr
      rcases List.mem_append.1 hr with hr | hr
      · exact hclosed r hr
      · rw [List.mem_singleton.1 hr]
        show n - 1 < n
        omega
    · intro r hr
      rcases List.mem_append.1 hr with hr | hr
      · exact h.maximal r hr
      · rw [List.mem_singleton.1 hr]
        show f (n - 1 + 1) ≠ some b
        rw [hlast, ← hl]
        exact hne
    · refine List.pairwise_append.2 ⟨h.sorted, List.pairwise_singleton .., fun r hr r' hr' => ?_⟩
      rw [List.mem_singleton.1 hr']
      exact h.before r hr

theorem ordered_scan [DecidableEq β] (f : ℕ → Option β) (n : ℕ) : Ordered f (scan f n) := by
  induction n with
  | zero => exact ⟨nofun, nofun, .nil⟩
  | succ n ih =>
    rw [scan_succ, step]
    split
    · rename_i hne
      exact ih.change (inv_scan f n) hne
    · exact ih

/-- Each run ends in front of the next, with a gap between them if they have the same label. -/
theorem runs_separated [DecidableEq β] (f : ℕ → Option β) (n : ℕ) :
    (scan f n).runs.Pairwise fun r r' => r.2.1 < r'.1 ∧ (r.2.2 = r'.2.2 → r.2.1 + 1 < r'.1) := by
  have hinv := inv_scan f n
  have hord := ordered_scan f n
  refine hord.sorted.imp_of_mem ?_
  intro r r' hr hr' hlt
  refine ⟨hlt, fun hlabel => Nat.lt_of_le_of_ne hlt fun hnext => ?_⟩
  -- the index behind `r` would carry its label
  obtain ⟨hle, -, hrun⟩ := hinv.sound r'.1 r'.2.1 r'.2.2 hr'
  refine hord.maximal r hr ?_
  rw [hnext, hlabel]
  exact hrun r'.1 (Nat.le_refl _) hle

end RunScan

end VpnHide
