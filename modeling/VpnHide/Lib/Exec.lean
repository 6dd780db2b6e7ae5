import Mathlib.Data.List.Induction

/-!
# Runs of a machine

A machine takes an action where it can. What holds before a run and is kept by every action holds after the run, and it
may speak of the actions taken so far.
-/

namespace VpnHide
variable {σ α : Type}

/-- The state after a list of actions, if every one of them can be taken in its turn. -/
def execs (step : σ → α → Option σ) (s : σ) (acts : List α) : Option σ := acts.foldlM step s

variable {step : σ → α → Option σ} {s s' : σ} {acts : List α} {a : α}

@[simp] theorem execs_nil (step : σ → α → Option σ) (s : σ) : execs step s [] = some s := rfl

theorem execs_cons (step : σ → α → Option σ) (s : σ) (a : α) (acts : List α) :
    execs step s (a :: acts) = (step s a).bind fun m => execs step m acts := rfl

theorem execs_append (step : σ → α → Option σ) (s : σ) (acts acts' : List α) :
    execs step s (acts ++ acts') = (execs step s acts).bind fun m => execs step m acts' :=
  List.foldlM_append

theorem execs_concat : execs step s (acts ++ [a]) = some s' ↔ ∃ m, execs step s acts = some m ∧ step m a = some s' := by
  rw [execs_append, Option.bind_eq_some_iff]
  refine exists_congr fun m => and_congr_right fun _ => ?_
  show (step m a).bind some = some s' ↔ _
  rw [Option.bind_fun_some]

/-- The rule for runs: by induction on the actions, the last one apart. -/
theorem execs_induction {P : List α → σ → Prop} (hstart : P [] s)
    (hstep : ∀ acts m a m', execs step s acts = some m → P acts m → step m a = some m' → P (acts ++ [a]) m') :
    ∀ acts m, execs step s acts = some m → P acts m := by
  intro acts
  induction acts using List.reverseRecOn with
  | nil =>
    intro m hm
    cases hm
    exact hstart
  | append_singleton acts a ih =>
    intro m' hm'
    obtain ⟨m, hm, hlast⟩ := execs_concat.1 hm'
    exact hstep acts m a m' hm (ih m hm) hlast

theorem execs_invariant {P : σ → Prop} (hstart : P s) (hstep : ∀ m a m', P m → step m a = some m' → P m')
    (h : execs step s acts = some s') : P s' :=
  @execs_induction _ _ step s (fun _ m => P m) hstart (fun _ m a m' _ hm hlast => hstep m a m' hm hlast) acts s' h

/-- The run passes through a state, with `rest` still to come. -/
def Visits (step : σ → α → Option σ) (s : σ) (acts : List α) (m : σ) (rest : List α) : Prop :=
  ∃ before, acts = before ++ rest ∧ execs step s before = some m

theorem Visits.last (h : execs step s acts = some s') : Visits step s acts s' [] :=
  ⟨acts, (List.append_nil acts).symm, h⟩

theorem Visits.append {m : σ} {rest : List α} (h : Visits step s acts m rest) (more : List α) :
    Visits step s (acts ++ more) m (rest ++ more) := by
  obtain ⟨before, rfl, hbefore⟩ := h
  exact ⟨before, List.append_assoc .., hbefore⟩

theorem Visits.snoc {m : σ} {rest : List α} (h : Visits step s acts m rest) (a : α) :
    Visits step s (acts ++ [a]) m (rest ++ [a]) := h.append [a]

theorem Visits.snoc_cases {m : σ} {rest : List α} (h : Visits step s (acts ++ [a]) m rest) :
    (∃ rest', rest = rest' ++ [a] ∧ Visits step s acts m rest') ∨ rest = [] ∧ execs step s (acts ++ [a]) = some m := by
  obtain ⟨before, hacts, hbefore⟩ := h
  rcases List.eq_nil_or_concat rest with rfl | ⟨rest', b, rfl⟩
  · rw [List.append_nil] at hacts
    exact .inr ⟨rfl, hacts ▸ hbefore⟩
  · rw [List.concat_eq_append, ← List.append_assoc] at hacts
    obtain ⟨hacts, hb⟩ := List.append_inj' hacts rfl
    exact .inl ⟨rest', by rw [List.concat_eq_append, hb], before, hacts, hbefore⟩

theorem Visits.execs_rest {m : σ} {rest : List α} (h : Visits step s acts m rest) (hrun : execs step s acts = some s') :
    execs step m rest = some s' := by
  obtain ⟨before, rfl, hbefore⟩ := h
  rwa [execs_append, hbefore, Option.bind_some] at hrun

theorem forall_visits_concat {P : σ → α → Prop} {m : σ} (hrun : execs step s acts = some m) :
    (∀ m' b rest, Visits step s (acts ++ [a]) m' (b :: rest) → P m' b) ↔
      (∀ m' b rest, Visits step s acts m' (b :: rest) → P m' b) ∧ P m a := by
  constructor
  · intro h
    exact ⟨fun m' b rest hvisits => h m' b (rest ++ [a]) (hvisits.snoc a), h m a [] ((Visits.last hrun).snoc a)⟩
  · rintro ⟨hbefore, hlast⟩ m' b rest hvisits
    rcases hvisits.snoc_cases with ⟨rest', hrest, hvisits'⟩ | ⟨hrest, -⟩
    · cases rest' with
      | nil =>
        rw [List.nil_append, List.cons.injEq] at hrest
        obtain ⟨rfl, rfl⟩ := hrest
        obtain rfl := Option.some.inj (hvisits'.execs_rest hrun).symm
        exact hlast
      | cons b' rest' =>
        rw [List.cons_append, List.cons.injEq] at hrest
        obtain ⟨rfl, -⟩ := hrest
        exact hbefore m' b rest' hvisits'
    · cases hrest

theorem not_visits_nil {m : σ} {rest : List α} : ¬ Visits step s [] m (a :: rest) := by
  rintro ⟨before, hbefore, -⟩
  exact absurd hbefore.symm (by simp)

end VpnHide
