import VpnHide.Lib.Sorted

/-!
# The first entry of a key wins

A loop goes over a list and appends an entry for every element it picks, unless there is an entry with that
key already. What it leaves behind is a finite map in which every key has the entry of the first element
picked for it, so two orders of one list give the same map as far as they agree on the first elements.
-/

namespace VpnHide

variable {α β : Type}

/-- `ys` has, for every key, an entry `made` from the first of `xs` picked for that key, and no other. -/
structure FirstWins (key : β → ℕ) (pick : ℕ → α → Bool) (made : α → β → Prop) (xs : List α) (ys : List β) :
    Prop where
  found : ∀ k x, xs.find? (pick k) = some x → ∃ y, lookupBy key ys k = some y ∧ made x y
  missing : ∀ k, xs.find? (pick k) = none → lookupBy key ys k = none
  nodup : (ys.map key).Nodup

namespace FirstWins
variable {key : β → ℕ} {pick : ℕ → α → Bool} {made made' : α → β → Prop} {xs xs' : List α} {ys ys' : List β}
  {x : α} {y : β}

theorem nil : FirstWins key pick made [] [] := ⟨nofun, fun _ _ => rfl, List.nodup_nil⟩

theorem skip (h : FirstWins key pick made xs ys) (hx : ∀ k, pick k x → lookupBy key ys k ≠ none) :
    FirstWins key pick made (xs ++ [x]) ys := by
  have hfind (k : ℕ) : (xs ++ [x]).find? (pick k) = xs.find? (pick k) := by
    rw [List.find?_append]
    cases hxs : xs.find? (pick k) with
    | some _ => rfl
    | none =>
      have hno : ¬ pick k x := fun hpick => hx k hpick (h.missing k hxs)
      rw [Option.none_or, List.find?_singleton, if_neg hno]
  refine ⟨fun k z hz => h.found k z ?_, fun k hz => h.missing k ?_, h.nodup⟩
  · rwa [← hfind]
  · rwa [← hfind]

theorem add (h : FirstWins key pick made xs ys) (hx : ∀ k, pick k x ↔ k = key y)
    (hnew : lookupBy key ys (key y) = none) (hmade : made x y) :
    FirstWins key pick made (xs ++ [x]) (ys ++ [y]) := by
  have hfirst : xs.find? (pick (key y)) = none := by
    cases hxs : xs.find? (pick (key y)) with
    | none => rfl
    | some z =>
      obtain ⟨y', hy', -⟩ := h.found _ z hxs
      rw [hnew] at hy'
      cases hy'
  have hself : (xs ++ [x]).find? (pick (key y)) = some x ∧ lookupBy key (ys ++ [y]) (key y) = some y := by
    unfold lookupBy at hnew ⊢
    rw [List.find?_append, List.find?_append, hfirst, hnew, List.find?_singleton, List.find?_singleton,
      if_pos ((hx _).2 rfl), if_pos (beq_self_eq_true _)]
    exact ⟨rfl, rfl⟩
  have hother {k : ℕ} (hk : k ≠ key y) : (xs ++ [x]).find? (pick k) = xs.find? (pick k) ∧
      lookupBy key (ys ++ [y]) k = lookupBy key ys k := by
    unfold lookupBy
    rw [List.find?_append, List.find?_append, List.find?_singleton, List.find?_singleton,
      if_neg (mt (hx k).1 hk), if_neg (mt (fun heq => (beq_iff_eq.1 heq).symm) hk), Option.or_none, Option.or_none]
    exact ⟨rfl, rfl⟩
  constructor
  · intro k z hz
    by_cases hk : k = key y
    · subst hk
      obtain rfl := Option.some.inj (hself.1.symm.trans hz)
      exact ⟨y, hself.2, hmade⟩
    · rw [(hother hk).2]
      exact h.found k z ((hother hk).1 ▸ hz)
  · intro k hz
    by_cases hk : k = key y
    · subst hk
      rw [hself.1] at hz
      cases hz
    · rw [(hother hk).2]
      exact h.missing k ((hother hk).1 ▸ hz)
  · have hnotin : ∀ z ∈ ys, key z ≠ key y := lookupBy_eq_none.1 hnew
    simpa [List.nodup_append] using ⟨h.nodup, hnotin⟩

theorem of_mem (h : FirstWins key pick made xs ys) (hy : y ∈ ys) : ∃ x ∈ xs, pick (key y) x ∧ made x y := by
  have hlookup : lookupBy key ys (key y) = some y := lookupBy_of_mem h.nodup hy
  cases hfind : xs.find? (pick (key y)) with
  | none =>
    rw [h.missing _ hfind] at hlookup
    cases hlookup
  | some x =>
    obtain ⟨y', hy', hmade⟩ := h.found _ x hfind
    obtain rfl := Option.some.inj (hy'.symm.trans hlookup)
    exact ⟨x, List.mem_of_find?_eq_some hfind, List.find?_some hfind, hmade⟩

/-- Two orders of one list agree on a key if they agree on what its first element makes. -/
theorem agree (h : FirstWins key pick made xs ys) (h' : FirstWins key pick made' xs' ys') (hp : xs.Perm xs')
    {k : ℕ} (hsame : ∀ x x', xs.find? (pick k) = some x → xs'.find? (pick k) = some x' →
      ∀ y y', made x y → made' x' y' → y = y') : lookupBy key ys k = lookupBy key ys' k := by
  cases hx : xs.find? (pick k) with
  | none =>
    have hx' : xs'.find? (pick k) = none := by
      rw [List.find?_eq_none] at hx ⊢
      exact fun x hx' => hx x (hp.mem_iff.2 hx')
    rw [h.missing k hx, h'.missing k hx']
  | some x =>
    cases hx' : xs'.find? (pick k) with
    | none =>
      have hpicked := List.find?_some hx
      exact absurd hpicked (List.find?_eq_none.1 hx' x (hp.mem_iff.1 (List.mem_of_find?_eq_some hx)))
    | some x' =>
      obtain ⟨y, hy, hmade⟩ := h.found k x hx
      obtain ⟨y', hy', hmade'⟩ := h'.found k x' hx'
      rw [hy, hy', hsame x x' hx hx' y y' hmade hmade']

end FirstWins

end VpnHide
