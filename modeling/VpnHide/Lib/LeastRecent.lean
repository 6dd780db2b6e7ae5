import Mathlib.Data.Finset.Card
import Mathlib.Data.List.Basic

/-!
# Places for the most recent keys

A row of ways holds keys with the time of their last record, for a limited time. A record goes to the first way that is
free or has its key, and if there is none it replaces the way with the smallest time, the first one of several. The ways
so keep the most recent keys (`Keeps.found`), as long as the order of the ways and that of the records agree where times
are equal (`Orderly`).
-/

namespace VpnHide

variable {κ : Type}

/-- A way is free or holds a key and the time of its last record. -/
abbrev Way (κ : Type) := Option (ℕ × κ)

section Defs
variable [DecidableEq κ]

/-- The loop that selects a way, from `way` on. -/
def selectFrom (k : κ) : List (Way κ) → ℕ → ℕ → ℕ → ℕ
  | [], _, selected, _ => selected
  | none :: _, way, _, _ => way
  | some (t, k') :: rest, way, selected, oldest =>
    if k' = k then way
    else if t < oldest then selectFrom k rest (way + 1) way t
    else selectFrom k rest (way + 1) selected oldest

def select (k : κ) (ways : List (Way κ)) : ℕ := selectFrom k ways 0 0 (ways.head?.join.elim 0 Prod.fst)

def recordWay (now : ℕ) (k : κ) (ways : List (Way κ)) : List (Way κ) := ways.set (select k ways) (some (now, k))

def expireWays (ttl now : ℕ) (ways : List (Way κ)) : List (Way κ) :=
  ways.map fun w => w.filter fun r => decide (now < r.1 + ttl)

/-- The last record of a key; the log has the newest records in front. -/
def latest (log : List (ℕ × κ)) (k : κ) : Option (ℕ × κ) := log.find? fun r => r.2 = k

/-- The keys recorded since then. -/
def newerKeys (log : List (ℕ × κ)) (k : κ) : Finset κ := ((log.takeWhile fun r => r.2 ≠ k).map Prod.snd).toFinset

end Defs

/-! ### Selecting a way -/

/-- The loop stops at the way. -/
def Way.Stops (k : κ) (w : Way κ) : Prop := w = none ∨ ∃ t, w = some (t, k)

/-- The way at `i` is the first one at which the loop stops, or the loop stops nowhere and it is the first one with the
smallest time. -/
def Selected (k : κ) (ways : List (Way κ)) (i : ℕ) : Prop :=
  (∃ w, ways[i]? = some w ∧ w.Stops k ∧ ∀ j < i, ∀ w', ways[j]? = some w' → ¬ w'.Stops k) ∨
  (∀ w ∈ ways, ¬ w.Stops k) ∧ ∃ t k', ways[i]? = some (some (t, k')) ∧
    ∀ j t' k'', ways[j]? = some (some (t', k'')) → t < t' ∨ t = t' ∧ i ≤ j

theorem Way.not_stops {k k' : κ} (h : k' ≠ k) (t : ℕ) : ¬ Way.Stops k (some (t, k')) := by
  rintro (hnone | ⟨t', hsome⟩)
  · cases hnone
  · cases hsome
    exact h rfl

theorem getElem?_concat_cases {α : Type} {xs : List α} {x y : α} {j : ℕ} (h : (xs ++ [x])[j]? = some y) :
    xs[j]? = some y ∨ j = xs.length ∧ y = x := by
  rcases Nat.lt_or_ge j xs.length with hlt | hge
  · exact .inl (by rwa [List.getElem?_append_left hlt] at h)
  · rw [List.getElem?_append_right hge, List.getElem?_singleton] at h
    split_ifs at h with h0
    exact .inr ⟨by omega, (Option.some.inj h).symm⟩

section Select
variable [DecidableEq κ] {k : κ}

theorem selectFrom_selected {front rest : List (Way κ)} {selected oldest : ℕ} (hfront : ∀ w ∈ front, ¬ w.Stops k)
    (hsel : ∃ k', front[selected]? = some (some (oldest, k')))
    (hmin : ∀ j t' k'', front[j]? = some (some (t', k'')) → oldest < t' ∨ oldest = t' ∧ selected ≤ j) :
    Selected k (front ++ rest) (selectFrom k rest front.length selected oldest) := by
  induction rest generalizing front selected oldest with
  | nil =>
    rw [List.append_nil]
    obtain ⟨k', hk'⟩ := hsel
    exact .inr ⟨hfront, oldest, k', hk', hmin⟩
  | cons w rest ih =>
    have hhere : (front ++ w :: rest)[front.length]? = some w := by simp
    have hbefore : ∀ j < front.length, ∀ w', (front ++ w :: rest)[j]? = some w' → ¬ w'.Stops k := by
      intro j hj w' hw'
      rw [List.getElem?_append_left hj] at hw'
      exact hfront w' (List.mem_of_getElem? hw')
    rcases w with _ | ⟨t, k'⟩
    · exact .inl ⟨none, hhere, .inl rfl, hbefore⟩
    rw [selectFrom]
    by_cases hk : k' = k
    · rw [if_pos hk]
      exact .inl ⟨_, hhere, .inr ⟨t, by rw [hk]⟩, hbefore⟩
    rw [if_neg hk]
    have hnext : ∀ w ∈ front ++ [some (t, k')], ¬ w.Stops k := by
      intro w hw
      rcases List.mem_append.1 hw with hw | hw
      · exact hfront w hw
      · obtain rfl := List.mem_singleton.1 hw
        exact Way.not_stops hk t
    have hlen : front.length + 1 = (front ++ [some (t, k')]).length := by simp
    have hlast : (front ++ [some (t, k')])[front.length]? = some (some (t, k')) := by simp
    rw [List.append_cons]
    by_cases ht : t < oldest
    · rw [if_pos ht, hlen]
      refine ih hnext ⟨k', hlast⟩ fun j t' k'' hj => ?_
      rcases getElem?_concat_cases hj with hj | ⟨rfl, heq⟩
      · rcases hmin j t' k'' hj with h | ⟨rfl, -⟩
        · exact .inl (Nat.lt_trans ht h)
        · exact .inl ht
      · cases heq
        exact .inr ⟨rfl, Nat.le_refl _⟩
    · rw [if_neg ht, hlen]
      obtain ⟨k₀, hk₀⟩ := hsel
      have hlt : selected < front.length := (List.getElem?_eq_some_iff.1 hk₀).1
      refine ih hnext ⟨k₀, by rw [List.getElem?_append_left hlt, hk₀]⟩ fun j t' k'' hj => ?_
      rcases getElem?_concat_cases hj with hj | ⟨rfl, heq⟩
      · exact hmin j t' k'' hj
      · cases heq
        omega

theorem select_selected {ways : List (Way κ)} (h : ways ≠ []) (k : κ) : Selected k ways (select k ways) := by
  obtain ⟨w, rest, rfl⟩ := List.exists_cons_of_ne_nil h
  have hbefore : ∀ j < 0, ∀ w', (w :: rest)[j]? = some w' → ¬ w'.Stops k := fun j hj => absurd hj (Nat.not_lt_zero j)
  rcases w with _ | ⟨t, k'⟩
  · exact .inl ⟨none, rfl, .inl rfl, hbefore⟩
  by_cases hk : k' = k
  · have hsel : select k (some (t, k') :: rest) = 0 := if_pos hk
    rw [hsel]
    exact .inl ⟨_, rfl, .inr ⟨t, by rw [hk]⟩, hbefore⟩
  · have hsel : select k (some (t, k') :: rest) = selectFrom k rest 1 0 t := by
      show (if k' = k then 0 else if t < t then _ else _) = _
      rw [if_neg hk, if_neg (Nat.lt_irrefl t)]
      rfl
    rw [hsel]
    show Selected k ([some (t, k')] ++ rest) (selectFrom k rest [some (t, k')].length 0 t)
    refine selectFrom_selected ?_ ⟨k', rfl⟩ ?_
    · intro w hw
      obtain rfl := List.mem_singleton.1 hw
      exact Way.not_stops hk t
    · intro j t' k'' hj
      rw [List.getElem?_singleton] at hj
      split_ifs at hj with h0
      cases hj
      exact .inr ⟨rfl, Nat.zero_le _⟩

theorem select_lt {ways : List (Way κ)} (h : ways ≠ []) (k : κ) : select k ways < ways.length := by
  rcases select_selected h k with ⟨_, hw, -⟩ | ⟨-, _, _, hw, -⟩ <;> exact (List.getElem?_eq_some_iff.1 hw).1

end Select

/-! ### The log -/

section Log
variable [DecidableEq κ] {log : List (ℕ × κ)} {k k' : κ}

theorem latest_cons_self (t : ℕ) : latest ((t, k) :: log) k = some (t, k) := by
  rw [latest, List.find?_cons_of_pos (by simp)]

theorem latest_cons_of_ne (t : ℕ) (h : k ≠ k') : latest ((t, k) :: log) k' = latest log k' := by
  rw [latest, List.find?_cons_of_neg (by simpa using h), latest]

theorem newerKeys_cons_of_ne (t : ℕ) (h : k ≠ k') : newerKeys ((t, k) :: log) k' = insert k (newerKeys log k') := by
  rw [newerKeys, List.takeWhile_cons_of_pos (by simpa using h), List.map_cons, List.toFinset_cons, newerKeys]

theorem mem_newerKeys_or {r r' : ℕ × κ} (h : latest log k = some r) (h' : latest log k' = some r') (hne : k ≠ k') :
    k' ∈ newerKeys log k ∨ k ∈ newerKeys log k' := by
  induction log with
  | nil => cases h
  | cons x log ih =>
    obtain ⟨t, k₀⟩ := x
    by_cases hk : k₀ = k
    · obtain rfl := hk
      rw [newerKeys_cons_of_ne t hne]
      exact .inr (Finset.mem_insert_self ..)
    by_cases hk' : k₀ = k'
    · obtain rfl := hk'
      rw [newerKeys_cons_of_ne t hk]
      exact .inl (Finset.mem_insert_self ..)
    rw [latest_cons_of_ne t hk] at h
    rw [latest_cons_of_ne t hk'] at h'
    rw [newerKeys_cons_of_ne t hk, newerKeys_cons_of_ne t hk']
    exact (ih h h').imp (Finset.mem_insert_of_mem) (Finset.mem_insert_of_mem)

theorem latest_append {recent older : List (ℕ × κ)} {t : ℕ}
    (hsorted : (recent ++ (t, k) :: older).Pairwise fun a b => b.1 ≤ a.1) :
    ∃ t', latest (recent ++ (t, k) :: older) k = some (t', k) ∧ t ≤ t' := by
  rw [latest, List.find?_append]
  cases hfind : recent.find? fun r => r.2 = k with
  | none => exact ⟨t, latest_cons_self t, Nat.le_refl t⟩
  | some r =>
    obtain ⟨t', k'⟩ := r
    obtain rfl : k' = k := by simpa using List.find?_some hfind
    obtain ⟨-, -, hle⟩ := List.pairwise_append.1 hsorted
    exact ⟨t', rfl, hle _ (List.mem_of_find?_eq_some hfind) _ (List.mem_cons_self ..)⟩

theorem newerKeys_append_subset (recent older : List (ℕ × κ)) (t : ℕ) :
    newerKeys (recent ++ (t, k) :: older) k ⊆ (recent.map Prod.snd).toFinset.erase k := by
  induction recent with
  | nil => simp [newerKeys]
  | cons x recent ih =>
    obtain ⟨t₀, k₀⟩ := x
    by_cases hk : k₀ = k
    · simp [newerKeys, hk]
    · rw [List.cons_append, newerKeys_cons_of_ne t₀ hk, List.map_cons, List.toFinset_cons, Finset.erase_insert_of_ne hk]
      exact Finset.insert_subset_insert k₀ ih

end Log

/-! ### The invariant -/

variable [DecidableEq κ]

/-- What the ways have to do with the log. -/
structure Keeps (ttl now : ℕ) (ways : List (Way κ)) (log : List (ℕ × κ)) : Prop where
  sorted : log.Pairwise fun a b => b.1 ≤ a.1
  log_le : ∀ r ∈ log, r.1 ≤ now
  live : ∀ {i t : ℕ} {k : κ}, ways[i]? = some (some (t, k)) → latest log k = some (t, k) ∧ now < t + ttl
  distinct : ∀ {i j t t' : ℕ} {k : κ}, ways[i]? = some (some (t, k)) → ways[j]? = some (some (t', k)) → i = j
  /-- Older records stand in front of newer ones, by time and then by place. -/
  order : ∀ {i j t t' : ℕ} {k k' : κ}, ways[i]? = some (some (t, k)) → ways[j]? = some (some (t', k')) →
    k' ∈ newerKeys log k → t < t' ∨ t = t' ∧ i < j
  /-- What is recorded now goes behind no free way. -/
  packed : ∀ {j : ℕ} {k : κ}, ways[j]? = some (some (now, k)) → ∀ i < j, ways[i]? ≠ some none
  kept : ∀ {t : ℕ} {k : κ}, latest log k = some (t, k) → now < t + ttl →
    (∃ i : ℕ, ways[i]? = some (some (t, k))) ∨ ways.length ≤ (newerKeys log k).card

/-- A record that does not upset the order: no free way stands in front of the key's own, and where the record does not
take a free way, no other key has been recorded at the same time. -/
structure Orderly (now : ℕ) (k : κ) (ways : List (Way κ)) : Prop where
  inFront : ∀ {i j t : ℕ}, ways[j]? = some (some (t, k)) → i < j → ways[i]? ≠ some none
  alone : (none ∈ ways ∧ ∀ t, some (t, k) ∉ ways) ∨ ∀ k', some (now, k') ∈ ways → k' = k

namespace Keeps
variable {ttl now : ℕ} {ways : List (Way κ)} {log : List (ℕ × κ)} {k k' : κ} {i w t : ℕ}

theorem empty (ttl now n : ℕ) : Keeps ttl now (List.replicate n (none : Way κ)) [] := by
  have hfree (i : ℕ) (x : ℕ × κ) : (List.replicate n (none : Way κ))[i]? ≠ some (some x) := by
    intro h
    cases List.eq_of_mem_replicate (List.mem_of_getElem? h)
  exact ⟨.nil, nofun, fun h => absurd h (hfree _ _), fun h => absurd h (hfree _ _), fun h => absurd h (hfree _ _),
    fun h => absurd h (hfree _ _), nofun⟩

theorem le_now (h : Keeps ttl now ways log) (hi : ways[i]? = some (some (t, k))) : t ≤ now :=
  h.log_le _ (List.mem_of_find?_eq_some (h.live hi).1)

theorem eq_selected (h : Keeps ttl now ways log) (ho : Orderly now k ways) (hs : Selected k ways w)
    (hi : ways[i]? = some (some (t, k))) : i = w := by
  rcases hs with ⟨w₀, hw, hstops, hbefore⟩ | ⟨hnone, -⟩
  · rcases Nat.lt_trichotomy i w with hlt | heq | hgt
    · exact absurd (.inr ⟨t, rfl⟩) (hbefore i hlt _ hi)
    · exact heq
    · rcases hstops with rfl | ⟨t', rfl⟩
      · exact absurd hw (ho.inFront hi hgt)
      · exact h.distinct hi hw
  · exact absurd (.inr ⟨t, rfl⟩) (hnone _ (List.mem_of_getElem? hi))

theorem before_selected (h : Keeps ttl now ways log) (ho : Orderly now k ways) (hs : Selected k ways w)
    (hi : ways[i]? = some (some (t, k'))) (hne : i ≠ w) : t < now ∨ t = now ∧ i < w := by
  rcases Nat.lt_or_eq_of_le (h.le_now hi) with hlt | rfl
  · exact .inl hlt
  refine .inr ⟨rfl, ?_⟩
  have hk : k' ≠ k := by
    rintro rfl
    exact hne (h.eq_selected ho hs hi)
  -- another key was recorded at this very time, so the record takes a free way
  have hfree : none ∈ ways ∧ ∀ t, some (t, k) ∉ ways := by
    rcases ho.alone with hfree | halone
    · exact hfree
    · exact absurd (halone k' (List.mem_of_getElem? hi)) hk
  rcases hs with ⟨w₀, hw, hstops, -⟩ | ⟨hnone, -⟩
  · rcases hstops with rfl | ⟨t', rfl⟩
    · by_contra hge
      exact h.packed hi w (by omega) hw
    · exact absurd (List.mem_of_getElem? hw) (hfree.2 t')
  · exact absurd (.inl rfl) (hnone none hfree.1)

theorem card_newerKeys (h : Keeps ttl now ways log) (hnone : ∀ w ∈ ways, ¬ Way.Stops k w)
    (hw : ways[w]? = some (some (t, k')))
    (hmin : ∀ j t' k'', ways[j]? = some (some (t', k'')) → t < t' ∨ t = t' ∧ w ≤ j) :
    ways.length ≤ (insert k (newerKeys log k')).card := by
  have hfull : ∀ i < ways.length, ∃ t' k'', ways[i]? = some (some (t', k'')) ∧ k'' ≠ k := by
    intro i hi
    have hget := List.getElem?_eq_getElem hi
    rcases hway : ways[i] with _ | ⟨t', k''⟩
    · exact absurd (.inl hway) (hnone _ (List.getElem_mem hi))
    · refine ⟨t', k'', by rw [hget, hway], ?_⟩
      rintro rfl
      exact hnone _ (List.getElem_mem hi) (.inr ⟨t', hway⟩)
  have : Inhabited κ := ⟨k⟩
  choose! time key hkey using hfull
  rw [← Finset.card_range ways.length]
  refine Finset.card_le_card_of_injOn (fun i => if i = w then k else key i) ?_ ?_
  · intro i hi
    have hi := Finset.mem_range.1 hi
    obtain ⟨hget, hne⟩ := hkey i hi
    by_cases hiw : i = w
    · simp [hiw]
    · have hk' : k' ≠ key i := by
        intro heq
        rw [← heq] at hget
        exact hiw (h.distinct hget hw)
      simp only [if_neg hiw]
      refine Finset.mem_insert_of_mem ?_
      rcases mem_newerKeys_or (h.live hw).1 (h.live hget).1 hk' with hmem | hmem
      · exact hmem
      · -- the key of the replaced way is not the newer one
        have hlt := h.order hget hw hmem
        have hle := hmin i _ _ hget
        omega
  · intro i hi j hj heq
    obtain ⟨hgeti, hnei⟩ := hkey i (Finset.mem_range.1 hi)
    obtain ⟨hgetj, hnej⟩ := hkey j (Finset.mem_range.1 hj)
    dsimp only at heq
    by_cases hiw : i = w <;> by_cases hjw : j = w
    · rw [hiw, hjw]
    · rw [if_pos hiw, if_neg hjw] at heq
      exact absurd heq.symm hnej
    · rw [if_neg hiw, if_pos hjw] at heq
      exact absurd heq hnei
    · rw [if_neg hiw, if_neg hjw] at heq
      rw [← heq] at hgetj
      exact h.distinct hgeti hgetj

theorem recordWay_getElem? (hw : select k ways < ways.length) {x : ℕ × κ} :
    (recordWay now k ways)[i]? = some (some x) ↔
      i = select k ways ∧ x = (now, k) ∨ i ≠ select k ways ∧ ways[i]? = some (some x) := by
  rw [recordWay, List.getElem?_set]
  by_cases hi : select k ways = i
  · subst hi
    rw [if_pos rfl, if_pos hw]
    simp [eq_comm]
  · rw [if_neg hi]
    simp [Ne.symm hi]

theorem recordWay_free (h : (recordWay now k ways)[i]? = some none) : ways[i]? = some none := by
  rw [recordWay, List.getElem?_set] at h
  split_ifs at h
  · cases h
  · exact h

/-- A record leaves every other key where it is, or all ways have newer keys. -/
theorem kept_record (h : Keeps ttl now ways log) (hne : ways ≠ []) (hk : k ≠ k') (hlast : latest log k' = some (t, k'))
    (hlive : now < t + ttl) :
    (∃ i : ℕ, (recordWay now k ways)[i]? = some (some (t, k'))) ∨ ways.length ≤ (insert k (newerKeys log k')).card := by
  have hw := select_lt hne k
  rcases h.kept hlast hlive with ⟨i, hi⟩ | hcard
  · by_cases hiw : i = select k ways
    · -- the key is replaced
      subst hiw
      rcases select_selected hne k with ⟨w₀, hsel, hstops, -⟩ | ⟨hnone, t₀, k₀, hsel, hmin⟩
      · obtain rfl := Option.some.inj (hsel.symm.trans hi)
        exact absurd hstops (Way.not_stops hk.symm t)
      · cases hsel.symm.trans hi
        exact .inr (h.card_newerKeys hnone hi hmin)
    · exact .inl ⟨i, (recordWay_getElem? hw).2 (.inr ⟨hiw, hi⟩)⟩
  · exact .inr (hcard.trans (Finset.card_le_card (Finset.subset_insert ..)))

theorem record (h : Keeps ttl now ways log) (hne : ways ≠ []) (httl : 0 < ttl) (ho : Orderly now k ways) :
    Keeps ttl now (recordWay now k ways) ((now, k) :: log) := by
  have hs := select_selected hne k
  have hw := select_lt hne k
  have hother {i t : ℕ} {k' : κ} (hi : ways[i]? = some (some (t, k'))) (hiw : i ≠ select k ways) : k ≠ k' := by
    rintro rfl
    exact hiw (h.eq_selected ho hs hi)
  refine ⟨?_, ?_, ?_, ?_, ?_, ?_, ?_⟩
  · exact List.pairwise_cons.2 ⟨h.log_le, h.sorted⟩
  · exact List.forall_mem_cons.2 ⟨Nat.le_refl _, h.log_le⟩
  · intro i t k' hi
    rcases (recordWay_getElem? hw).1 hi with ⟨-, hx⟩ | ⟨hiw, hi⟩
    · cases hx
      exact ⟨latest_cons_self now, by omega⟩
    · rw [latest_cons_of_ne now (hother hi hiw)]
      exact h.live hi
  · intro i j t t' k' hi hj
    rcases (recordWay_getElem? hw).1 hi with ⟨rfl, hx⟩ | ⟨hiw, hi⟩ <;>
      rcases (recordWay_getElem? hw).1 hj with ⟨rfl, hy⟩ | ⟨hjw, hj⟩
    · rfl
    · cases hx
      exact absurd rfl (hother hj hjw)
    · cases hy
      exact absurd rfl (hother hi hiw)
    · exact h.distinct hi hj
  · intro i j t t' k₁ k₂ hi hj hnewer
    rcases (recordWay_getElem? hw).1 hi with ⟨rfl, hx⟩ | ⟨hiw, hi⟩
    · -- nothing is newer than the record
      cases hx
      simp [newerKeys] at hnewer
    rw [newerKeys_cons_of_ne now (hother hi hiw)] at hnewer
    rcases (recordWay_getElem? hw).1 hj with ⟨rfl, hy⟩ | ⟨hjw, hj⟩
    · cases hy
      exact h.before_selected ho hs hi hiw
    · exact h.order hi hj ((Finset.mem_insert.1 hnewer).resolve_left (hother hj hjw).symm)
  · intro j k' hj i hij hfree
    have hfree := recordWay_free hfree
    rcases (recordWay_getElem? hw).1 hj with ⟨rfl, -⟩ | ⟨-, hj⟩
    · rcases hs with ⟨_, -, -, hbefore⟩ | ⟨hnone, -⟩
      · exact hbefore i hij none hfree (.inl rfl)
      · exact hnone none (List.mem_of_getElem? hfree) (.inl rfl)
    · exact h.packed hj i hij hfree
  · intro t k' hlast hlive
    rw [recordWay, List.length_set, ← recordWay]
    by_cases hk : k = k'
    · subst hk
      rw [latest_cons_self] at hlast
      exact .inl ⟨_, (recordWay_getElem? hw).2 (.inl ⟨rfl, (Option.some.inj hlast).symm⟩)⟩
    rw [latest_cons_of_ne now hk] at hlast
    rw [newerKeys_cons_of_ne now hk]
    exact h.kept_record hne hk hlast hlive

omit [DecidableEq κ] in
theorem expireWays_getElem? {now' : ℕ} {x : ℕ × κ} :
    (expireWays ttl now' ways)[i]? = some (some x) ↔ ways[i]? = some (some x) ∧ now' < x.1 + ttl := by
  rw [expireWays, List.getElem?_map, Option.map_eq_some_iff]
  simp [Option.filter_eq_some_iff]

theorem expire (h : Keeps ttl now ways log) {now' : ℕ} (hle : now ≤ now') :
    Keeps ttl now' (expireWays ttl now' ways) log := by
  refine ⟨h.sorted, fun r hr => (h.log_le r hr).trans hle, ?_, ?_, ?_, ?_, ?_⟩
  · intro i t k hi
    obtain ⟨hi, hlive⟩ := expireWays_getElem?.1 hi
    exact ⟨(h.live hi).1, hlive⟩
  · intro i j t t' k hi hj
    exact h.distinct (expireWays_getElem?.1 hi).1 (expireWays_getElem?.1 hj).1
  · intro i j t t' k k' hi hj
    exact h.order (expireWays_getElem?.1 hi).1 (expireWays_getElem?.1 hj).1
  · intro j k hj i hij hfree
    obtain ⟨hj, -⟩ := expireWays_getElem?.1 hj
    obtain rfl : now = now' := Nat.le_antisymm hle (h.le_now hj)
    -- no time has passed, so nothing has expired
    rw [expireWays, List.getElem?_map, Option.map_eq_some_iff] at hfree
    obtain ⟨w, hw, hfilter⟩ := hfree
    rcases w with _ | ⟨t, k'⟩
    · exact h.packed hj i hij hw
    · rw [Option.filter_some, if_pos (decide_eq_true (h.live hw).2)] at hfilter
      cases hfilter
  · intro t k hlast hlive
    rw [expireWays, List.length_map, ← expireWays]
    rcases h.kept hlast (by omega) with ⟨i, hi⟩ | hcard
    · exact .inl ⟨i, expireWays_getElem?.2 ⟨hi, hlive⟩⟩
    · exact .inr hcard

/-- A key recorded within the lifetime is there, or as many others as there are ways have been recorded since. -/
theorem found (h : Keeps ttl now ways log) {recent older : List (ℕ × κ)} (hlog : log = recent ++ (t, k) :: older)
    (hlive : now < t + ttl) :
    (∃ (i t' : ℕ), ways[i]? = some (some (t', k)) ∧ now < t' + ttl) ∨
      ways.length ≤ ((recent.map Prod.snd).toFinset.erase k).card := by
  -- the last record of the key is this one or a later one
  subst hlog
  obtain ⟨t', hlast, hle⟩ := latest_append h.sorted
  rcases h.kept hlast (by omega) with ⟨i, hi⟩ | hcard
  · exact .inl ⟨i, t', hi, by omega⟩
  · exact .inr (hcard.trans (Finset.card_le_card (newerKeys_append_subset recent older t)))

end Keeps

end VpnHide
