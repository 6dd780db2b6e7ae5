import Mathlib.Data.List.DropRight
import Mathlib.Data.List.Induction
import Mathlib.Order.Basic

/-!
# Words, and scanning a text from its end

The words of a text are its runs free of breaks. The last one that has more than bytes to be skipped is the one around
the last byte that is neither skipped nor a break (`lastWordBut_eq`). A loop that steps back over a text by an index,
which may become negative but is not used then, finds where it starts (`scanBack_eq`).
-/

namespace VpnHide

variable {α : Type}

/-- The maximal runs without a break. -/
def words (brk : α → Bool) (text : List α) : List (List α) := (text.splitOnP brk).filter fun word => !word.isEmpty

/-- The last word of a text, or nothing. -/
def lastWord (brk : α → Bool) (text : List α) : List α := (words brk text).getLast?.getD []

section Words
variable {brk : α → Bool}

theorem words_append_break {c : α} (hc : brk c) (xs ys : List α) :
    words brk (xs ++ c :: ys) = words brk xs ++ words brk ys := by
  rw [words, List.splitOnP_append_cons _ _ hc, List.filter_append]
  rfl

theorem words_of_run {run : List α} (hne : run ≠ []) (h : ∀ c ∈ run, brk c = false) : words brk run = [run] := by
  rw [words, List.splitOnP_eq_singleton h]
  simp [hne]

theorem words_append_run {front run rest : List α} (hne : run ≠ []) (hrun : ∀ c ∈ run, brk c = false)
    (hfront : ∀ c, front.getLast? = some c → brk c) (hrest : ∀ c, rest.head? = some c → brk c) :
    words brk (front ++ run ++ rest) = words brk front ++ run :: words brk rest := by
  have hback : words brk (run ++ rest) = run :: words brk rest := by
    cases rest with
    | nil =>
      rw [List.append_nil, words_of_run hne hrun]
      rfl
    | cons c rest =>
      have hskip : words brk (c :: rest) = words brk rest := words_append_break (hrest c rfl) [] rest
      rw [words_append_break (hrest c rfl), words_of_run hne hrun, hskip]
      rfl
  rcases List.eq_nil_or_concat front with rfl | ⟨front, c, rfl⟩
  · exact hback
  · have hc : brk c := hfront c (by simp)
    have hskip : words brk (front ++ [c]) = words brk front := by
      rw [words_append_break hc]
      exact List.append_nil _
    rw [List.concat_eq_append, hskip, List.append_assoc, List.append_assoc, List.singleton_append,
      words_append_break hc, hback]

theorem mem_splitOnP {text word : List α} (h : word ∈ text.splitOnP brk) : ∀ c ∈ word, c ∈ text ∧ brk c = false := by
  induction text generalizing word with
  | nil =>
    rw [List.splitOnP_nil, List.mem_singleton] at h
    simp [h]
  | cons x text ih =>
    rw [List.splitOnP_cons_eq_if_modifyHead] at h
    split_ifs at h with hx
    · rcases List.mem_cons.1 h with rfl | h
      · exact fun c hc => absurd hc List.not_mem_nil
      · exact fun c hc => (ih h c hc).imp_left (List.mem_cons_of_mem x)
    · cases hruns : text.splitOnP brk with
      | nil => exact absurd hruns (List.splitOnP_ne_nil _ _)
      | cons run runs =>
        rw [hruns, List.modifyHead_cons] at h
        rw [hruns] at ih
        intro c hc
        rcases List.mem_cons.1 h with rfl | h
        · rcases List.mem_cons.1 hc with rfl | hc
          · exact ⟨List.mem_cons_self, by simpa using hx⟩
          · exact (ih List.mem_cons_self c hc).imp_left (List.mem_cons_of_mem x)
        · exact (ih (List.mem_cons_of_mem _ h) c hc).imp_left (List.mem_cons_of_mem x)

theorem mem_words {text word : List α} (h : word ∈ words brk text) :
    word ≠ [] ∧ ∀ c ∈ word, c ∈ text ∧ brk c = false := by
  obtain ⟨hmem, hne⟩ := List.mem_filter.1 h
  exact ⟨by simpa using hne, mem_splitOnP hmem⟩

/-! ### The last word that counts -/

/-- Not all of its bytes are skipped. -/
def counts (skip : α → Bool) (word : List α) : Bool := word.any fun c => !skip c

/-- The last word that counts; without one, what the text begins with. -/
def lastWordBut (brk skip : α → Bool) (text : List α) : List α :=
  ((words brk text).filter (counts skip)).getLast?.getD (text.takeWhile fun c => !brk c)

variable {skip : α → Bool} {text : List α}

theorem filter_words_eq_nil (h : ∀ c ∈ text, brk c || skip c) :
    (words brk text).filter (counts skip) = [] := by
  rw [List.filter_eq_nil_iff]
  intro word hword hany
  obtain ⟨c, hc, hskip⟩ := List.any_eq_true.1 hany
  obtain ⟨hmem, hbrk⟩ := (mem_words hword).2 c hc
  have hboth := h c hmem
  rw [hbrk, Bool.false_or] at hboth
  simp [hboth] at hskip

theorem brk_of_head_dropWhile {c : α} (h : (text.dropWhile fun c => !brk c).head? = some c) : brk c := by
  have hnot := text.head?_dropWhile_not fun c => !brk c
  rw [h] at hnot
  simpa using hnot

theorem brk_of_last_rdropWhile {c : α} (h : (text.rdropWhile fun c => !brk c).getLast? = some c) : brk c := by
  have hne : (text.rdropWhile fun c => !brk c) ≠ [] := by
    intro hnil
    rw [hnil] at h
    cases h
  have hnot := List.rdropWhile_last_not (fun c => !brk c) text hne
  rw [List.getLast?_eq_some_getLast hne, Option.some.injEq] at h
  simpa [h] using hnot

theorem getLast_mem_rtakeWhile (hne : text ≠ []) (hbrk : brk (text.getLast hne) = false) :
    text.getLast hne ∈ text.rtakeWhile fun c => !brk c := by
  obtain ⟨init, hinit⟩ : ∃ init, text = init ++ [text.getLast hne] := ⟨_, (List.dropLast_append_getLast hne).symm⟩
  generalize text.getLast hne = c at hinit hbrk
  rw [hinit, List.rtakeWhile_concat_pos _ _ _ (by simp [hbrk])]
  exact List.mem_append_right _ (List.mem_singleton_self c)

/-- It is the word around the last byte that is neither a break nor skipped. -/
theorem lastWordBut_eq (brk skip : α → Bool) (text : List α) :
    lastWordBut brk skip text = ((text.rdropWhile fun c => brk c || skip c).rtakeWhile fun c => !brk c) ++
      (text.rtakeWhile fun c => brk c || skip c).takeWhile fun c => !brk c := by
  have hsplit := List.rdropWhile_append_rtakeWhile (p := fun c => brk c || skip c) (l := text)
  have htail : ∀ c ∈ text.rtakeWhile fun c => brk c || skip c, (brk c || skip c) = true := fun c hc =>
    List.mem_rtakeWhile_imp (p := fun c => brk c || skip c) hc
  have hlast := List.rdropWhile_last_not (fun c => brk c || skip c) text
  generalize (text.rdropWhile fun c => brk c || skip c) = body at hsplit hlast ⊢
  generalize (text.rtakeWhile fun c => brk c || skip c) = tail at hsplit htail ⊢
  subst hsplit
  by_cases hbody : body = []
  · subst hbody
    rw [lastWordBut, List.nil_append, filter_words_eq_nil htail]
    rfl
  -- the word begins behind the last break of `body` and goes on into what is skipped
  obtain ⟨hbrk, hskip⟩ : brk (body.getLast hbody) = false ∧ skip (body.getLast hbody) = false := by
    simpa using hlast hbody
  have hmem := getLast_mem_rtakeWhile hbody hbrk
  have hfront := List.rdropWhile_append_rtakeWhile (p := fun c => !brk c) (l := body)
  have hback := List.takeWhile_append_dropWhile (p := fun c => !brk c) (l := tail)
  have hwords : words brk ((body.rdropWhile fun c => !brk c) ++
      ((body.rtakeWhile fun c => !brk c) ++ tail.takeWhile fun c => !brk c) ++ tail.dropWhile fun c => !brk c) = _ :=
    words_append_run (by simp [List.ne_nil_of_mem hmem]) ?_ (fun c => brk_of_last_rdropWhile)
      fun c => brk_of_head_dropWhile
  · rw [List.append_assoc, List.append_assoc, hback, ← List.append_assoc, hfront] at hwords
    have hcount : counts skip ((body.rtakeWhile fun c => !brk c) ++ tail.takeWhile fun c => !brk c) :=
      List.any_eq_true.2 ⟨_, List.mem_append_left _ hmem, by simp [hskip]⟩
    have hrest : (words brk (tail.dropWhile fun c => !brk c)).filter (counts skip) = [] :=
      filter_words_eq_nil fun c hc => htail c ((List.dropWhile_suffix _).subset hc)
    rw [lastWordBut, hwords, List.filter_append, List.filter_cons_of_pos hcount, hrest, List.getLast?_concat]
    rfl
  · intro c hc
    rcases List.mem_append.1 hc with hc | hc
    · simpa using List.mem_rtakeWhile_imp hc
    · simpa using List.mem_takeWhile_imp hc

theorem takeWhile_eq_nil_of_words (h : words brk text = []) : (text.takeWhile fun c => !brk c) = [] := by
  by_contra hne
  have hwords : words brk ([] ++ (text.takeWhile fun c => !brk c) ++ text.dropWhile fun c => !brk c) = _ :=
    words_append_run hne (fun c hc => by simpa using List.mem_takeWhile_imp hc) (fun c hc => by cases hc)
      fun c => brk_of_head_dropWhile
  rw [List.nil_append, List.takeWhile_append_dropWhile, h] at hwords
  cases hwords

theorem lastWordBut_eq_lastWord (h : lastWord brk text = [] ∨ ∃ c ∈ lastWord brk text, ¬ skip c) :
    lastWordBut brk skip text = lastWord brk text := by
  rcases List.eq_nil_or_concat (words brk text) with hnil | ⟨init, word, hwords⟩
  · rw [lastWordBut, lastWord, hnil, takeWhile_eq_nil_of_words hnil]
    rfl
  · rw [List.concat_eq_append] at hwords
    have hword : lastWord brk text = word := by
      rw [lastWord, hwords, List.getLast?_concat]
      rfl
    have hmem : word ∈ words brk text := by
      rw [hwords]
      exact List.mem_append_right _ (List.mem_singleton_self word)
    rw [hword] at h ⊢
    obtain ⟨c, hc, hskip⟩ := h.resolve_left (mem_words hmem).1
    have hcount : counts skip word := List.any_eq_true.2 ⟨c, hc, by simpa using hskip⟩
    rw [lastWordBut, hwords, List.filter_append, List.filter_cons_of_pos hcount, List.filter_nil, List.getLast?_concat]
    rfl

end Words

theorem rdropWhile_congr {p q : α → Bool} {xs : List α} (h : ∀ x ∈ xs, p x = q x) :
    xs.rdropWhile p = xs.rdropWhile q := by
  induction xs using List.reverseRecOn with
  | nil => rfl
  | append_singleton xs x ih =>
    rw [List.rdropWhile_concat, List.rdropWhile_concat, h x (by simp), ih fun y hy => h y (List.mem_append_left _ hy)]

theorem rtakeWhile_congr {p q : α → Bool} {xs : List α} (h : ∀ x ∈ xs, p x = q x) :
    xs.rtakeWhile p = xs.rtakeWhile q := by
  have hp := List.rdropWhile_append_rtakeWhile (p := p) (l := xs)
  have hq := List.rdropWhile_append_rtakeWhile (p := q) (l := xs)
  rw [rdropWhile_congr h] at hp
  exact List.append_cancel_left (hp.trans hq.symm)

/-! ### Stepping back -/

/-- The byte at an index; there is none in front of the text. -/
def readAt (xs : List α) (p : ℤ) : Option α := if p < 0 then none else xs[p.toNat]?

/-- The loop that steps back from `p` while the byte there, and the number of steps made, satisfy `go`. -/
def scanBack (go : ℕ → α → Bool) (xs : List α) : ℕ → ℤ → ℕ → Option ℤ
  | 0, _, _ => none
  | fuel + 1, p, j =>
    if 0 ≤ p then
      match readAt xs p with
      | none => none
      | some c => if go j c then scanBack go xs fuel (p - 1) (j + 1) else some p
    else some p

theorem readAt_append (front rest : List α) (c : α) : readAt (front ++ c :: rest) front.length = some c := by
  rw [readAt, if_neg (by omega), Int.toNat_natCast, List.getElem?_append_right (Nat.le_refl _), Nat.sub_self]
  rfl

/-- If nothing but the bytes decides as far as the loop goes, it stops in front of the longest run at the end. -/
theorem scanBack_eq (go : ℕ → α → Bool) {q : α → Bool} {front : List α} {fuel j : ℕ}
    (hgo : ∀ i < (front.rtakeWhile q).length, ∀ c, q c → go (j + i) c) (hstop : ∀ i c, ¬ q c → ¬ go i c)
    (hfuel : front.length < fuel) (rest : List α) :
    scanBack go (front ++ rest) fuel (front.length - 1) j = some ((front.rdropWhile q).length - 1 : ℤ) := by
  induction front using List.reverseRecOn generalizing fuel j rest with
  | nil =>
    obtain ⟨fuel, rfl⟩ : ∃ n, fuel = n + 1 := ⟨fuel - 1, by omega⟩
    rfl
  | append_singleton front c ih =>
    obtain ⟨fuel, rfl⟩ : ∃ n, fuel = n + 1 := ⟨fuel - 1, by omega⟩
    have hp : ((front ++ [c]).length : ℤ) - 1 = front.length := by
      rw [List.length_append, List.length_singleton]
      omega
    rw [List.length_append, List.length_singleton] at hfuel
    rw [hp, List.append_assoc, List.singleton_append, scanBack, if_pos (by omega), readAt_append]
    dsimp only
    by_cases hc : q c
    · rw [List.rtakeWhile_concat_pos _ _ _ hc, List.length_append, List.length_singleton] at hgo
      have hfirst := hgo 0 (by omega) c hc
      rw [if_pos (by simpa using hfirst), List.rdropWhile_concat_pos _ _ _ hc]
      refine ih (fun i hi b hb => ?_) (by omega) (c :: rest)
      rw [Nat.add_assoc, Nat.add_comm 1]
      exact hgo (i + 1) (by omega) b hb
    · rw [if_neg (hstop j c hc), List.rdropWhile_concat_neg _ _ _ hc, hp]

end VpnHide
