import Mathlib.Logic.Function.Iterate
import Mathlib.Order.Basic
import VpnHide.Lib.Tiles

/-!
# Filtering lines in place

A buffer is cut into lines, each with its separator, and the lines that are not dropped are moved to the front one after
the other. A check may give no answer for a line, and then the loop gives none (`filterFrom_decides`). If all lines are
decided, the lines that stay are exactly those not dropped, in order (`filterFrom_eq`).
-/

namespace VpnHide

variable {α σ : Type} [DecidableEq α]

/-- The lines of a text, each with its separator; the last one may have none. -/
def splitLines (sep : α) : List α → List (List α)
  | [] => []
  | x :: xs => if x = sep then [x] :: splitLines sep xs
    else match splitLines sep xs with
      | [] => [[x]]
      | line :: lines => (x :: line) :: lines

/-- The length of the first line. -/
def lineLength (sep : α) : List α → ℕ
  | [] => 0
  | x :: xs => if x = sep then 1 else lineLength sep xs + 1

def memmove (buf : List α) (dst src n : ℕ) : List α := buf.take dst ++ slice buf src n ++ buf.drop (dst + n)

/-- The loop over the lines between `src` and `stop`, with an action for each line that is dropped. -/
def filterLoop (sep : α) (check : List α → Option Bool) (onDrop : σ → σ) (stop : ℕ) :
    ℕ → List α → ℕ → ℕ → σ → Option (List α × ℕ × σ)
  | 0, _, _, _, _ => none
  | fuel + 1, buf, src, dst, s =>
    if src < stop then
      let len := lineLength sep (slice buf src (stop - src))
      match check (slice buf src len) with
      | none => none
      | some true => filterLoop sep check onDrop stop fuel buf (src + len) dst (onDrop s)
      | some false =>
        let moved := if dst ≠ src then memmove buf dst src len else buf
        filterLoop sep check onDrop stop fuel moved (src + len) (dst + len) s
    else some (buf, dst, s)

/-! ### Lines -/

section Lines
variable {sep : α} {xs : List α}

theorem lineLength_le (sep : α) (xs : List α) : lineLength sep xs ≤ xs.length := by
  induction xs with
  | nil => exact Nat.le_refl 0
  | cons x xs ih =>
    rw [lineLength, List.length_cons]
    split_ifs <;> omega

theorem lineLength_pos (sep : α) (h : xs ≠ []) : 0 < lineLength sep xs := by
  obtain ⟨x, xs, rfl⟩ := List.exists_cons_of_ne_nil h
  rw [lineLength]
  split_ifs <;> omega

theorem splitLines_eq_cons (sep : α) (h : xs ≠ []) :
    splitLines sep xs = xs.take (lineLength sep xs) :: splitLines sep (xs.drop (lineLength sep xs)) := by
  induction xs with
  | nil => exact absurd rfl h
  | cons x xs ih =>
    rw [splitLines, lineLength]
    by_cases hx : x = sep
    · simp [hx]
    rw [if_neg hx, if_neg hx, List.take_succ_cons, List.drop_succ_cons]
    by_cases hxs : xs = []
    · subst hxs
      rfl
    · rw [ih hxs]

theorem flatten_splitLines (sep : α) (xs : List α) : (splitLines sep xs).flatten = xs := by
  induction xs with
  | nil => rfl
  | cons x xs ih =>
    rw [splitLines]
    by_cases hx : x = sep
    · rw [if_pos hx, List.flatten_cons, ih]
      rfl
    · rw [if_neg hx]
      cases hlines : splitLines sep xs with
      | nil =>
        rw [hlines] at ih
        rw [← ih]
        rfl
      | cons line lines =>
        rw [hlines] at ih
        rw [← ih]
        rfl

theorem length_splitLines_le (sep : α) (xs : List α) : (splitLines sep xs).length ≤ xs.length := by
  induction xs with
  | nil => exact Nat.le_refl 0
  | cons x xs ih =>
    rw [splitLines]
    split_ifs
    · exact Nat.succ_le_succ ih
    · cases hlines : splitLines sep xs with
      | nil => exact Nat.succ_le_succ (Nat.zero_le _)
      | cons line lines =>
        rw [hlines] at ih
        exact Nat.le_succ_of_le ih

theorem splitLines_shape {line : List α} (h : line ∈ splitLines sep xs) :
    ∃ text, sep ∉ text ∧ (line = text ∨ line = text ++ [sep]) := by
  induction xs generalizing line with
  | nil => cases h
  | cons x xs ih =>
    rw [splitLines] at h
    by_cases hx : x = sep
    · rw [if_pos hx] at h
      rcases List.mem_cons.1 h with rfl | h
      · exact ⟨[], List.not_mem_nil, .inr (by rw [hx]; rfl)⟩
      · exact ih h
    · rw [if_neg hx] at h
      cases hlines : splitLines sep xs with
      | nil =>
        rw [hlines] at h
        rw [List.mem_singleton.1 h]
        exact ⟨[x], by simpa using Ne.symm hx, .inl rfl⟩
      | cons first rest =>
        rw [hlines] at h ih
        rcases List.mem_cons.1 h with rfl | h
        · obtain ⟨text, htext, hfirst⟩ := ih List.mem_cons_self
          refine ⟨x :: text, by simpa [htext] using Ne.symm hx, ?_⟩
          exact hfirst.imp (congrArg (x :: ·)) (congrArg (x :: ·))
        · exact ih (List.mem_cons_of_mem _ h)

theorem splitLines_append {ys : List α} (h : xs ≠ []) (hsep : sep ∈ xs.take (lineLength sep xs)) :
    splitLines sep (xs.take (lineLength sep xs) ++ ys) = xs.take (lineLength sep xs) :: splitLines sep ys := by
  induction xs with
  | nil => exact absurd rfl h
  | cons x xs ih =>
    rw [lineLength] at hsep ⊢
    by_cases hx : x = sep
    · simp [hx, splitLines]
    rw [if_neg hx, List.take_succ_cons] at hsep ⊢
    have hmem := (List.mem_cons.1 hsep).resolve_left (Ne.symm hx)
    have hxs : xs ≠ [] := by
      rintro rfl
      cases hmem
    rw [List.cons_append, splitLines, if_neg hx, ih hxs hmem]

theorem lineLength_of_notMem (h : sep ∉ xs.take (lineLength sep xs)) : lineLength sep xs = xs.length := by
  induction xs with
  | nil => rfl
  | cons x xs ih =>
    rw [lineLength] at h ⊢
    by_cases hx : x = sep
    · simp [hx] at h
    · rw [if_neg hx, List.take_succ_cons] at h
      rw [if_neg hx, ih fun hmem => h (.tail _ hmem), List.length_cons]

theorem splitLines_flatten_filter (sep : α) (xs : List α) (p : List α → Bool) :
    splitLines sep ((splitLines sep xs).filter p).flatten = (splitLines sep xs).filter p := by
  -- the induction is on the lines
  induction hn : xs.length using Nat.strongRecOn generalizing xs with
  | ind n ih =>
    by_cases hxs : xs = []
    · subst hxs
      rfl
    have hpos := lineLength_pos sep hxs
    have hrest := ih (xs.drop (lineLength sep xs)).length
      (by have := List.length_pos_iff.2 hxs; rw [List.length_drop]; omega) _ rfl
    rw [splitLines_eq_cons sep hxs]
    by_cases hp : p (xs.take (lineLength sep xs))
    · rw [List.filter_cons_of_pos hp, List.flatten_cons]
      by_cases hsep : sep ∈ xs.take (lineLength sep xs)
      · rw [splitLines_append hxs hsep, hrest]
      · -- without a separator it is the last line
        have hlen := lineLength_of_notMem hsep
        rw [hlen, List.take_length, List.drop_length]
        show splitLines sep (xs ++ []) = [xs]
        rw [List.append_nil, splitLines_eq_cons sep hxs, hlen, List.take_length, List.drop_length]
        rfl
    · rw [List.filter_cons_of_neg hp]
      exact hrest

theorem eq_of_flatten_filter_eq {p q : List α → Bool}
    (h : ((splitLines sep xs).filter p).flatten = ((splitLines sep xs).filter q).flatten) :
    ∀ line ∈ splitLines sep xs, p line = q line := by
  have hlines := congrArg (splitLines sep) h
  rw [splitLines_flatten_filter, splitLines_flatten_filter] at hlines
  intro line hline
  have hmem : line ∈ (splitLines sep xs).filter p ↔ line ∈ (splitLines sep xs).filter q := by rw [hlines]
  rw [List.mem_filter, List.mem_filter] at hmem
  rw [Bool.eq_iff_iff]
  exact ⟨fun hp => (hmem.1 ⟨hline, hp⟩).2, fun hq => (hmem.2 ⟨hline, hq⟩).2⟩

end Lines

/-! ### The loop -/

omit [DecidableEq α] in
theorem memmove_eq (front gap line rest : List α) :
    memmove (front ++ gap ++ (line ++ rest)) front.length (front ++ gap).length line.length =
      front ++ line ++ (gap ++ line).drop line.length ++ rest := by
  have hline : slice (front ++ gap ++ (line ++ rest)) (front ++ gap).length line.length = line := by
    rw [slice, List.drop_left, List.take_left]
  have hdrop : (front ++ gap ++ (line ++ rest)).drop (front.length + line.length) =
      (gap ++ line).drop line.length ++ rest := by
    rw [List.append_assoc, ← List.drop_drop, List.drop_left, ← List.append_assoc, List.drop_append_of_le_length]
    rw [List.length_append]
    omega
  rw [memmove, hline, hdrop, List.append_assoc front gap, List.take_left]
  simp only [List.append_assoc]

section Loop
variable (sep : α) (check : List α → Option Bool) (onDrop : σ → σ)

/-- The loop when `front` has been kept, `gap` is free and `xs` is still to be read. -/
def filterFrom (fuel : ℕ) (front gap xs tail : List α) (s : σ) : Option (List α × ℕ × σ) :=
  filterLoop sep check onDrop (front ++ gap ++ xs).length fuel (front ++ gap ++ xs ++ tail)
    (front ++ gap).length front.length s

variable {sep check onDrop}

theorem filterFrom_nil (fuel : ℕ) (front gap tail : List α) (s : σ) :
    filterFrom sep check onDrop (fuel + 1) front gap [] tail s = some (front ++ gap ++ tail, front.length, s) := by
  rw [filterFrom, filterLoop, List.append_nil, if_neg (Nat.lt_irrefl _)]

omit [DecidableEq α] in
theorem moved_eq (front gap line rest : List α) :
    (if front.length ≠ (front ++ gap).length then
      memmove (front ++ gap ++ (line ++ rest)) front.length (front ++ gap).length line.length
    else front ++ gap ++ (line ++ rest)) = front ++ line ++ (gap ++ line).drop line.length ++ rest := by
  split_ifs with hne
  · exact memmove_eq front gap line rest
  · obtain rfl : gap = [] := by
      rw [not_not, List.length_append] at hne
      exact List.length_eq_zero_iff.1 (by omega)
    simp

theorem filterFrom_cons {xs : List α} (hxs : xs ≠ []) (fuel : ℕ) (front gap tail : List α) (s : σ) :
    filterFrom sep check onDrop (fuel + 1) front gap xs tail s =
      match check (xs.take (lineLength sep xs)) with
      | none => none
      | some true => filterFrom sep check onDrop fuel front (gap ++ xs.take (lineLength sep xs))
        (xs.drop (lineLength sep xs))
          tail (onDrop s)
      | some false => filterFrom sep check onDrop fuel (front ++ xs.take (lineLength sep xs))
          ((gap ++ xs.take (lineLength sep xs)).drop (lineLength sep xs)) (xs.drop (lineLength sep xs)) tail s := by
  obtain ⟨line, hline⟩ : ∃ line, xs.take (lineLength sep xs) = line := ⟨_, rfl⟩
  obtain ⟨more, hmore⟩ : ∃ more, xs.drop (lineLength sep xs) = more := ⟨_, rfl⟩
  have hsplit : xs = line ++ more := by rw [← hline, ← hmore, List.take_append_drop]
  have hlen : lineLength sep xs = line.length := by
    rw [← hline, List.length_take, Nat.min_eq_left (lineLength_le ..)]
  have hregion : slice (front ++ gap ++ xs ++ tail) (front ++ gap).length
      ((front ++ gap ++ xs).length - (front ++ gap).length) = xs := by
    have hlen : (front ++ gap ++ xs).length - (front ++ gap).length = xs.length := by
      rw [List.length_append, Nat.add_sub_cancel_left]
    rw [hlen, List.append_assoc (front ++ gap), slice, List.drop_left, List.take_left]
  have hfirst : slice (front ++ gap ++ xs ++ tail) (front ++ gap).length line.length = line := by
    rw [List.append_assoc (front ++ gap), slice, List.drop_left, hsplit, List.append_assoc, List.take_left]
  have hsrc : (front ++ gap).length < (front ++ gap ++ xs).length := by
    have hpos := List.length_pos_iff.2 hxs
    simp only [List.length_append]
    omega
  rw [filterFrom, filterLoop, if_pos hsrc]
  dsimp only
  rw [hregion, hline, hmore, hlen, hfirst]
  rcases check line with _ | _ | _
  · rfl
  · have hsrc' : (front ++ gap).length + line.length = (front ++ line ++ (gap ++ line).drop line.length).length := by
      simp only [List.length_append, List.length_drop]
      omega
    have hstop : (front ++ gap ++ xs).length = (front ++ line ++ (gap ++ line).drop line.length ++ more).length := by
      rw [hsplit]
      simp only [List.length_append, List.length_drop]
      omega
    have hmoved := moved_eq front gap line (more ++ tail)
    rw [← List.append_assoc line, ← hsplit, ← List.append_assoc _ xs, ← List.append_assoc _ more] at hmoved
    dsimp only
    rw [hmoved, hsrc', hstop, filterFrom, ← List.length_append]
  · dsimp only
    rw [filterFrom, hsplit]
    simp only [List.append_assoc, List.length_append, Nat.add_assoc]

/-- A loop that ends has taken a turn for every line and decided it. -/
theorem filterFrom_decides {fuel : ℕ} {front gap xs tail : List α} {s : σ} {r : List α × ℕ × σ}
    (h : filterFrom sep check onDrop fuel front gap xs tail s = some r) :
    (splitLines sep xs).length < fuel ∧ ∀ line ∈ splitLines sep xs, ∃ b, check line = some b := by
  induction fuel generalizing front gap xs s with
  | zero => cases h
  | succ fuel ih =>
    by_cases hxs : xs = []
    · subst hxs
      exact ⟨Nat.succ_pos fuel, by simp [splitLines]⟩
    rw [filterFrom_cons hxs] at h
    rw [splitLines_eq_cons sep hxs, List.forall_mem_cons, List.length_cons, Nat.succ_lt_succ_iff]
    cases hcheck : check (xs.take (lineLength sep xs)) with
    | none =>
      rw [hcheck] at h
      cases h
    | some b =>
      rw [hcheck] at h
      cases b
      · exact ⟨(ih h).1, ⟨false, rfl⟩, (ih h).2⟩
      · exact ⟨(ih h).1, ⟨true, rfl⟩, (ih h).2⟩

variable (onDrop) in
/-- If every line is decided, those not dropped are moved together and the rest of the buffer keeps its length. -/
theorem filterFrom_eq {drop : List α → Bool} {fuel : ℕ} {xs : List α}
    (h : ∀ line ∈ splitLines sep xs, check line = some (drop line)) (hfuel : (splitLines sep xs).length < fuel)
    (front gap tail : List α) (s : σ) :
    ∃ junk, filterFrom sep check onDrop fuel front gap xs tail s =
        some (front ++ ((splitLines sep xs).filter fun line => !drop line).flatten ++ junk ++ tail,
          (front ++ ((splitLines sep xs).filter fun line => !drop line).flatten).length,
          onDrop^[(splitLines sep xs).countP drop] s) ∧
      (((splitLines sep xs).filter fun line => !drop line).flatten ++ junk).length = (gap ++ xs).length := by
  induction fuel generalizing front gap xs s with
  | zero => exact absurd hfuel (Nat.not_lt_zero _)
  | succ fuel ih =>
    by_cases hxs : xs = []
    · subst hxs
      refine ⟨gap, ?_, ?_⟩
      · rw [filterFrom_nil]
        simp [splitLines]
      · simp [splitLines]
    have hlines := splitLines_eq_cons sep hxs
    have hlen := lineLength_le sep xs
    rw [hlines] at h hfuel ⊢
    rw [List.forall_mem_cons] at h
    rw [filterFrom_cons hxs, h.1]
    cases hdrop : drop (xs.take (lineLength sep xs)) with
    | true =>
      obtain ⟨junk, heq, hlength⟩ := ih h.2 (Nat.lt_of_succ_lt_succ hfuel) front
        (gap ++ xs.take (lineLength sep xs)) (onDrop s)
      refine ⟨junk, ?_, ?_⟩
      · rw [List.filter_cons_of_neg (by simp [hdrop]), List.countP_cons_of_pos hdrop, Function.iterate_succ_apply]
        exact heq
      · rw [List.filter_cons_of_neg (by simp [hdrop]), hlength, List.append_assoc, List.take_append_drop]
    | false =>
      obtain ⟨junk, heq, hlength⟩ := ih h.2 (Nat.lt_of_succ_lt_succ hfuel) (front ++ xs.take (lineLength sep xs))
        ((gap ++ xs.take (lineLength sep xs)).drop (lineLength sep xs)) s
      refine ⟨junk, ?_, ?_⟩
      · rw [List.filter_cons_of_pos (by simp [hdrop]), List.countP_cons_of_neg (by simp [hdrop]), List.flatten_cons,
          ← List.append_assoc front]
        exact heq
      · rw [List.filter_cons_of_pos (by simp [hdrop]), List.flatten_cons, List.append_assoc,
          List.length_append, hlength]
        simp only [List.length_append, List.length_drop, List.length_take]
        omega

end Loop

end VpnHide
