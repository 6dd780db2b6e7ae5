import Mathlib.Algebra.Order.Group.Int
import Mathlib.Algebra.Order.Ring.Nat
import Mathlib.Data.List.Basic
import Mathlib.Tactic.Common

/-!
# Dumps in pages

A dump puts one object after the other into a page until one does not fit, hands the page out and goes on with that
object in the next page. The loop that does this is given from outside, and `DumpLoop.Paged` says what is assumed of it.
A dump that skips some objects, and notes each, gives the others, each once and in their order, and has noted the
skipped ones once each. If a skipped object never ends a page, it gives the very pages of a dump that never had it.
-/

namespace VpnHide
variable {α γ : Type}

/-- What filling in an object leaves: the page, the result, and the objects noted. -/
structure Filled (γ : Type) where
  page : List γ
  ret : Int
  notes : ℕ

structure DumpLoop (α γ : Type) where
  /-- the results that end a page -/
  stops : Int → Bool
  /-- one page, from what is in it and how many were noted: the same at its end, and the objects that are left -/
  fillPage : (α → List γ → Filled γ) → List γ → ℕ → List α → List γ × List α × ℕ
  /-- the pages of a dump and the notes, if the dump does not fail -/
  dump : (α → List γ → Filled γ) → List α → Option (List (List γ) × ℕ)

namespace DumpLoop

/-- The objects come in their order, the one that ends a page comes again in the next, and a page that ends with nothing
in it makes the dump fail. -/
structure Paged (loop : DumpLoop α γ) : Prop where
  nil : ∀ fill page notes, loop.fillPage fill page notes [] = (page, [], notes)
  stop : ∀ {fill : α → List γ → Filled γ} {page : List γ} {a : α}, loop.stops (fill a page).ret = true →
    ∀ notes as, loop.fillPage fill page notes (a :: as) = ((fill a page).page, a :: as, notes + (fill a page).notes)
  next : ∀ {fill : α → List γ → Filled γ} {page : List γ} {a : α}, loop.stops (fill a page).ret = false →
    ∀ notes as, loop.fillPage fill page notes (a :: as) =
      loop.fillPage fill (fill a page).page (notes + (fill a page).notes) as
  last : ∀ {fill : α → List γ → Filled γ} {as : List α} {page : List γ} {notes : ℕ},
    loop.fillPage fill [] 0 as = (page, [], notes) →
      loop.dump fill as = some (if page.length = 0 then [] else [page], notes)
  more : ∀ {fill : α → List γ → Filled γ} {as : List α} {page : List γ} {a : α} {rest : List α} {notes : ℕ},
    loop.fillPage fill [] 0 as = (page, a :: rest, notes) →
      loop.dump fill as =
        if (a :: rest).length < as.length ∧ page.length ≠ 0 then
          (loop.dump fill (a :: rest)).map fun (pages, more) => (page :: pages, notes + more)
        else none

/-! ### A loop that meets the assumptions -/

def fillUntil (stops : Int → Bool) (fill : α → List γ → Filled γ) : List γ → ℕ → List α → List γ × List α × ℕ
  | page, notes, [] => (page, [], notes)
  | page, notes, a :: as =>
    if stops (fill a page).ret then ((fill a page).page, a :: as, notes + (fill a page).notes)
    else fillUntil stops fill (fill a page).page (notes + (fill a page).notes) as

def dumpUntil (stops : Int → Bool) (fill : α → List γ → Filled γ) (as : List α) : Option (List (List γ) × ℕ) :=
  match fillUntil stops fill [] 0 as with
  | (page, [], notes) => some (if page.length = 0 then [] else [page], notes)
  | (page, rest, notes) =>
    if rest.length < as.length ∧ page.length ≠ 0 then
      (dumpUntil stops fill rest).map fun (pages, more) => (page :: pages, notes + more)
    else none
termination_by as.length

def untilStop (stops : Int → Bool) : DumpLoop α γ := ⟨stops, fillUntil stops, dumpUntil stops⟩

theorem paged_untilStop (stops : Int → Bool) : (untilStop stops : DumpLoop α γ).Paged where
  nil _ _ _ := rfl
  stop h _ _ := if_pos h
  next h _ _ := if_neg (by rw [show stops _ = false from h]; decide)
  last h := by
    show dumpUntil stops _ _ = _
    rw [dumpUntil, show fillUntil stops _ [] 0 _ = _ from h]
  more h := by
    show dumpUntil stops _ _ = _
    rw [dumpUntil, show fillUntil stops _ [] 0 _ = _ from h]
    rfl

end DumpLoop

/-! ### Objects that are skipped -/

/-- How `fill` treats the objects: it shows some, as far as there is room, and skips the others, with so many notes
each. -/
structure Fills (stops : Int → Bool) (cap : ℕ) (shown : α → Bool) (noted : α → ℕ) (msg : α → List γ)
    (fill : α → List γ → Filled γ) : Prop where
  shows : ∀ a page, shown a → page.length + (msg a).length ≤ cap →
    (fill a page).page = page ++ msg a ∧ stops (fill a page).ret = false ∧ (fill a page).notes = 0
  full : ∀ a page, shown a → cap < page.length + (msg a).length →
    (fill a page).page = page ∧ stops (fill a page).ret = true ∧ (fill a page).notes = 0
  /-- A skipped object may end the page where a shown one would, and then is not noted yet. -/
  skips : ∀ a page, ¬ shown a → (fill a page).page = page ∧
    ((stops (fill a page).ret = true ∧ cap < page.length + (msg a).length ∧ (fill a page).notes = 0) ∨
      (stops (fill a page).ret = false ∧ (fill a page).notes = noted a))

section Page
variable {loop : DumpLoop α γ} {cap : ℕ} {shown : α → Bool} {noted noted' : α → ℕ} {msg : α → List γ}
  {fill fill' : α → List γ → Filled γ} {page : List γ} {notes : ℕ} {as : List α}

/-- A page takes the objects in front, the shown ones of them, and ends at one for which there is no room. -/
structure PageEnds (cap : ℕ) (shown : α → Bool) (noted : α → ℕ) (msg : α → List γ) (page : List γ) (notes : ℕ)
    (as : List α) (out : List γ × List α × ℕ) : Prop where
  split : ∃ done, as = done ++ out.2.1 ∧ out.1 = page ++ (done.filter shown).flatMap msg ∧
    out.2.2 = notes + ((done.filter fun a => !shown a).map noted).sum
  room : page.length ≤ cap → out.1.length ≤ cap
  stop : ∀ a rest, out.2.1 = a :: rest → cap < out.1.length + (msg a).length

theorem PageEnds.none (hstop : ∀ a rest, as = a :: rest → cap < page.length + (msg a).length) :
    PageEnds cap shown noted msg page notes as (page, as, notes) :=
  ⟨⟨[], rfl, (List.append_nil page).symm, rfl⟩, id, hstop⟩

theorem Fills.pageEnds (h : Fills loop.stops cap shown noted msg fill) (hloop : loop.Paged) (page : List γ) (notes : ℕ)
    (as : List α) : PageEnds cap shown noted msg page notes as (loop.fillPage fill page notes as) := by
  induction as generalizing page notes with
  | nil =>
    rw [hloop.nil]
    exact .none fun _ _ hrest => by cases hrest
  | cons a as ih =>
    by_cases hshown : shown a
    · by_cases hfits : page.length + (msg a).length ≤ cap
      · obtain ⟨hpage, hret, hnotes⟩ := h.shows a page hshown hfits
        rw [hloop.next hret, hpage, hnotes]
        obtain ⟨⟨done, has, hout, hcount⟩, hroom, hstop⟩ := ih (page ++ msg a) (notes + 0)
        refine ⟨⟨a :: done, by rw [List.cons_append, ← has], ?_, ?_⟩, fun _ => hroom ?_, hstop⟩
        · rw [hout, List.filter_cons_of_pos hshown, List.flatMap_cons, List.append_assoc]
        · rw [hcount, List.filter_cons_of_neg (by simp [hshown]), Nat.add_zero]
        · rw [List.length_append]
          exact hfits
      · obtain ⟨hpage, hret, hnotes⟩ := h.full a page hshown (not_le.1 hfits)
        rw [hloop.stop hret, hpage, hnotes]
        refine .none fun b rest hrest => ?_
        cases hrest
        exact not_le.1 hfits
    · obtain ⟨hpage, ⟨hret, hfull, hnotes⟩ | ⟨hret, hnotes⟩⟩ := h.skips a page hshown
      · rw [hloop.stop hret, hpage, hnotes]
        refine .none fun b rest hrest => ?_
        cases hrest
        exact hfull
      · rw [hloop.next hret, hpage, hnotes]
        obtain ⟨⟨done, has, hout, hcount⟩, hroom, hstop⟩ := ih page (notes + noted a)
        refine ⟨⟨a :: done, by rw [List.cons_append, ← has], ?_, ?_⟩, hroom, hstop⟩
        · rw [hout, List.filter_cons_of_neg hshown]
        · rw [hcount, List.filter_cons_of_pos (by simpa using hshown), List.map_cons, List.sum_cons, Nat.add_assoc]

/-- What a page that is not empty leaves is less, also of the objects that are shown. -/
theorem PageEnds.rest_lt {rest : List α} {notes' : ℕ}
    (h : PageEnds cap shown noted msg [] notes as (page, rest, notes')) (hpos : page.length ≠ 0) :
    rest.length < as.length ∧ (rest.filter shown).length < (as.filter shown).length := by
  obtain ⟨done, has, hout, -⟩ := h.split
  dsimp only at has hout
  have hdone : done.filter shown ≠ [] := by
    intro hnil
    rw [hnil] at hout
    exact hpos (by rw [hout]; rfl)
  have hshown := List.length_pos_of_ne_nil hdone
  have hle := List.length_filter_le shown done
  rw [has, List.filter_append, List.length_append, List.length_append]
  omega

/-- Nothing is lost and nothing comes twice, whatever the pages. -/
theorem Fills.dump_exact (h : Fills loop.stops cap shown noted msg fill) (hloop : loop.Paged) (as : List α)
    (hfit : ∀ a ∈ as, (msg a).length ≤ cap) :
    ∃ pages, loop.dump fill as = some (pages, ((as.filter fun a => !shown a).map noted).sum) ∧
      pages.flatten = (as.filter shown).flatMap msg ∧ ∀ page ∈ pages, page.length ≤ cap := by
  have hends := h.pageEnds hloop [] 0 as
  generalize hpage : loop.fillPage fill [] 0 as = out at hends
  obtain ⟨page, rest, notes⟩ := out
  have hless := hends.rest_lt
  obtain ⟨⟨done, has, hout, hcount⟩, hroom, hstop⟩ := hends
  dsimp only at has hout hcount hroom hstop
  rw [List.nil_append] at hout
  rw [Nat.zero_add] at hcount
  cases rest with
  | nil =>
    rw [List.append_nil] at has
    subst has
    rw [hloop.last hpage, hcount]
    split_ifs with hempty
    · refine ⟨[], rfl, ?_, fun _ h => by cases h⟩
      rw [← hout, List.length_eq_zero_iff.1 hempty]
      rfl
    · refine ⟨[page], rfl, ?_, fun p hp => ?_⟩
      · rw [← hout, List.flatten_singleton]
      · rw [List.mem_singleton.1 hp]
        exact hroom (Nat.zero_le _)
  | cons a rest =>
    have hmem : ∀ b ∈ a :: rest, b ∈ as := fun b hb => by
      rw [has]
      exact List.mem_append_right _ hb
    -- the object that ends the page fits into an empty one, so the page is not empty
    have hpos : page.length ≠ 0 := by
      have hlong := hstop a rest rfl
      have hshort := hfit a (hmem a (List.mem_cons_self ..))
      omega
    rw [hloop.more hpage, if_pos ⟨(hless hpos).1, hpos⟩]
    have := (hless hpos).1
    obtain ⟨pages, hpages, hflat, hcap⟩ := Fills.dump_exact h hloop (a :: rest) fun b hb => hfit b (hmem b hb)
    refine ⟨page :: pages, ?_, ?_, ?_⟩
    · rw [hpages, Option.map_some, hcount]
      dsimp only
      rw [← List.sum_append, ← List.map_append, ← List.filter_append, ← has]
    · rw [List.flatten_cons, hflat, hout, ← List.flatMap_append, ← List.filter_append, ← has]
    · rintro p hp
      rcases List.mem_cons.1 hp with rfl | hp
      · exact hroom (Nat.zero_le _)
      · exact hcap p hp
termination_by as.length

/-- Objects that are skipped without ending the page might as well not be there. -/
theorem Fills.fillPage_filter (h : Fills loop.stops cap shown noted msg fill)
    (h' : Fills loop.stops cap (fun _ => true) noted' msg fill') (hloop : loop.Paged) (page : List γ) (notes notes' : ℕ)
    (as : List α) (hskip : ∀ a ∈ as, ∀ page, ¬ shown a → loop.stops (fill a page).ret = false) :
    (loop.fillPage fill' page notes' (as.filter shown)).1 = (loop.fillPage fill page notes as).1 ∧
      (loop.fillPage fill' page notes' (as.filter shown)).2.1 = (loop.fillPage fill page notes as).2.1.filter shown ∧
      ∀ a rest, (loop.fillPage fill page notes as).2.1 = a :: rest → shown a := by
  induction as generalizing page notes notes' with
  | nil =>
    rw [List.filter_nil, hloop.nil, hloop.nil]
    exact ⟨rfl, rfl, fun _ _ hrest => by cases hrest⟩
  | cons a as ih =>
    obtain ⟨ha, has⟩ := List.forall_mem_cons.1 hskip
    by_cases hshown : shown a
    · rw [List.filter_cons_of_pos hshown]
      by_cases hfits : page.length + (msg a).length ≤ cap
      · obtain ⟨hpage, hret, -⟩ := h.shows a page hshown hfits
        obtain ⟨hpage', hret', -⟩ := h'.shows a page rfl hfits
        rw [hloop.next hret, hloop.next hret', hpage, hpage']
        exact ih (page ++ msg a) _ _ has
      · obtain ⟨hpage, hret, -⟩ := h.full a page hshown (not_le.1 hfits)
        obtain ⟨hpage', hret', -⟩ := h'.full a page rfl (not_le.1 hfits)
        rw [hloop.stop hret, hloop.stop hret', hpage, hpage']
        refine ⟨rfl, (List.filter_cons_of_pos hshown).symm, fun b rest hrest => ?_⟩
        cases hrest
        exact hshown
    · rw [List.filter_cons_of_neg hshown, hloop.next (ha page hshown), (h.skips a page hshown).1]
      exact ih page _ _ has

theorem Fills.dump_filter (h : Fills loop.stops cap shown noted msg fill)
    (h' : Fills loop.stops cap (fun _ => true) noted' msg fill') (hloop : loop.Paged) (as : List α)
    (hskip : ∀ a ∈ as, ∀ page, ¬ shown a → loop.stops (fill a page).ret = false) :
    (loop.dump fill as).map Prod.fst = (loop.dump fill' (as.filter shown)).map Prod.fst := by
  have hfilter := h.fillPage_filter h' hloop [] 0 0 as hskip
  have hends := h.pageEnds hloop [] 0 as
  generalize hfill' : loop.fillPage fill' [] 0 (as.filter shown) = out' at hfilter
  generalize hfill : loop.fillPage fill [] 0 as = out at hfilter hends
  obtain ⟨page, rest, notes⟩ := out
  obtain ⟨page', rest', notes'⟩ := out'
  have hless := hends.rest_lt
  obtain ⟨done, has, -, -⟩ := hends.split
  obtain ⟨hpage, hrest, hhead⟩ := hfilter
  dsimp only at has hpage hrest hhead
  subst hpage hrest
  cases rest with
  | nil =>
    rw [hloop.last hfill, hloop.last hfill']
    rfl
  | cons a rest =>
    have hshown : shown a := hhead a rest rfl
    rw [List.filter_cons_of_pos hshown] at hfill'
    rw [hloop.more hfill, hloop.more hfill']
    by_cases hpos : page'.length = 0
    · rw [if_neg fun hc => hc.2 hpos, if_neg fun hc => hc.2 hpos]
    · obtain ⟨hall, hfiltered⟩ := hless hpos
      rw [List.filter_cons_of_pos hshown] at hfiltered
      have hrest := Fills.dump_filter h h' hloop (a :: rest) fun b hb => hskip b (has ▸ List.mem_append_right _ hb)
      rw [List.filter_cons_of_pos hshown] at hrest
      rw [if_pos ⟨hall, hpos⟩, if_pos ⟨hfiltered, hpos⟩, Option.map_map, Option.map_map]
      have hcons := congrArg (Option.map (page' :: ·)) hrest
      rw [Option.map_map, Option.map_map] at hcons
      exact hcons
termination_by as.length

end Page

end VpnHide
