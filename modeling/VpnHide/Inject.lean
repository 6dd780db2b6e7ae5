import VpnHide.Lib.Text

/-!
# Inserting code into kernel sources (`kpatch/scripts/inject_modern.py`)

The injector finds a function of a C source by its name, and puts a block of code in front of or behind an anchor in it.
The next run has to find the same function in the longer text. A block that keeps to the braces, and to lines where the
name does not stand, moves the end of the function and nothing else, so that a second run finds its marker and leaves
the file as it is (`insertInFunction_additive`).
-/

namespace VpnHide

/-- A Python string. -/
abbrev Text := List Char

/-- What Python says about characters. -/
structure CharClasses where
  isalnum : Char → Bool
  isspace : Char → Bool

inductive InjectError
  | missingFile (relpath : String)
  | definitions (name : Text) (count : ℕ)
  | unmatchedBrace (name : Text)
  | anchors (relpath : String) (function anchor : Text) (count : ℕ)

/-- The text of the exception; `repr` is Python's. -/
def InjectError.message (repr : Text → String) : InjectError → String
  | .missingFile relpath => "missing source file: " ++ relpath
  | .definitions name count => String.ofList name ++ ": expected one function definition, found " ++ toString count
  | .unmatchedBrace name => String.ofList name ++ ": unmatched opening brace"
  | .anchors relpath function anchor count =>
    relpath ++ ":" ++ String.ofList function ++ ": expected one anchor " ++ repr anchor ++ ", found " ++ toString count

/-! ### Finding a function -/

def strip (py : CharClasses) (s : Text) : Text := (s.dropWhile py.isspace).rdropWhile py.isspace

/-- `text[text.rfind("\n", 0, index) + 1 : index]` -/
def linePrefix (text : Text) (index : ℕ) : Text := (text.take index).rtakeWhile (· ≠ '\n')

def needle (name : Text) : Text := name ++ ['(']

theorem needle_ne_nil (name : Text) : needle name ≠ [] := List.append_ne_nil_of_right_ne_nil _ (List.cons_ne_nil _ _)

def syscallMacro (name : Text) (argc : ℕ) : Text :=
  "SYSCALL_DEFINE".toList ++ Nat.toDigits 10 argc ++ '(' :: (name ++ [','])

/-- The character in front belongs to a longer name. -/
def continuesName (py : CharClasses) (text : Text) (index : ℕ) : Bool :=
  0 < index && text[index - 1]?.any fun c => py.isalnum c || c = '_'

/-- The line starts like a definition. -/
def hasReturnType (py : CharClasses) (text : Text) (index : ℕ) : Bool :=
  let start := strip py (linePrefix text index)
  "static ".toList.isPrefixOf start || start = "int".toList || start = "__be32".toList

/-- An opening brace in front of the next semicolon. -/
def openingBrace (text : Text) (index : ℕ) : Option ℕ :=
  (findFrom ['{'] text index).filter fun brace => (findFrom [';'] text index).all fun semi => brace < semi

/-- The body of the loop over the occurrences of the name. -/
def definitionAt (py : CharClasses) (text : Text) (index : ℕ) : Option (ℕ × ℕ) :=
  if continuesName py text index then none
  else if ¬ hasReturnType py text index then none
  else (openingBrace text index).map fun brace => (index, brace)

def functionStarts (py : CharClasses) (text name : Text) : List (ℕ × ℕ) :=
  (occurrencesFrom (needle name) (needle_ne_nil name) text 0).filterMap (definitionAt py text)

/-- The only occurrence of one of the macros. -/
def macroIndex (text name : Text) (argc : ℕ) : Option ℕ :=
  (findFrom (syscallMacro name argc) text 0).filter fun index =>
    (findFrom (syscallMacro name argc) text (index + 1)).isNone

def macroIndices (text name : Text) : List ℕ := (List.range 7).filterMap (macroIndex text name)

/-- `starts`, with a macro if the name alone does not tell. -/
def allStarts (py : CharClasses) (text name : Text) : List (ℕ × ℕ) :=
  let starts := functionStarts py text name
  if starts.length ≠ 1 then
    match macroIndices text name with
    | [index] => starts ++ ((openingBrace text index).map fun brace => (index, brace)).toList
    | _ => starts
  else starts

/-- The loop that counts braces: how many characters there are up to the one that brings the depth back to zero. -/
def matchBrace : Text → ℤ → Option ℕ
  | [], _ => none
  | c :: text, depth =>
    if c = '{' then (matchBrace text (depth + 1)).map (· + 1)
    else if c = '}' then if depth - 1 = 0 then some 1 else (matchBrace text (depth - 1)).map (· + 1)
    else (matchBrace text depth).map (· + 1)

def functionSpan (py : CharClasses) (text name : Text) : Except InjectError (ℕ × ℕ) :=
  match allStarts py text name with
  | [(start, brace)] =>
    match matchBrace (text.drop brace) 0 with
    | some n => .ok (start, brace + n)
    | none => .error (.unmatchedBrace name)
  | starts => .error (.definitions name starts.length)

/-! ### Inserting -/

/-- The arguments of `insert_in_function`. -/
structure Insertion where
  relpath : String
  function : Text
  anchor : Text
  block : Text
  before : Bool
  marker : Option Text

/-- `marker or block.strip()` -/
def Insertion.markerText (py : CharClasses) (args : Insertion) : Text :=
  if args.marker.getD [] = [] then strip py args.block else args.marker.getD []

/-- `text[start:stop]` -/
def textSlice (text : Text) (start stop : ℕ) : Text := (text.take stop).drop start

/-- Where the block is put if the anchor is at this place of the body. -/
def Insertion.place (args : Insertion) (start index : ℕ) : ℕ :=
  if args.before then start + index else start + index + args.anchor.length

/-- The texts of the source files. -/
abbrev Files := String → Option Text

def insertInFunction (py : CharClasses) (args : Insertion) (files : Files) : Except InjectError Unit × Files :=
  match files args.relpath with
  | none => (.error (.missingFile args.relpath), files)
  | some text =>
    match functionSpan py text args.function with
    | .error e => (.error e, files)
    | .ok (start, stop) =>
      let body := textSlice text start stop
      if (findFrom (args.markerText py) body 0).isSome then (.ok (), files)
      else
        let count := countIn args.anchor body
        if count ≠ 1 then (.error (.anchors args.relpath args.function args.anchor count), files)
        else
          let place := args.place start ((findFrom args.anchor body 0).getD 0)
          (.ok (), Function.update files args.relpath (some (insertAt text place args.block)))

/-! ### What is assumed -/

def braceValue (c : Char) : ℤ := if c = '{' then 1 else if c = '}' then -1 else 0

/-- Opening minus closing braces. -/
def netDepth : Text → ℤ
  | [] => 0
  | c :: text => braceValue c + netDepth text

structure Balanced (block : Text) : Prop where
  nonneg : ∀ k, 0 ≤ netDepth (block.take k)
  settled : netDepth block = 0

/-- The patterns that a function is found by. -/
def patterns (name : Text) : List Text := needle name :: (List.range 7).map (syscallMacro name)

/-- The number of the line that a place is on. -/
def lineOf (text : Text) (i : ℕ) : ℕ := (text.take i).count '\n'

/-- A part of the `n` characters at place `i` is on a line of the span. -/
def OnSpanLine (text : Text) (start stop i n : ℕ) : Prop :=
  lineOf text i ≤ lineOf text (stop - 1) ∧ lineOf text start ≤ lineOf text (i + n - 1)

/-- The function at this span can take the block. -/
structure Insertion.Fits (py : CharClasses) (args : Insertion) (text : Text) (start stop : ℕ) : Prop where
  /-- as in every name of a function -/
  name : '{' ∉ args.function
  marker : args.markerText py <:+: args.block
  balanced : Balanced args.block
  /-- The anchor is strictly between the outer braces. -/
  inside : ∀ index, findFrom args.anchor (textSlice text start stop) 0 = some index →
    ∃ brace, findFrom ['{'] text start = some brace ∧ brace < start + index ∧ start + index + args.anchor.length < stop
  /-- On the lines of the span, only the definition has one of the patterns. -/
  alone : ∀ pattern ∈ patterns args.function, ∀ i, Occurs pattern text i →
    OnSpanLine text start stop i pattern.length → i = start
  /-- None stands in the block or across its edges. -/
  outside : ∀ index, findFrom args.anchor (textSlice text start stop) 0 = some index →
    ∀ pattern ∈ patterns args.function, ∀ j, Occurs pattern (insertAt text (args.place start index) args.block) j →
      j + pattern.length ≤ args.place start index ∨ args.place start index + args.block.length ≤ j

/-! ### Braces -/

theorem matchBrace_cons (c : Char) (text : Text) (depth : ℤ) :
    matchBrace (c :: text) depth =
      if c = '}' ∧ depth + braceValue c = 0 then some 1 else (matchBrace text (depth + braceValue c)).map (· + 1) := by
  rw [matchBrace, braceValue]
  by_cases hopen : c = '{'
  · subst hopen
    rfl
  · rw [if_neg hopen, if_neg hopen]
    by_cases hclose : c = '}'
    · rw [if_pos hclose, if_pos hclose, ← Int.sub_eq_add_neg]
      simp [hclose]
    · rw [if_neg hclose, if_neg hclose, Int.add_zero]
      simp [hclose]

theorem matchBrace_append {front : Text} {depth : ℤ} (h : ∀ k, 0 < depth + netDepth (front.take k)) (rest : Text) :
    matchBrace (front ++ rest) depth = (matchBrace rest (depth + netDepth front)).map (· + front.length) := by
  induction front generalizing depth with
  | nil =>
    rw [netDepth, Int.add_zero]
    exact Option.map_id'.symm
  | cons c front ih =>
    have hc := h 1
    rw [List.take_succ_cons, List.take_zero, netDepth, netDepth, Int.add_zero] at hc
    have hrest : ∀ k, 0 < depth + braceValue c + netDepth (front.take k) := by
      intro k
      have hk := h (k + 1)
      rw [List.take_succ_cons, netDepth] at hk
      omega
    rw [List.cons_append, matchBrace_cons, if_neg (by omega), ih hrest, netDepth, Option.map_map, Int.add_assoc]
    rfl

theorem pos_of_matchBrace {text : Text} {depth : ℤ} {n : ℕ} (h : matchBrace text depth = some n) (hdepth : 0 < depth) :
    ∀ k < n, 0 < depth + netDepth (text.take k) := by
  induction text generalizing depth n with
  | nil => cases h
  | cons c text ih =>
    intro k hk
    cases k with
    | zero =>
      rw [List.take_zero, netDepth]
      omega
    | succ k =>
      rw [matchBrace_cons] at h
      split_ifs at h with hend
      · obtain rfl := Option.some.inj h
        omega
      · obtain ⟨m, hm, rfl⟩ := Option.map_eq_some_iff.1 h
        rw [List.take_succ_cons, netDepth, ← Int.add_assoc]
        refine ih hm ?_ k (by omega)
        unfold braceValue at hend ⊢
        split_ifs with hopen hclose
        · omega
        · have hne := not_and.1 hend hclose
          rw [if_neg hopen, if_pos hclose] at hne
          omega
        · omega

theorem matchBrace_insert {front rest block : Text} {depth : ℤ} {n : ℕ} (h : matchBrace (front ++ rest) depth = some n)
    (hdepth : 0 < depth) (hlen : front.length < n) (hblock : Balanced block) :
    matchBrace (front ++ (block ++ rest)) depth = some (n + block.length) := by
  have hfront : ∀ k, 0 < depth + netDepth (front.take k) := by
    intro k
    rcases Nat.le_total k front.length with hk | hk
    · have hpos := pos_of_matchBrace h hdepth k (by omega)
      rwa [List.take_append_of_le_length hk] at hpos
    · have hpos := pos_of_matchBrace h hdepth front.length hlen
      rwa [List.take_left, ← List.take_of_length_le hk] at hpos
  have hopen := hfront front.length
  rw [List.take_length] at hopen
  rw [matchBrace_append hfront] at h ⊢
  obtain ⟨m, hm, rfl⟩ := Option.map_eq_some_iff.1 h
  have hinside : ∀ k, 0 < depth + netDepth front + netDepth (block.take k) := by
    intro k
    have := hblock.nonneg k
    omega
  rw [matchBrace_append hinside, hblock.settled, Int.add_zero, hm, Option.map_some, Option.map_some]
  congr 1
  omega

/-! ### Lines -/

theorem lineOf_le_of_le (text : Text) {i j : ℕ} (h : i ≤ j) : lineOf text i ≤ lineOf text j :=
  (List.take_sublist_take_left h).count_le _

theorem lt_of_lineOf_lt {text : Text} {i j : ℕ} (h : lineOf text i < lineOf text j) : i < j := by
  by_contra hle
  exact absurd (lineOf_le_of_le text (Nat.not_lt.1 hle)) (Nat.not_le.2 h)

theorem newline_mem_of_lineOf_lt {text : Text} {i j : ℕ} (h : lineOf text i < lineOf text j) :
    '\n' ∈ (text.drop i).take (j - i) := by
  have hle : i ≤ j := Nat.le_of_lt (lt_of_lineOf_lt h)
  have hsplit : text.take j = text.take i ++ (text.drop i).take (j - i) := by
    rw [← List.take_add, Nat.add_sub_cancel' hle]
  unfold lineOf at h
  rw [hsplit, List.count_append] at h
  exact List.count_pos_iff.1 (by omega)

theorem rtakeWhile_append {front rest : Text} {p : Char → Bool} {c : Char} (hc : c ∈ rest) (hp : p c = false) :
    (front ++ rest).rtakeWhile p = rest.rtakeWhile p := by
  have hne : (rest.reverse.takeWhile p).length ≠ rest.reverse.length := by
    intro heq
    have hall := List.takeWhile_eq_self_iff.1 ((List.takeWhile_prefix p).eq_of_length heq)
    rw [hall c (List.mem_reverse.2 hc)] at hp
    cases hp
  rw [List.rtakeWhile, List.reverse_append, List.takeWhile_append, if_neg hne, List.rtakeWhile]

/-! ### Places that a block leaves alone -/

section Untouched
variable {text block : Text} {p start brace i : ℕ}

theorem linePrefix_insertAt_left (hp : p ≤ text.length) (hi : i ≤ p) :
    linePrefix (insertAt text p block) i = linePrefix text i := by
  rw [linePrefix, take_insertAt hp hi, linePrefix]

theorem linePrefix_insertAt_right (hp : p ≤ text.length) (hi : p ≤ i) (hline : '\n' ∈ (text.drop p).take (i - p)) :
    linePrefix (insertAt text p block) (i + block.length) = linePrefix text i := by
  have hlen : (text.take p ++ block).length = p + block.length := by
    rw [List.length_append, List.length_take, Nat.min_eq_left hp]
  have hresult : (insertAt text p block).take (i + block.length) =
      text.take p ++ block ++ (text.drop p).take (i - p) := by
    rw [insertAt, show i + block.length = (text.take p ++ block).length + (i - p) by omega, List.take_length_add_append]
  have htext : text.take i = text.take p ++ (text.drop p).take (i - p) := by
    rw [← List.take_add, Nat.add_sub_cancel' hi]
  rw [linePrefix, linePrefix, hresult, htext, rtakeWhile_append hline (by simp), rtakeWhile_append hline (by simp)]

theorem continuesName_insertAt_left (py : CharClasses) (hp : p ≤ text.length) (hi : i ≤ p) :
    continuesName py (insertAt text p block) i = continuesName py text i := by
  cases i with
  | zero => rfl
  | succ i =>
    have hchar : (insertAt text p block)[i]? = text[i]? := by
      rw [← List.getElem?_take_of_lt (Nat.lt_succ_self i), take_insertAt hp hi,
        List.getElem?_take_of_lt (Nat.lt_succ_self i)]
    rw [continuesName, continuesName, Nat.add_sub_cancel, hchar]

theorem continuesName_insertAt_right (py : CharClasses) (hp : p ≤ text.length) (hi : p < i) :
    continuesName py (insertAt text p block) (i + block.length) = continuesName py text i := by
  have hchar : (insertAt text p block)[i + block.length - 1]? = text[i - 1]? := by
    rw [show i + block.length - 1 = i - 1 + block.length by omega, ← List.head?_drop, drop_insertAt hp (by omega),
      List.head?_drop]
  have hpos : decide (0 < i + block.length) = decide (0 < i) := decide_eq_decide.2 (by omega)
  rw [continuesName, continuesName, hchar, hpos]

/-- If the next opening brace is in front of the place of the insertion, so is what decides about it. -/
theorem openingBrace_insertAt_left (hp : p ≤ text.length)
    (hbrace : findFrom ['{'] text i = some brace) (hlt : brace < p) :
    openingBrace (insertAt text p block) i = openingBrace text i := by
  have hbrace' : findFrom ['{'] (insertAt text p block) i = some brace := (findFrom_insertAt_left hp hlt).2 hbrace
  rw [openingBrace, openingBrace, hbrace, hbrace']
  by_cases hsemi : ∃ semi < p, findFrom [';'] text i = some semi
  · obtain ⟨semi, hsemi, hfind⟩ := hsemi
    rw [hfind, (findFrom_insertAt_left hp hsemi).2 hfind]
  · have hall : (findFrom [';'] text i).all (fun semi => decide (brace < semi)) = true := by
      rw [Option.all_eq_true]
      intro semi hfind
      have hle : p ≤ semi := Nat.not_lt.1 fun hlt => hsemi ⟨semi, hlt, hfind⟩
      exact decide_eq_true (by omega)
    have hall' : (findFrom [';'] (insertAt text p block) i).all (fun semi => decide (brace < semi)) = true := by
      rw [Option.all_eq_true]
      intro semi hfind
      have hle : p ≤ semi := Nat.not_lt.1 fun hlt => hsemi ⟨semi, hlt, (findFrom_insertAt_left hp hlt).1 hfind⟩
      exact decide_eq_true (by omega)
    simp only [hall, hall', Option.filter_some]

theorem openingBrace_insertAt_right (hp : p ≤ text.length) (hi : p ≤ i) :
    openingBrace (insertAt text p block) (i + block.length) = (openingBrace text i).map (· + block.length) := by
  rw [openingBrace, findFrom_insertAt_right _ _ hp hi, findFrom_insertAt_right _ _ hp hi, openingBrace]
  cases findFrom ['{'] text i with
  | none => rfl
  | some brace =>
    cases findFrom [';'] text i with
    | none => rfl
    | some semi => simp [Option.filter_some, apply_ite]

theorem le_openingBrace {b : ℕ} (h : openingBrace text i = some b) : i ≤ b :=
  (findFrom_eq_some.1 (Option.filter_eq_some_iff.1 h).1).1.offset_le

/-- A place where what decides about a definition is not changed by the insertion: it is not behind the start of the
function, or it is behind the block on another line. -/
def Untouched (text : Text) (p start i : ℕ) : Prop :=
  i ≤ start ∨ (p < i ∧ '\n' ∈ (text.drop p).take (i - p))

theorem Untouched.openingBrace (h : Untouched text p start i) (hp : p ≤ text.length)
    (hbrace : findFrom ['{'] text start = some brace) (hlt : brace < p) (block : Text) :
    VpnHide.openingBrace (insertAt text p block) (shift p block.length i) =
      (VpnHide.openingBrace text i).map (shift p block.length) := by
  have hstart := (findFrom_eq_some.1 hbrace).1
  rcases h with hi | ⟨hi, -⟩
  · have hhit : Hit ['{'] text i brace := ⟨Nat.le_trans hi hstart.offset_le, hstart.le_length, hstart.occurs⟩
    obtain ⟨b, hb, hfind⟩ := hhit.findFrom_le
    have hle := hstart.offset_le
    rw [shift_of_lt (by omega), openingBrace_insertAt_left hp hfind (by omega)]
    cases hopen : VpnHide.openingBrace text i with
    | none => rfl
    | some b' =>
      have hfind' := (Option.filter_eq_some_iff.1 hopen).1
      obtain rfl : b = b' := Option.some.inj (hfind.symm.trans hfind')
      rw [Option.map_some, shift_of_lt (by omega)]
  · rw [shift_of_le (Nat.le_of_lt hi), openingBrace_insertAt_right hp (Nat.le_of_lt hi)]
    refine Option.map_congr fun b hb => ?_
    have := le_openingBrace hb
    rw [shift_of_le (by omega)]

theorem Untouched.definitionAt (h : Untouched text p start i) (hp : p ≤ text.length)
    (hbrace : findFrom ['{'] text start = some brace) (hlt : brace < p) (py : CharClasses) (block : Text) :
    VpnHide.definitionAt py (insertAt text p block) (shift p block.length i) =
      (VpnHide.definitionAt py text i).map (Prod.map (shift p block.length) (shift p block.length)) := by
  have hopen := h.openingBrace hp hbrace hlt block
  have hstart := (findFrom_eq_some.1 hbrace).1.offset_le
  have hname : continuesName py (insertAt text p block) (shift p block.length i) = continuesName py text i := by
    rcases h with hi | ⟨hi, -⟩
    · rw [shift_of_lt (by omega), continuesName_insertAt_left py hp (by omega)]
    · rw [shift_of_le (Nat.le_of_lt hi), continuesName_insertAt_right py hp hi]
  have htype : hasReturnType py (insertAt text p block) (shift p block.length i) = hasReturnType py text i := by
    rcases h with hi | ⟨hi, hline⟩
    · rw [shift_of_lt (by omega), hasReturnType, linePrefix_insertAt_left hp (by omega), hasReturnType]
    · rw [shift_of_le (Nat.le_of_lt hi), hasReturnType, linePrefix_insertAt_right hp (Nat.le_of_lt hi) hline,
        hasReturnType]
  rw [VpnHide.definitionAt, VpnHide.definitionAt, hname, htype, hopen]
  split_ifs
  · rfl
  · rw [Option.map_map, Option.map_map]
    rfl
  · rfl

end Untouched

/-! ### The function in the longer text -/

/-- The insertion leaves alone all places where the name stands, and the opening brace of the function. -/
structure LeavesAlone (name text block : Text) (p start brace : ℕ) : Prop where
  le_length : p ≤ text.length
  opening : findFrom ['{'] text start = some brace
  brace_lt : brace < p
  spares : ∀ pattern ∈ patterns name, Spares pattern text p block
  untouched : ∀ pattern ∈ patterns name, ∀ i, Occurs pattern text i → Untouched text p start i

namespace LeavesAlone
variable {name text block : Text} {p start brace : ℕ}

theorem needle_mem (name : Text) : needle name ∈ patterns name := List.mem_cons_self

theorem syscallMacro_mem (name : Text) {argc : ℕ} (h : argc ∈ List.range 7) : syscallMacro name argc ∈ patterns name :=
  List.mem_cons_of_mem _ (List.mem_map_of_mem h)

theorem syscallMacro_ne_nil (name : Text) (argc : ℕ) : syscallMacro name argc ≠ [] :=
  List.append_ne_nil_of_right_ne_nil _ (List.cons_ne_nil _ _)

theorem functionStarts (h : LeavesAlone name text block p start brace) (py : CharClasses) :
    VpnHide.functionStarts py (insertAt text p block) name =
      (VpnHide.functionStarts py text name).map (Prod.map (shift p block.length) (shift p block.length)) := by
  have hzero : ∀ i, Occurs (needle name) text i → (0 ≤ i ↔ 0 ≤ shift p block.length i) := by simp
  have hoccurrences := occurrencesFrom_insertAt (h.spares _ (needle_mem name)) (needle_ne_nil name) h.le_length hzero
  rw [VpnHide.functionStarts, VpnHide.functionStarts, hoccurrences, List.filterMap_map, List.map_filterMap]
  refine List.filterMap_congr fun i hi => ?_
  exact (h.untouched _ (needle_mem name) i (occurs_of_mem _ hi)).definitionAt h.le_length h.opening h.brace_lt py block

theorem macroIndex (h : LeavesAlone name text block p start brace) {argc : ℕ} (hargc : argc ∈ List.range 7) :
    VpnHide.macroIndex (insertAt text p block) name argc =
      (VpnHide.macroIndex text name argc).map (shift p block.length) := by
  have hspares := h.spares _ (syscallMacro_mem name hargc)
  have hne := syscallMacro_ne_nil name argc
  have hzero : ∀ i, Occurs (syscallMacro name argc) text i → (0 ≤ i ↔ 0 ≤ shift p block.length i) := by simp
  rw [VpnHide.macroIndex, VpnHide.macroIndex, findFrom_insertAt hspares hne h.le_length hzero]
  cases findFrom (syscallMacro name argc) text 0 with
  | none => rfl
  | some index =>
    have hnext : ∀ i, Occurs (syscallMacro name argc) text i →
        (index + 1 ≤ i ↔ shift p block.length index + 1 ≤ shift p block.length i) :=
      fun i _ => (shift_strictMono p block.length).lt_iff_lt.symm
    rw [Option.map_some, Option.filter_some, Option.filter_some, findFrom_insertAt hspares hne h.le_length hnext,
      Option.isNone_map]
    split_ifs <;> rfl

theorem macroIndices (h : LeavesAlone name text block p start brace) :
    VpnHide.macroIndices (insertAt text p block) name =
      (VpnHide.macroIndices text name).map (shift p block.length) := by
  rw [VpnHide.macroIndices, VpnHide.macroIndices, List.map_filterMap]
  exact List.filterMap_congr fun argc hargc => h.macroIndex hargc

theorem occurs_of_mem_macroIndices {index : ℕ} (h : index ∈ VpnHide.macroIndices text name) :
    ∃ pattern ∈ patterns name, Occurs pattern text index := by
  obtain ⟨argc, hargc, hindex⟩ := List.mem_filterMap.1 h
  exact ⟨_, syscallMacro_mem name hargc, (findFrom_eq_some.1 (Option.filter_eq_some_iff.1 hindex).1).1.occurs⟩

theorem allStarts (h : LeavesAlone name text block p start brace) (py : CharClasses) :
    VpnHide.allStarts py (insertAt text p block) name =
      (VpnHide.allStarts py text name).map (Prod.map (shift p block.length) (shift p block.length)) := by
  have hmem := @occurs_of_mem_macroIndices name text
  rw [VpnHide.allStarts, VpnHide.allStarts, h.functionStarts py, h.macroIndices, List.length_map]
  split_ifs
  · match hindices : VpnHide.macroIndices text name with
    | [] => rfl
    | _ :: _ :: _ => rfl
    | [index] =>
      obtain ⟨pattern, hpattern, hoccurs⟩ := hmem (hindices ▸ List.mem_singleton_self index)
      have hopen := (h.untouched pattern hpattern index hoccurs).openingBrace h.le_length h.opening h.brace_lt block
      simp only [List.map_cons, List.map_nil, List.map_append, hopen]
      cases VpnHide.openingBrace text index <;> rfl
  · rfl

end LeavesAlone

theorem functionSpan_eq_ok {py : CharClasses} {text name : Text} {start stop : ℕ} :
    functionSpan py text name = .ok (start, stop) ↔
      ∃ brace n, allStarts py text name = [(start, brace)] ∧ matchBrace (text.drop brace) 0 = some n ∧
        brace + n = stop := by
  unfold functionSpan
  match hstarts : allStarts py text name with
  | [] => simp
  | _ :: _ :: _ => simp
  | [(start', brace)] =>
    dsimp only
    cases hmatch : matchBrace (text.drop brace) 0 with
    | none =>
      constructor
      · rintro ⟨⟩
      · rintro ⟨brace', n, hpair, hmatch', -⟩
        obtain ⟨rfl, rfl⟩ := Prod.mk.inj (List.singleton_injective hpair)
        rw [hmatch] at hmatch'
        cases hmatch'
    | some n =>
      constructor
      · intro h
        obtain ⟨rfl, rfl⟩ := Prod.mk.inj (Except.ok.inj h)
        exact ⟨brace, n, rfl, hmatch, rfl⟩
      · rintro ⟨brace', n', hpair, hmatch', rfl⟩
        obtain ⟨rfl, rfl⟩ := Prod.mk.inj (List.singleton_injective hpair)
        rw [hmatch] at hmatch'
        obtain rfl := Option.some.inj hmatch'
        rfl

theorem findFrom_of_allStarts {py : CharClasses} {text name : Text} {start brace : ℕ}
    (h : allStarts py text name = [(start, brace)]) : findFrom ['{'] text start = some brace := by
  have hopening : openingBrace text start = some brace := by
    unfold allStarts at h
    dsimp only at h
    split_ifs at h with hlen
    · -- the name alone has not decided, so the only start is that of the macro
      split at h
      · rename_i index _
        cases hopen : openingBrace text index with
        | none =>
          rw [hopen, Option.map_none, Option.toList_none, List.append_nil] at h
          rw [h] at hlen
          exact absurd rfl hlen
        | some b =>
          rw [hopen, Option.map_some, Option.toList_some] at h
          have hlast := congrArg List.getLast? h
          rw [List.getLast?_concat] at hlast
          obtain ⟨rfl, rfl⟩ := Prod.mk.inj (Option.some.inj hlast)
          exact hopen
      · rw [h] at hlen
        exact absurd rfl hlen
    · have hmem : (start, brace) ∈ functionStarts py text name := by
        rw [h]
        exact List.mem_singleton_self _
      obtain ⟨i, -, hi⟩ := List.mem_filterMap.1 hmem
      unfold definitionAt at hi
      split_ifs at hi
      obtain ⟨b, hb, hpair⟩ := Option.map_eq_some_iff.1 hi
      obtain ⟨rfl, rfl⟩ := Prod.mk.inj hpair
      exact hb
  exact (Option.filter_eq_some_iff.1 hopening).1

theorem matchBrace_le_length {text : Text} {depth : ℤ} {n : ℕ} (h : matchBrace text depth = some n) :
    n ≤ text.length := by
  induction text generalizing depth n with
  | nil => cases h
  | cons c text ih =>
    rw [matchBrace_cons] at h
    rw [List.length_cons]
    split_ifs at h
    · obtain rfl := Option.some.inj h
      omega
    · obtain ⟨m, hm, rfl⟩ := Option.map_eq_some_iff.1 h
      have := ih hm
      omega

theorem drop_insertAt_of_le {text block : Text} {p i : ℕ} (hp : p ≤ text.length) (hi : i ≤ p) :
    (insertAt text p block).drop i = insertAt (text.drop i) (p - i) block := by
  have hlen : i ≤ (text.take p).length := by
    rw [List.length_take]
    omega
  rw [insertAt, insertAt, List.append_assoc, List.drop_append_of_le_length hlen, List.drop_take, List.drop_drop,
    Nat.add_sub_cancel' hi, List.append_assoc]

theorem LeavesAlone.functionSpan {py : CharClasses} {name text block : Text} {p start stop brace : ℕ}
    (h : LeavesAlone name text block p start brace) (hspan : functionSpan py text name = .ok (start, stop))
    (hstop : p < stop)
    (hblock : Balanced block) :
    VpnHide.functionSpan py (insertAt text p block) name = .ok (start, stop + block.length) := by
  obtain ⟨brace', n, hstarts, hmatch, rfl⟩ := functionSpan_eq_ok.1 hspan
  obtain rfl : brace = brace' := Option.some.inj (h.opening.symm.trans (findFrom_of_allStarts hstarts))
  have hlt := h.brace_lt
  have hle := (findFrom_eq_some.1 h.opening).1.offset_le
  refine functionSpan_eq_ok.2 ⟨brace, n + block.length, ?_, ?_, by omega⟩
  · rw [h.allStarts py, hstarts, List.map_singleton, Prod.map_apply, shift_of_lt (by omega), shift_of_lt hlt]
  · obtain ⟨rest, hrest⟩ := (findFrom_eq_some.1 h.opening).1.occurs
    obtain ⟨k, hk⟩ : ∃ k, p - brace = k + 1 := ⟨p - brace - 1, by omega⟩
    rw [← hrest, List.singleton_append, matchBrace, if_pos rfl] at hmatch
    obtain ⟨m, hm, rfl⟩ := Option.map_eq_some_iff.1 hmatch
    rw [← List.take_append_drop k rest] at hm
    have hfront : (rest.take k).length < m := Nat.lt_of_le_of_lt (List.length_take_le ..) (by omega)
    rw [drop_insertAt_of_le h.le_length (Nat.le_of_lt hlt), ← hrest, hk, insertAt, List.singleton_append,
      List.take_succ_cons, List.drop_succ_cons, List.append_assoc, List.cons_append, matchBrace, if_pos rfl,
      matchBrace_insert hm (by decide) hfront hblock, Option.map_some]
    congr 1
    omega

/-! ### The main result -/

theorem openBrace_notMem_patterns {name pattern : Text}
    (hname : '{' ∉ name) (h : pattern ∈ patterns name) : '{' ∉ pattern := by
  rw [patterns, List.mem_cons, List.mem_map] at h
  rcases h with rfl | ⟨argc, hargc, rfl⟩
  · simpa [needle] using hname
  · have hdigits : ∀ argc ∈ List.range 7, '{' ∉ "SYSCALL_DEFINE".toList ++ Nat.toDigits 10 argc := by decide
    have hrest : '{' ∉ '(' :: (name ++ [',']) := by simpa using hname
    intro hmem
    rcases List.mem_append.1 hmem with hmem | hmem
    · exact hdigits argc hargc hmem
    · exact hrest hmem

theorem add_length_le_of_notMem {text pattern : Text} {start brace : ℕ} (hoccurs : Occurs pattern text start)
    (hpattern : '{' ∉ pattern) (hbrace : findFrom ['{'] text start = some brace) : start + pattern.length ≤ brace := by
  obtain ⟨hle, -, hopen⟩ := (findFrom_eq_some.1 hbrace).1
  by_contra hlt
  obtain ⟨rest, hrest⟩ := hoccurs
  have hdrop : text.drop brace = pattern.drop (brace - start) ++ rest := by
    rw [← Nat.add_sub_cancel' hle, ← List.drop_drop, ← hrest, List.drop_append_of_le_length (by omega),
      Nat.add_sub_cancel_left]
  rw [Occurs, hdrop, List.drop_eq_getElem_cons (by omega)] at hopen
  obtain ⟨heq, -⟩ := List.cons_prefix_cons.1 hopen
  exact hpattern (heq ▸ List.getElem_mem _)

namespace Insertion
variable {py : CharClasses} {args : Insertion} {text : Text} {start stop index : ℕ}

theorem Fits.leavesAlone (h : args.Fits py text start stop) (hstop : stop ≤ text.length)
    (hindex : findFrom args.anchor (textSlice text start stop) 0 = some index) :
    ∃ brace, LeavesAlone args.function text args.block (args.place start index) start brace ∧
      args.place start index < stop := by
  obtain ⟨brace, hopen, hbefore, hafter⟩ := h.inside index hindex
  have hplace : brace < args.place start index ∧ args.place start index < stop := by
    unfold place
    split_ifs <;> omega
  have hstart := (findFrom_eq_some.1 hopen).1.offset_le
  -- an occurrence that is not the definition is on a line in front of the span or on one behind it
  have hother {pattern : Text} (hpattern : pattern ∈ patterns args.function) {i : ℕ} (hi : Occurs pattern text i)
      (hne : i ≠ start) :
      i + pattern.length ≤ start ∨ lineOf text (args.place start index) < lineOf text i := by
    have hline := mt (h.alone pattern hpattern i hi) hne
    rw [OnSpanLine, not_and_or, not_le, not_le] at hline
    rcases hline with hline | hline
    · exact .inr (Nat.lt_of_le_of_lt (lineOf_le_of_le text (by omega)) hline)
    · have := lt_of_lineOf_lt hline
      exact .inl (by omega)
  refine ⟨brace, ⟨by omega, hopen, hplace.1, ?_, ?_⟩, hplace.2⟩
  · intro pattern hpattern
    refine ⟨fun i hi => ?_, h.outside index hindex pattern hpattern⟩
    by_cases hne : i = start
    · subst hne
      have := add_length_le_of_notMem hi (openBrace_notMem_patterns h.name hpattern) hopen
      exact .inl (by omega)
    · rcases hother hpattern hi hne with hi | hline
      · exact .inl (by omega)
      · exact .inr (Nat.le_of_lt (lt_of_lineOf_lt hline))
  · intro pattern hpattern i hi
    by_cases hne : i = start
    · exact .inl (Nat.le_of_eq hne)
    · rcases hother hpattern hi hne with hi | hline
      · exact .inl (by omega)
      · exact .inr ⟨lt_of_lineOf_lt hline, newline_mem_of_lineOf_lt hline⟩

end Insertion

theorem le_length_of_functionSpan {py : CharClasses} {text name : Text} {start stop : ℕ}
    (h : functionSpan py text name = .ok (start, stop)) : stop ≤ text.length := by
  obtain ⟨brace, n, hstarts, hmatch, rfl⟩ := functionSpan_eq_ok.1 h
  have hlen := matchBrace_le_length hmatch
  have hbrace := (findFrom_eq_some.1 (findFrom_of_allStarts hstarts)).1.le_length
  rw [List.length_drop] at hlen
  omega

theorem block_infix_textSlice {text block : Text} {p start stop : ℕ} (hp : p ≤ text.length) (hstart : start ≤ p)
    (hstop : p ≤ stop) :
    block <:+: textSlice (insertAt text p block) start (stop + block.length) := by
  have hfront : start ≤ (text.take p).length := by
    rw [List.length_take]
    omega
  have htake : (insertAt text p block).take (stop + block.length) =
      text.take p ++ (block ++ (text.drop p).take (stop - p)) := by
    have hlen : (text.take p ++ block).length = p + block.length := by
      rw [List.length_append, List.length_take, Nat.min_eq_left hp]
    rw [insertAt, show stop + block.length = (text.take p ++ block).length + (stop - p) by omega,
      List.take_length_add_append, List.append_assoc]
  rw [textSlice, htake, List.drop_append_of_le_length hfront]
  exact (List.prefix_append ..).isInfix.trans (List.suffix_append ..).isInfix

theorem insertInFunction_of_text {py : CharClasses} {args : Insertion} {files : Files} {text : Text} {start stop : ℕ}
    (htext : files args.relpath = some text) (hspan : functionSpan py text args.function = .ok (start, stop)) :
    insertInFunction py args files =
      if args.markerText py <:+: textSlice text start stop then (.ok (), files)
      else if countIn args.anchor (textSlice text start stop) ≠ 1 then
        (.error (.anchors args.relpath args.function args.anchor (countIn args.anchor (textSlice text start stop))),
          files)
      else (.ok (), Function.update files args.relpath
        (some (insertAt text
          (args.place start ((findFrom args.anchor (textSlice text start stop) 0).getD 0)) args.block))) := by
  unfold insertInFunction
  simp only [htext, hspan, findFrom_isSome_iff]

theorem insertInFunction_error {py : CharClasses} {args : Insertion} {files : Files} {e : InjectError}
    (h : (insertInFunction py args files).1 = .error e) : (insertInFunction py args files).2 = files := by
  cases htext : files args.relpath with
  | none =>
    unfold insertInFunction
    simp only [htext]
  | some text =>
    rcases hspan : functionSpan py text args.function with e' | ⟨start, stop⟩
    · unfold insertInFunction
      simp only [htext, hspan]
    · rw [insertInFunction_of_text htext hspan] at h ⊢
      split_ifs at h ⊢
      rfl

theorem balanced_iff (block : Text) :
    Balanced block ↔ (∀ k < block.length + 1, 0 ≤ netDepth (block.take k)) ∧ netDepth block = 0 := by
  constructor
  · intro h
    exact ⟨fun k _ => h.nonneg k, h.settled⟩
  · rintro ⟨hnonneg, hsettled⟩
    refine ⟨fun k => ?_, hsettled⟩
    rcases Nat.lt_or_ge k (block.length + 1) with hk | hk
    · exact hnonneg k hk
    · rw [List.take_of_length_le (by omega), hsettled]

theorem forall_occurs {pattern text : Text} {P : ℕ → Prop}
    (h : pattern ≠ [] ∧ ∀ i < text.length, Occurs pattern text i → P i) : ∀ i, Occurs pattern text i → P i := by
  intro i hi
  have hlen := hi.add_length_le h.1
  have hpos := List.length_pos_iff.2 h.1
  exact h.2 i (by omega) hi

instance (pattern text : Text) (i : ℕ) : Decidable (Occurs pattern text i) := inferInstanceAs (Decidable (_ <+: _))

instance (text : Text) (start stop i n : ℕ) : Decidable (OnSpanLine text start stop i n) :=
  inferInstanceAs (Decidable (_ ∧ _))

def asciiClasses : CharClasses := ⟨Char.isAlphanum, Char.isWhitespace⟩

def sampleSource : Text := "int g(void);\nstatic int f(void)\n\x7b\n\tg();\n\x7d\n".toList

def sampleInsertion : Insertion :=
  ⟨"net/core.c", "f".toList, "g();".toList, "if (x) \x7b h(); \x7d\n\t".toList, true, none⟩

def sampleFiles : Files := fun _ => some sampleSource

theorem functionSpan_sample : functionSpan asciiClasses sampleSource sampleInsertion.function = .ok (24, 41) := by
  refine functionSpan_eq_ok.2 ⟨32, 9, ?_, ?_, rfl⟩
  · decide +kernel
  · decide +kernel

theorem findFrom_sample :
    findFrom sampleInsertion.anchor (textSlice sampleSource 24 41) 0 = some 11 := by decide +kernel

theorem sampleInsertion_fits : sampleInsertion.Fits asciiClasses sampleSource 24 41 where
  name := by decide
  marker := by decide +kernel
  balanced := (balanced_iff _).2 (by decide +kernel)
  inside := by
    intro index hindex
    obtain rfl : 11 = index := Option.some.inj (findFrom_sample.symm.trans hindex)
    exact ⟨32, by decide +kernel, by decide, by decide⟩
  alone := by
    have hall : ∀ pattern ∈ patterns sampleInsertion.function, pattern ≠ [] ∧ ∀ i < sampleSource.length,
        Occurs pattern sampleSource i → OnSpanLine sampleSource 24 41 i pattern.length → i = 24 := by decide +kernel
    exact fun pattern hpattern => forall_occurs (hall pattern hpattern)
  outside := by
    intro index hindex
    obtain rfl : 11 = index := Option.some.inj (findFrom_sample.symm.trans hindex)
    have hall : ∀ pattern ∈ patterns sampleInsertion.function, pattern ≠ [] ∧
        ∀ j < (insertAt sampleSource (sampleInsertion.place 24 11) sampleInsertion.block).length,
          Occurs pattern (insertAt sampleSource (sampleInsertion.place 24 11) sampleInsertion.block) j →
          j + pattern.length ≤ sampleInsertion.place 24 11 ∨
            sampleInsertion.place 24 11 + sampleInsertion.block.length ≤ j := by decide +kernel
    exact fun pattern hpattern => forall_occurs (hall pattern hpattern)

end VpnHide
