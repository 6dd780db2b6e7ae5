import Mathlib.Data.List.TakeWhile
import VpnHide.Stats
import VpnHide.Lib.CString
import VpnHide.Lib.LineFilter

/-!
# The fib_trie filter (`fib_trie_ret`)

The hook on `fib_trie_seq_show` drops the lines of a seq buffer that name an active VPN interface. The scanner skips
tree decoration and reads one word after the other, but it makes no progress at a newline or a slash. So it ends only on
a line that it drops before it gets there, or on a last line that has neither (`lineHasVpn_eq`).
-/

namespace VpnHide

def maxActiveVpns : ℕ := 16

/-- The names of `struct vpnhide_active_vpns`. -/
structure ActiveVpns where
  names : List (Vector UInt8 maxIfaceLen)
  length_le : names.length ≤ maxActiveVpns

/-- `is_active_vpn_ifname`, with the current `global_active_vpns`. -/
def isActiveVpnIfname (vpns : Option ActiveVpns) (name : List UInt8) : Bool :=
  if name.headD 0 = 0 then false
  else match vpns with
    | none => false
    | some vpns => vpns.names.any fun vpn => strncmpEq maxIfaceLen vpn.toList name

/-- The buffer of a `struct seq_file`: the `count` bytes written so far and the room behind them. -/
structure SeqFile where
  contents : List UInt8
  room : List UInt8
  deriving DecidableEq, Repr

/-! ### The scanner -/

/-- The bytes skipped in front of a word. -/
def isDecoration (c : UInt8) : Bool :=
  c == ' '.toUInt8 || c == '\t'.toUInt8 || c == '|'.toUInt8 || c == '+'.toUInt8 || c == '-'.toUInt8

/-- The bytes of a word. -/
def isWordByte (c : UInt8) : Bool :=
  c != ' '.toUInt8 && c != '\t'.toUInt8 && c != '\n'.toUInt8 && c != '/'.toUInt8 && c != '|'.toUInt8

/-- The word read at `p`, cut to the size of the array. -/
def readWord (p : List UInt8) : List UInt8 := (p.takeWhile isWordByte).take (ifNamSiz - 1)

/-- The loop over the words of a line, from `p` to the end of the line. -/
def lineHasVpn (vpns : Option ActiveVpns) : ℕ → List UInt8 → Option Bool
  | 0, _ => none
  | fuel + 1, p =>
    if p = [] then some false
    else
      let p := p.dropWhile isDecoration
      let word := readWord p
      if word ≠ [] ∧ isActiveVpnIfname vpns word then some true
      else lineHasVpn vpns fuel (p.drop word.length)

/-- What the hooks on lines have in common. The check gives no answer while its loops have not ended. -/
def seqFilterRet (fuel : ℕ) (check : List UInt8 → Option Bool) (uid : UInt32) (startCount : ℕ) (seq : Option SeqFile)
    (stats : StatsTable) : Option (Option SeqFile × StatsTable) :=
  match seq with
  | none => some (none, stats)
  | some seq =>
    if seq.contents.length ≤ startCount then some (some seq, stats)
    else
      (filterLoop '\n'.toUInt8 check (fun stats => recordKmodIntercept stats uid 2) seq.contents.length fuel
        (seq.contents ++ seq.room) startCount startCount stats).map
        fun (buf, dst, stats) => (some ⟨buf.take dst, buf.drop dst⟩, stats)

/-- `fib_trie_ret`; the result is `none` while the loops have not ended. A missing file or buffer is `none`. -/
def fibTrieRet (fuel : ℕ) (vpns : Option ActiveVpns) (uid : UInt32) (startCount : ℕ) (seq : Option SeqFile)
    (stats : StatsTable) : Option (Option SeqFile × StatsTable) :=
  seqFilterRet fuel (lineHasVpn vpns fuel) uid startCount seq stats

/-! ### Words -/

def isSign (c : UInt8) : Bool := c == '+'.toUInt8 || c == '-'.toUInt8

/-- The words of a line: the runs free of blanks, bars, slashes and newlines, without signs in front. -/
def lineWords (line : List UInt8) : List (List UInt8) :=
  (line.splitOnP fun c => !isWordByte c).map (List.dropWhile isSign)

/-- The word is the name of an active VPN. -/
def ActiveName (vpns : Option ActiveVpns) (word : List UInt8) : Prop :=
  word ≠ [] ∧ ∃ active, vpns = some active ∧ ∃ name ∈ active.names, cstr name.toList = word

instance (vpns : Option ActiveVpns) (word : List UInt8) : Decidable (ActiveName vpns word) :=
  match vpns with
  | none => .isFalse fun ⟨_, _, h, _⟩ => by cases h
  | some active => decidable_of_iff (word ≠ [] ∧ ∃ name ∈ active.names, cstr name.toList = word)
      ⟨fun ⟨hne, h⟩ => ⟨hne, active, rfl, h⟩, fun ⟨hne, _, heq, h⟩ => ⟨hne, by cases heq; exact h⟩⟩

theorem isActiveVpnIfname_iff {vpns : Option ActiveVpns} {name : List UInt8} (h : name.length ≤ maxIfaceLen) :
    isActiveVpnIfname vpns name ↔ ActiveName vpns (cstr name) := by
  have hname : name.take maxIfaceLen = name := List.take_of_length_le h
  have hvpn (vpn : Vector UInt8 maxIfaceLen) : vpn.toList.take maxIfaceLen = vpn.toList :=
    List.take_of_length_le (by simp)
  unfold isActiveVpnIfname ActiveName
  by_cases hnil : name.headD 0 = 0
  · rw [if_pos hnil]
    exact iff_of_false Bool.false_ne_true fun hactive => hactive.1 (cstr_eq_nil.2 hnil)
  · rw [if_neg hnil]
    have hne : cstr name ≠ [] := mt cstr_eq_nil.1 hnil
    cases vpns with
    | none => exact iff_of_false Bool.false_ne_true fun ⟨_, _, hnone, _⟩ => by cases hnone
    | some vpns => simp [strncmpEq_iff, hname, hvpn, hne]

def namesVpn (vpns : Option ActiveVpns) (line : List UInt8) : Bool :=
  (lineWords line).any fun word => ActiveName vpns word

/-- The bytes at which the scanner makes no progress. -/
def isStop (c : UInt8) : Bool := c == '/'.toUInt8 || c == '\n'.toUInt8

/-- A run as it is read: in pieces of at most fifteen bytes, without signs in front of a piece. -/
def pieces (run : List UInt8) : List (List UInt8) :=
  if run.dropWhile isSign = [] then []
  else (run.dropWhile isSign).take (ifNamSiz - 1) :: pieces ((run.dropWhile isSign).drop (ifNamSiz - 1))
termination_by run.length
decreasing_by
  have hle := (run.dropWhile_suffix isSign).length_le
  have hpos := List.length_pos_iff.2 ‹_›
  rw [List.length_drop, ifNamSiz]
  omega

/-- The words read in front of the first slash or newline. -/
def scannedWords (line : List UInt8) : List (List UInt8) :=
  ((line.takeWhile fun c => !isStop c).splitOnP fun c => !isWordByte c).flatMap pieces

section Bytes
variable {c : UInt8}

theorem isDecoration_iff : isDecoration c ↔ isSign c ∨ ¬ isWordByte c ∧ ¬ isStop c := by
  unfold isDecoration isSign isWordByte isStop
  simp only [Bool.or_eq_true, beq_iff_eq, Bool.and_eq_true, bne_iff_ne]
  constructor
  · rintro ((((rfl | rfl) | rfl) | rfl) | rfl) <;> decide
  · tauto

theorem not_isWordByte_of_isStop (h : isStop c) : ¬ isWordByte c := by
  unfold isStop at h
  unfold isWordByte
  simp only [Bool.or_eq_true, beq_iff_eq] at h
  rcases h with rfl | rfl <;> decide

theorem isWordByte_of_isSign (h : isSign c) : isWordByte c := by
  unfold isSign at h
  unfold isWordByte
  simp only [Bool.or_eq_true, beq_iff_eq] at h
  rcases h with rfl | rfl <;> decide

theorem not_isStop_of_isWordByte (h : isWordByte c) : ¬ isStop c := fun hstop => not_isWordByte_of_isStop hstop h

theorem not_isStop_of_isDecoration (h : isDecoration c) : ¬ isStop c := by
  rcases isDecoration_iff.1 h with hsign | ⟨-, hstop⟩
  · exact not_isStop_of_isWordByte (isWordByte_of_isSign hsign)
  · exact hstop

end Bytes

section Pieces
variable {c : UInt8} {run : List UInt8}

theorem pieces_nil : pieces [] = [] := by
  rw [pieces, List.dropWhile_nil, if_pos rfl]

theorem pieces_cons_of_isSign (h : isSign c) : pieces (c :: run) = pieces run := by
  rw [pieces.eq_def (c :: run), pieces.eq_def run, List.dropWhile_cons_of_pos h]

theorem pieces_append {word rest : List UInt8} (hhead : ¬ isSign c) (hlen : (c :: word).length ≤ ifNamSiz - 1)
    (hend : (c :: word).length < ifNamSiz - 1 → rest = []) :
    pieces (c :: word ++ rest) = (c :: word) :: pieces rest := by
  have hkeep : (c :: word ++ rest).dropWhile isSign = c :: word ++ rest := List.dropWhile_cons_of_neg hhead
  rw [pieces, hkeep, if_neg (by simp)]
  rcases Nat.lt_or_eq_of_le hlen with hlt | heq
  · rw [hend hlt, List.append_nil, List.take_of_length_le hlen, List.drop_eq_nil_of_le hlen]
  · rw [← heq, List.take_left, List.drop_left]

end Pieces

/-! ### The words that are read -/

theorem splitOnP_append_of_forall {α : Type} {p : α → Bool} {front : List α} (h : ∀ x ∈ front, p x = false)
    (xs : List α) :
    (front ++ xs).splitOnP p = (xs.splitOnP p).modifyHead (front ++ ·) := by
  induction front with
  | nil =>
    rw [List.nil_append]
    cases xs.splitOnP p <;> rfl
  | cons x front ih =>
    obtain ⟨hx, hfront⟩ := List.forall_mem_cons.1 h
    rw [List.cons_append, List.splitOnP_cons_eq_if_modifyHead, if_neg (by simp [hx]), ih hfront,
      List.modifyHead_modifyHead]
    rfl

theorem head_of_dropWhile {α : Type} {p : α → Bool} {xs : List α} {x : α} {rest : List α}
    (h : xs.dropWhile p = x :: rest) :
    p x = false := by
  have hhead := xs.head?_dropWhile_not p
  rw [h] at hhead
  exact hhead

section Scanned
variable {c : UInt8} {p : List UInt8}

theorem scannedWords_nil : scannedWords [] = [] := by
  simp [scannedWords, List.splitOnP_nil, pieces_nil]

theorem scannedWords_cons_of_isStop (h : isStop c) : scannedWords (c :: p) = [] := by
  rw [scannedWords, List.takeWhile_cons_of_neg (by simp [h])]
  exact scannedWords_nil

theorem scannedWords_cons_of_isDecoration (h : isDecoration c) : scannedWords (c :: p) = scannedWords p := by
  have hstop := not_isStop_of_isDecoration h
  rw [scannedWords, List.takeWhile_cons_of_pos (by simpa using hstop), List.splitOnP_cons_eq_if_modifyHead]
  rcases isDecoration_iff.1 h with hsign | ⟨hword, -⟩
  · -- a sign goes with the run behind it
    rw [if_neg (by simp [isWordByte_of_isSign hsign]), scannedWords]
    cases (p.takeWhile fun c => !isStop c).splitOnP fun c => !isWordByte c with
    | nil => rfl
    | cons run runs =>
      rw [List.modifyHead_cons, List.flatMap_cons, List.flatMap_cons, pieces_cons_of_isSign hsign]
  · rw [if_pos (by simpa using hword), List.flatMap_cons, pieces_nil]
    rfl

theorem scannedWords_dropWhile (p : List UInt8) : scannedWords (p.dropWhile isDecoration) = scannedWords p := by
  induction p with
  | nil => rfl
  | cons c p ih =>
    by_cases hc : isDecoration c
    · rw [List.dropWhile_cons_of_pos hc, ih, scannedWords_cons_of_isDecoration hc]
    · rw [List.dropWhile_cons_of_neg hc]

/-- Where the text does not go on with a word, its first run is empty. -/
theorem splitOnP_of_head {p : List UInt8} (h : ∀ c q, p = c :: q → ¬ isWordByte c) :
    ∃ runs, ((p.takeWhile fun c => !isStop c).splitOnP fun c => !isWordByte c) = [] :: runs := by
  cases p with
  | nil => exact ⟨[], rfl⟩
  | cons c q =>
    by_cases hc : isStop c
    · rw [List.takeWhile_cons_of_neg (by simp [hc])]
      exact ⟨[], rfl⟩
    · rw [List.takeWhile_cons_of_pos (by simpa using hc), List.splitOnP_cons_eq_if_modifyHead,
        if_pos (by simpa using h c q rfl)]
      exact ⟨_, rfl⟩

theorem readWord_append (p : List UInt8) : readWord p ++ p.drop (readWord p).length = p := by
  have hprefix : readWord p <+: p := (List.take_prefix ..).trans (List.takeWhile_prefix _)
  exact List.prefix_iff_eq_append.1 hprefix

theorem isWordByte_of_mem_readWord {b : UInt8} (h : b ∈ readWord p) : isWordByte b :=
  List.mem_takeWhile_imp (List.mem_of_mem_take h)

theorem readWord_end (hlt : (readWord p).length < ifNamSiz - 1) {b : UInt8} {q : List UInt8}
    (h : p.drop (readWord p).length = b :: q) : ¬ isWordByte b := by
  have hword : readWord p = p.takeWhile isWordByte := by
    rw [readWord, List.length_take] at hlt
    rw [readWord, List.take_of_length_le (by omega)]
  have hsplit := List.takeWhile_append_dropWhile (p := isWordByte) (l := p)
  have hdrop : p.drop (p.takeWhile isWordByte).length = p.dropWhile isWordByte :=
    calc p.drop (p.takeWhile isWordByte).length
      _ = (p.takeWhile isWordByte ++ p.dropWhile isWordByte).drop (p.takeWhile isWordByte).length := by rw [hsplit]
      _ = p.dropWhile isWordByte := List.drop_left
  rw [hword, hdrop] at h
  exact Bool.eq_false_iff.1 (head_of_dropWhile h)

/-- At a byte that is neither skipped nor a stop, a word is read. -/
theorem scannedWords_readWord (hdeco : ¬ isDecoration c) (hstop : ¬ isStop c) (q : List UInt8) :
    readWord (c :: q) ≠ [] ∧
      scannedWords (c :: q) = readWord (c :: q) :: scannedWords ((c :: q).drop (readWord (c :: q)).length) := by
  have hc : isWordByte c := by
    by_contra hc
    exact hdeco (isDecoration_iff.2 (.inr ⟨hc, hstop⟩))
  have hsign : ¬ isSign c := fun h => hdeco (isDecoration_iff.2 (.inl h))
  obtain ⟨word, hword⟩ : ∃ word, readWord (c :: q) = c :: word := by
    rw [readWord, List.takeWhile_cons_of_pos hc]
    exact ⟨_, rfl⟩
  refine ⟨by simp [hword], ?_⟩
  have hbyte : ∀ b ∈ readWord (c :: q), isWordByte b := fun b => isWordByte_of_mem_readWord
  have hlen : (readWord (c :: q)).length ≤ ifNamSiz - 1 := List.length_take_le ..
  have hend : (readWord (c :: q)).length < ifNamSiz - 1 →
      ∀ b r, (c :: q).drop (readWord (c :: q)).length = b :: r → ¬ isWordByte b := fun hlt b r h => readWord_end hlt h
  have hsplit := readWord_append (c :: q)
  revert hsplit hend
  generalize (c :: q).drop (readWord (c :: q)).length = rest
  intro hend hsplit
  rw [hword] at hsplit hend hlen hbyte ⊢
  rw [← hsplit]
  have hstops : ∀ b ∈ c :: word, (!isStop b) = true := fun b hb => by
    simpa using not_isStop_of_isWordByte (hbyte b hb)
  have hbreak : ∀ b ∈ c :: word, (!isWordByte b) = false := fun b hb => by simp [hbyte b hb]
  rw [scannedWords, List.takeWhile_append_of_pos hstops, splitOnP_append_of_forall hbreak, scannedWords]
  cases hruns : (rest.takeWhile fun c => !isStop c).splitOnP fun c => !isWordByte c with
  | nil => exact absurd hruns (List.splitOnP_ne_nil _ _)
  | cons run runs =>
    rw [List.modifyHead_cons, List.flatMap_cons, List.flatMap_cons, pieces_append hsign hlen, List.cons_append]
    intro hlt
    obtain ⟨runs', hruns'⟩ := splitOnP_of_head (hend hlt)
    rw [hruns] at hruns'
    exact (List.cons.inj hruns').1

end Scanned

/-! ### One line -/

/-- What the scanner says of a line: none, if it does not end. -/
def lineVerdict (vpns : Option ActiveVpns) (line : List UInt8) : Option Bool :=
  if (scannedWords line).any (isActiveVpnIfname vpns) then some true
  else if line.any isStop then none
  else some false

section Line
variable {vpns : Option ActiveVpns} {p : List UInt8}

theorem lineHasVpn_succ (hp : p ≠ []) (n : ℕ) :
    lineHasVpn vpns (n + 1) p =
      if readWord (p.dropWhile isDecoration) ≠ [] ∧
        isActiveVpnIfname vpns (readWord (p.dropWhile isDecoration)) then some true
      else lineHasVpn vpns n ((p.dropWhile isDecoration).drop (readWord (p.dropWhile isDecoration)).length) := by
  rw [lineHasVpn, if_neg hp]

theorem readWord_of_isStop {c : UInt8} (h : isStop c) (q : List UInt8) : readWord (c :: q) = [] := by
  rw [readWord, List.takeWhile_cons_of_neg (not_isWordByte_of_isStop h), List.take_nil]

/-- At a slash or a newline the scanner stands still. -/
theorem lineHasVpn_stop {c : UInt8} (h : isStop c) (q : List UInt8) (n : ℕ) : lineHasVpn vpns n (c :: q) = none := by
  induction n with
  | zero => rfl
  | succ n ih =>
    have hdeco : ¬ isDecoration c := fun hdeco => not_isStop_of_isDecoration hdeco h
    rw [lineHasVpn_succ (by simp), List.dropWhile_cons_of_neg hdeco, readWord_of_isStop h, if_neg (by simp)]
    exact ih

theorem lineVerdict_dropWhile (vpns : Option ActiveVpns) (p : List UInt8) :
    lineVerdict vpns (p.dropWhile isDecoration) = lineVerdict vpns p := by
  have hstop : (p.takeWhile isDecoration).any isStop = false := by
    rw [List.any_eq_false]
    exact fun c hc => not_isStop_of_isDecoration (List.mem_takeWhile_imp hc)
  have hany : (p.dropWhile isDecoration).any isStop = p.any isStop := by
    conv_rhs => rw [← List.takeWhile_append_dropWhile (p := isDecoration) (l := p), List.any_append,
      hstop, Bool.false_or]
  rw [lineVerdict, lineVerdict, scannedWords_dropWhile, hany]

/-- With a turn for each byte the loop has come to its end or stands still. -/
theorem lineHasVpn_eq {n : ℕ} (hn : p.length < n) : lineHasVpn vpns n p = lineVerdict vpns p := by
  induction n generalizing p with
  | zero => exact absurd hn (Nat.not_lt_zero _)
  | succ n ih =>
    by_cases hp : p = []
    · subst hp
      rw [lineHasVpn, if_pos rfl, lineVerdict, scannedWords_nil]
      rfl
    have hle := (p.dropWhile_suffix isDecoration).length_le
    have hpos := List.length_pos_iff.2 hp
    rw [lineHasVpn_succ hp, ← lineVerdict_dropWhile]
    cases hd : p.dropWhile isDecoration with
    | nil =>
      rw [if_neg (by simp [readWord])]
      exact ih (by simpa using by omega)
    | cons c q =>
      have hdeco : ¬ isDecoration c := Bool.eq_false_iff.1 (head_of_dropWhile hd)
      by_cases hstop : isStop c
      · rw [readWord_of_isStop hstop, if_neg (by simp)]
        refine (lineHasVpn_stop hstop q n).trans ?_
        rw [lineVerdict, scannedWords_cons_of_isStop hstop, List.any_cons, hstop]
        rfl
      · obtain ⟨hne, hscan⟩ := scannedWords_readWord hdeco hstop q
        have hword : (readWord (c :: q)).any isStop = false := by
          rw [List.any_eq_false]
          exact fun b hb => not_isStop_of_isWordByte (isWordByte_of_mem_readWord hb)
        have hlt : ((c :: q).drop (readWord (c :: q)).length).length < n := by
          have := List.length_pos_iff.2 hne
          rw [hd] at hle
          rw [List.length_drop]
          omega
        have hany : (c :: q).any isStop = ((c :: q).drop (readWord (c :: q)).length).any isStop := by
          conv_lhs => rw [← readWord_append (c :: q), List.any_append, hword, Bool.false_or]
        rw [ih hlt, lineVerdict, lineVerdict, hscan, List.any_cons, hany]
        by_cases hactive : isActiveVpnIfname vpns (readWord (c :: q))
        · rw [if_pos ⟨hne, hactive⟩, hactive]
          rfl
        · rw [if_neg fun h => hactive h.2, Bool.eq_false_iff.2 hactive, Bool.false_or]

theorem lineHasVpn_mono {n m : ℕ} (hnm : n ≤ m) {b : Bool} (h : lineHasVpn vpns n p = some b) :
    lineHasVpn vpns m p = some b := by
  induction n generalizing p m with
  | zero => cases h
  | succ n ih =>
    obtain ⟨m, rfl⟩ : ∃ m', m = m' + 1 := ⟨m - 1, by omega⟩
    by_cases hp : p = []
    · subst hp
      exact h
    rw [lineHasVpn_succ hp] at h ⊢
    split_ifs at h ⊢ with hactive
    · exact h
    · exact ih (by omega) h

theorem lineHasVpn_eq_some {n : ℕ} {b : Bool} (h : lineHasVpn vpns n p = some b) : lineVerdict vpns p = some b := by
  rw [← lineHasVpn_eq (n := n + p.length + 1) (by omega)]
  exact lineHasVpn_mono (by omega) h

end Line

/-- The line names an active VPN, and the scanner meets an active name in front of the first slash or newline; or the
line names none, the scanner meets none, and there is neither a slash nor a newline. -/
def ScansRight (vpns : Option ActiveVpns) (line : List UInt8) : Prop :=
  namesVpn vpns line ∧ (∃ word ∈ scannedWords line, isActiveVpnIfname vpns word) ∨
    ¬ namesVpn vpns line ∧ (∀ word ∈ scannedWords line, ¬ isActiveVpnIfname vpns word) ∧ ∀ c ∈ line, ¬ isStop c

theorem scansRight_iff {vpns : Option ActiveVpns} {line : List UInt8} :
    ScansRight vpns line ↔ lineVerdict vpns line = some (namesVpn vpns line) := by
  unfold ScansRight lineVerdict
  by_cases hactive : ∃ word ∈ scannedWords line, isActiveVpnIfname vpns word
  · have hnot : ¬ ∀ word ∈ scannedWords line, ¬ isActiveVpnIfname vpns word := by simpa using hactive
    rw [if_pos (List.any_eq_true.2 hactive), Option.some.injEq]
    simp only [hactive, hnot, and_true, false_and, and_false, or_false]
    exact eq_comm
  · have hall : ∀ word ∈ scannedWords line, ¬ isActiveVpnIfname vpns word := by simpa using hactive
    rw [if_neg (mt List.any_eq_true.1 hactive)]
    by_cases hstop : ∃ c ∈ line, isStop c
    · have hnot : ¬ ∀ c ∈ line, ¬ isStop c := by simpa using hstop
      rw [if_pos (List.any_eq_true.2 hstop)]
      simp only [hactive, hnot, and_false, or_self, reduceCtorEq]
    · have hfree : ∀ c ∈ line, ¬ isStop c := by simpa using hstop
      rw [if_neg (mt List.any_eq_true.1 hstop)]
      simp only [hactive, and_false, false_or, Option.some.injEq]
      exact ⟨fun h => (Bool.eq_false_iff.2 h.1).symm, fun h => ⟨Bool.eq_false_iff.1 h.symm, hall, hfree⟩⟩

/-! ### The whole buffer -/

/-- The lines shown since the start offset. -/
def SeqFile.shown (seq : SeqFile) (startCount : ℕ) : List (List UInt8) :=
  splitLines '\n'.toUInt8 (seq.contents.drop startCount)

section Buffer
variable (check : List UInt8 → Option Bool) (uid : UInt32) {startCount : ℕ} {seq : SeqFile} (stats : StatsTable)

theorem seqFilterRet_of_lt (h : startCount < seq.contents.length) (fuel : ℕ) :
    seqFilterRet fuel check uid startCount (some seq) stats =
      (filterFrom '\n'.toUInt8 check (fun stats => recordKmodIntercept stats uid 2) fuel
        (seq.contents.take startCount) [] (seq.contents.drop startCount) seq.room stats).map
        fun (buf, dst, stats) => (some ⟨buf.take dst, buf.drop dst⟩, stats) := by
  have hlen : (seq.contents.take startCount).length = startCount := by
    rw [List.length_take]
    omega
  rw [seqFilterRet, if_neg (by omega), filterFrom, List.append_nil, List.take_append_drop, hlen]

variable {check uid stats} in
theorem seqFilterRet_decides (hlt : startCount < seq.contents.length) {fuel : ℕ}
    {r : Option SeqFile × StatsTable} (h : seqFilterRet fuel check uid startCount (some seq) stats = some r) :
    (seq.shown startCount).length < fuel ∧ ∀ line ∈ seq.shown startCount, ∃ b, check line = some b := by
  rw [seqFilterRet_of_lt check uid stats hlt] at h
  obtain ⟨_, hfilter, -⟩ := Option.map_eq_some_iff.1 h
  exact filterFrom_decides hfilter

variable {check} in
theorem seqFilterRet_filters (hlt : startCount < seq.contents.length) {fuel : ℕ} {drop : List UInt8 → Bool}
    (h : ∀ line ∈ seq.shown startCount, check line = some (drop line)) (hfuel : (seq.shown startCount).length < fuel) :
    ∃ seq' stats', seqFilterRet fuel check uid startCount (some seq) stats = some (some seq', stats') ∧
      seq'.contents = seq.contents.take startCount ++
        ((seq.shown startCount).filter fun line => !drop line).flatten := by
  obtain ⟨junk, heq, -⟩ := filterFrom_eq (fun stats => recordKmodIntercept stats uid 2) h hfuel
    (seq.contents.take startCount) [] seq.room stats
  have hret := seqFilterRet_of_lt check uid stats hlt fuel
  rw [heq] at hret
  refine ⟨_, _, hret, ?_⟩
  rw [List.append_assoc _ junk, List.take_left]
  rfl

theorem SeqFile.shown_of_le (h : seq.contents.length ≤ startCount) : seq.shown startCount = [] := by
  rw [SeqFile.shown, List.drop_eq_nil_of_le h]
  rfl

end Buffer

section FibTrie
variable {vpns : Option ActiveVpns} (uid : UInt32) {startCount : ℕ} {seq : SeqFile} (stats : StatsTable)

theorem fibTrieRet_exact_iff (vpns : Option ActiveVpns) (uid : UInt32) (startCount : ℕ) (seq : SeqFile)
    (stats : StatsTable) :
    (∃ fuel seq' stats', fibTrieRet fuel vpns uid startCount (some seq) stats = some (some seq', stats') ∧
      seq'.contents = seq.contents.take startCount ++
        ((seq.shown startCount).filter fun line => !namesVpn vpns line).flatten) ↔
    ∀ line ∈ seq.shown startCount, ScansRight vpns line := by
  rcases Nat.lt_or_ge startCount seq.contents.length with hlt | hge
  swap
  · rw [SeqFile.shown_of_le hge]
    refine ⟨fun _ => by simp, fun _ => ⟨0, seq, stats, ?_, ?_⟩⟩
    · rw [fibTrieRet, seqFilterRet, if_pos hge]
    · rw [List.take_of_length_le hge]
      simp
  constructor
  · rintro ⟨fuel, seq', stats', hret, hcontents⟩ line hline
    obtain ⟨hfuel, hdecided⟩ := seqFilterRet_decides hlt hret
    have hverdict : ∀ line ∈ seq.shown startCount,
        lineHasVpn vpns fuel line = some ((lineVerdict vpns line).getD false) := by
      intro line hline
      obtain ⟨b, hb⟩ := hdecided line hline
      rw [hb, lineHasVpn_eq_some hb, Option.getD_some]
    obtain ⟨_, _, hret', hkept⟩ := seqFilterRet_filters uid stats hlt hverdict hfuel
    cases hret.symm.trans hret'
    -- what the code keeps and what it should keep are the same text, so they are the same lines
    have hsame := List.append_cancel_left (hkept.symm.trans hcontents)
    have hagree := eq_of_flatten_filter_eq hsame line hline
    obtain ⟨b, hb⟩ := hdecided line hline
    have hb := lineHasVpn_eq_some hb
    rw [hb, Option.getD_some] at hagree
    rw [scansRight_iff, hb, Bool.not_inj hagree]
  · intro h
    obtain ⟨fuel, hfuel⟩ : ∃ fuel, fuel = (seq.shown startCount).length + (seq.shown startCount).flatten.length + 1 :=
      ⟨_, rfl⟩
    have hverdict : ∀ line ∈ seq.shown startCount, lineHasVpn vpns fuel line = some (namesVpn vpns line) := by
      intro line hline
      have hlen := (List.sublist_flatten_of_mem hline).length_le
      rw [lineHasVpn_eq (by omega)]
      exact scansRight_iff.1 (h line hline)
    exact ⟨fuel, seqFilterRet_filters uid stats hlt hverdict (by omega)⟩

theorem fibTrieRet_eq_none {line : List UInt8} (hline : line ∈ seq.shown startCount) (h : lineVerdict vpns line = none)
    (fuel : ℕ) : fibTrieRet fuel vpns uid startCount (some seq) stats = none := by
  have hlt : startCount < seq.contents.length := by
    by_contra hge
    rw [SeqFile.shown_of_le (Nat.le_of_not_lt hge)] at hline
    cases hline
  by_contra hsome
  obtain ⟨r, hr⟩ := Option.ne_none_iff_exists'.1 hsome
  obtain ⟨b, hb⟩ := (seqFilterRet_decides hlt hr).2 line hline
  rw [lineHasVpn_eq_some hb] at h
  cases h

end FibTrie

/-- One VPN interface, `tun0`. -/
def tunVpns : ActiveVpns := ⟨[.ofFn fun i => "tun0".toUTF8.data.toList.getD i.val 0], Nat.succ_le_succ (Nat.zero_le 15)⟩

/-- What the kernel shows first. -/
def mainHeader : List UInt8 := "Main:\n".toUTF8.data.toList

theorem fibTrieRet_hangs :
    namesVpn (some tunVpns) mainHeader = false ∧
      ∀ fuel uid stats, fibTrieRet fuel (some tunVpns) uid 0 (some ⟨mainHeader, []⟩) stats = none := by
  refine ⟨by decide +kernel, fun fuel uid stats => ?_⟩
  have hline : mainHeader ∈ SeqFile.shown ⟨mainHeader, []⟩ 0 := by decide +kernel
  refine fibTrieRet_eq_none uid stats hline ?_ fuel
  rw [← lineHasVpn_eq (n := mainHeader.length + 1) (Nat.lt_succ_self _)]
  decide +kernel

end VpnHide
