import Mathlib.Algebra.Group.Nat.Defs
import VpnHide.FibTrie
import VpnHide.Lib.Words

/-!
# Filters on `/proc/net` files (`fib_route_ret`, `ipv6_route_ret`, `dev_seq_ret`, `if6_seq_ret`)

Each hook looks for the name of the interface in a line, in its own place: in front of the first tab, at the end of the
line, or in front of a colon. It drops the line if that is the name of an active VPN. Two hooks scan from the end of the
line. All four end, read nothing in front of the line, and keep the other lines as they are (`procNetRet_filters`).
Names are C strings, so a field with a NUL in it is read up to the NUL; a word of carriage returns at the end of a line
does not count; and of a very long line less is read (`procNetRet_nul`).
-/

namespace VpnHide

/-! ### The code -/

def isBlankByte (c : UInt8) : Bool := c == ' '.toUInt8 || c == '\t'.toUInt8

/-- The name in a line of `/proc/net/route`. The length of the line is converted to `int`. -/
def fibRouteIfname (line : List UInt8) : List UInt8 :=
  ((line.take (UInt32.ofNat line.length).toInt32.toInt.toNat).takeWhile fun c =>
    c ≠ '\t'.toUInt8 && c ≠ '\n'.toUInt8).take (ifNamSiz - 1)

/-- The bytes skipped at the end of a line. -/
def isTrailing (c : UInt8) : Bool := c == '\n'.toUInt8 || c == '\r'.toUInt8 || isBlankByte c

/-- The name at the end of a line; `none` while the loops have not ended, or if they leave the line. -/
def lastIfname (fuel : ℕ) (line : List UInt8) : Option (List UInt8) := do
  let p ← scanBack (fun _ c => isTrailing c) line fuel (line.length - 1) 0
  let p ← scanBack (fun j c => !isBlankByte c && j < ifNamSiz - 1) line fuel p 0
  if p + 1 < 0 then none
  else some (((line.drop (p + 1).toNat).takeWhile fun c => !isBlankByte c && c ≠ '\n'.toUInt8).take (ifNamSiz - 1))

/-- The name in a line of `/proc/net/dev`. -/
def devIfname (line : List UInt8) : List UInt8 :=
  ((line.dropWhile isBlankByte).takeWhile fun c => c ≠ ':'.toUInt8 && !isBlankByte c && c ≠ '\n'.toUInt8).take
    (ifNamSiz - 1)

section Hooks
variable (fuel : ℕ) (vpns : Option ActiveVpns) (uid : UInt32) (startCount : ℕ)
variable (seq : Option SeqFile) (stats : StatsTable)

def fibRouteRet : Option (Option SeqFile × StatsTable) :=
  seqFilterRet fuel (fun line => some (isActiveVpnIfname vpns (fibRouteIfname line))) uid startCount seq stats

def ipv6RouteRet : Option (Option SeqFile × StatsTable) :=
  seqFilterRet fuel (fun line => (lastIfname fuel line).map (isActiveVpnIfname vpns)) uid startCount seq stats

/-- It checks that the name is not empty before it looks it up. -/
def devSeqRet : Option (Option SeqFile × StatsTable) :=
  seqFilterRet fuel
    (fun line => some (devIfname line ≠ [] && isActiveVpnIfname vpns (devIfname line))) uid startCount seq stats

def if6SeqRet : Option (Option SeqFile × StatsTable) :=
  seqFilterRet fuel (fun line => (lastIfname fuel line).map (isActiveVpnIfname vpns)) uid startCount seq stats

end Hooks

/-! ### The fields of a line -/

/-- A line without its newline. -/
def lineText (line : List UInt8) : List UInt8 := line.takeWhile (· ≠ '\n'.toUInt8)

/-- The text before the first tab. -/
def routeField (line : List UInt8) : List UInt8 := (lineText line).takeWhile (· ≠ '\t'.toUInt8)

/-- As much of it as the line is long, when that is taken for an `int`. -/
def routeName (line : List UInt8) : List UInt8 := (routeField line).take (UInt32.ofNat line.length).toInt32.toInt.toNat

/-- The last word between blanks. -/
def lastField (line : List UInt8) : List UInt8 := lastWord isBlankByte (lineText line)

/-- The last word between blanks that is not made of carriage returns. -/
def lastName (line : List UInt8) : List UInt8 := lastWordBut isBlankByte (· == '\r'.toUInt8) (lineText line)

/-- The first word up to a colon. -/
def devField (line : List UInt8) : List UInt8 :=
  ((lineText line).dropWhile isBlankByte).takeWhile fun c => c ≠ ':'.toUInt8 && !isBlankByte c

/-- The lines are those whose field is not the name of an active VPN. -/
def FiltersBy (field : List UInt8 → List UInt8) (vpns : Option ActiveVpns) (startCount : ℕ) (seq : SeqFile)
    (result : Option (Option SeqFile × StatsTable)) : Prop :=
  ∃ seq' stats', result = some (some seq', stats') ∧
    seq'.contents = seq.contents.take startCount ++
      ((seq.shown startCount).filter fun line => ¬ ActiveName vpns (cstr (field line))).flatten

section Names

theorem takeWhile_lineText {p : UInt8 → Bool} (line : List UInt8) :
    (lineText line).takeWhile p = line.takeWhile fun c => p c && c ≠ '\n'.toUInt8 := by
  rw [lineText, List.takeWhile_takeWhile]
  congr 1
  funext c
  simp

/-- Blanks are not newlines, so it does not matter what is cut off first. -/
theorem dropWhile_lineText (line : List UInt8) :
    (lineText line).dropWhile isBlankByte = lineText (line.dropWhile isBlankByte) := by
  unfold lineText
  induction line with
  | nil => rfl
  | cons c line ih =>
    by_cases hblank : isBlankByte c
    · have hc : c ≠ '\n'.toUInt8 := by
        rintro rfl
        exact absurd hblank (by decide)
      rw [List.takeWhile_cons_of_pos (by simpa using hc), List.dropWhile_cons_of_pos hblank,
        List.dropWhile_cons_of_pos hblank, ih]
    · rw [List.dropWhile_cons_of_neg hblank]
      by_cases hc : c = '\n'.toUInt8
      · rw [List.takeWhile_cons_of_neg (by simpa using hc)]
        rfl
      · rw [List.takeWhile_cons_of_pos (by simpa using hc), List.dropWhile_cons_of_neg hblank]

theorem fibRouteIfname_eq (line : List UInt8) : fibRouteIfname line = (routeName line).take (ifNamSiz - 1) := by
  have hcut := List.take_takeWhile (i := (UInt32.ofNat line.length).toInt32.toInt.toNat) (l := line)
    (p := fun c => c ≠ '\t'.toUInt8 && c ≠ '\n'.toUInt8)
  rw [fibRouteIfname, routeName, routeField, takeWhile_lineText, hcut]

theorem routeName_eq {line : List UInt8} (h : line.length < 2 ^ 31) : routeName line = routeField line := by
  have hlen : (UInt32.ofNat line.length).toInt32.toInt.toNat = line.length := by
    have hint : (UInt32.ofNat line.length).toInt32.toInt = ((UInt32.ofNat line.length).toNat : ℤ).bmod (2 ^ 32) :=
      BitVec.toInt_eq_toNat_bmod _
    rw [hint, UInt32.toNat_ofNat_of_lt' (by exact h.trans (by decide)), Int.bmod_eq_of_le (by omega) (by omega),
      Int.toNat_natCast]
  have hle : (routeField line).length ≤ line.length :=
    (List.takeWhile_prefix _).length_le.trans (List.takeWhile_prefix _).length_le
  rw [routeName, hlen, List.take_of_length_le hle]

theorem devIfname_eq (line : List UInt8) : devIfname line = (devField line).take (ifNamSiz - 1) := by
  rw [devIfname, devField, dropWhile_lineText, takeWhile_lineText]

end Names

section Last
variable {line : List UInt8}

theorem lineText_of_notMem {text : List UInt8} (h : '\n'.toUInt8 ∉ text) :
    lineText text = text ∧ lineText (text ++ ['\n'.toUInt8]) = text := by
  have hall : ∀ c ∈ text, (decide (c ≠ '\n'.toUInt8)) = true := fun c hc => by
    simpa using fun heq : c = '\n'.toUInt8 => h (heq ▸ hc)
  refine ⟨List.takeWhile_eq_self_iff.2 hall, ?_⟩
  rw [lineText, List.takeWhile_append_of_pos hall]
  simp

/-- The bytes at which the copy of a name at the end of a line goes on. -/
def isNameByte (c : UInt8) : Bool := !isBlankByte c && c ≠ '\n'.toUInt8

/-- The loops on a line that is some text, the part of a word up to the last byte that is not skipped, and the rest. -/
theorem lastIfname_of_split {front run : List UInt8} (tail : List UInt8)
    (hbody : (front ++ run ++ tail).rdropWhile isTrailing = front ++ run)
    (hfront : ((front ++ run).rdropWhile fun c => !isBlankByte c) = front) (hrun : ∀ c ∈ run, isNameByte c)
    (hlen : (run ++ tail.takeWhile isNameByte).length ≤ ifNamSiz - 1) {fuel : ℕ}
    (hfuel : (front ++ run ++ tail).length < fuel) :
    lastIfname fuel (front ++ run ++ tail) = some (run ++ tail.takeWhile isNameByte) := by
  have hback : ((front ++ run).rtakeWhile fun c => !isBlankByte c) = run := by
    have hsplit := List.rdropWhile_append_rtakeWhile (p := fun c => !isBlankByte c) (l := front ++ run)
    rw [hfront] at hsplit
    exact List.append_cancel_left hsplit
  have htrim := scanBack_eq (fun _ c => isTrailing c) (j := 0) (fun _ _ _ hc => hc) (fun _ _ hc => hc) hfuel []
  rw [List.append_nil, hbody] at htrim
  have hfuel' : (front ++ run).length < fuel := by
    rw [List.length_append] at hfuel
    omega
  have hgo : ∀ i < ((front ++ run).rtakeWhile fun c => !isBlankByte c).length, ∀ c, !isBlankByte c →
      !isBlankByte c && decide (0 + i < ifNamSiz - 1) := by
    intro i hi c hc
    rw [hback] at hi
    rw [List.length_append] at hlen
    simpa [hc] using hi.trans_le (Nat.le_of_add_right_le hlen)
  have hstart := scanBack_eq (fun j c => !isBlankByte c && decide (j < ifNamSiz - 1)) hgo
    (fun i c hc => by simp [Bool.eq_false_iff.2 hc]) hfuel' tail
  rw [hfront] at hstart
  unfold lastIfname
  simp only [htrim, hstart, Option.bind_eq_bind, Option.bind_some, Int.sub_add_cancel, Int.toNat_natCast]
  rw [if_neg (by omega), List.append_assoc, List.drop_left]
  refine congrArg some ((congrArg (List.take _) (List.takeWhile_append_of_pos hrun)).trans
    (List.take_of_length_le hlen))

/-- The loops end on a line of the buffer and find the last word that counts. -/
theorem lastIfname_eq {text : List UInt8} (hline : line = text ∨ line = text ++ ['\n'.toUInt8])
    (htext : '\n'.toUInt8 ∉ text) (hlen : (lastName line).length ≤ ifNamSiz - 1) {fuel : ℕ}
    (hfuel : line.length < fuel) :
    lastIfname fuel line = some (lastName line) := by
  obtain ⟨nl, hnl, rfl⟩ : ∃ nl, (nl = [] ∨ nl = ['\n'.toUInt8]) ∧ line = text ++ nl := by
    rcases hline with rfl | rfl
    · exact ⟨[], .inl rfl, (List.append_nil _).symm⟩
    · exact ⟨_, .inr rfl, rfl⟩
  have hcut {part : List UInt8} (hpart : '\n'.toUInt8 ∉ part) : lineText (part ++ nl) = part := by
    rcases hnl with rfl | rfl
    · rw [List.append_nil]
      exact (lineText_of_notMem hpart).1
    · exact (lineText_of_notMem hpart).2
  -- in front of the newline, what is skipped are blanks and carriage returns
  have hskip : ∀ c ∈ text, isTrailing c = (isBlankByte c || c == '\r'.toUInt8) := by
    intro c hc
    have hne : c ≠ '\n'.toUInt8 := fun heq => htext (heq ▸ hc)
    rw [isTrailing, beq_eq_false_iff_ne.2 hne, Bool.false_or, Bool.or_comm]
  have hbody : (text ++ nl).rdropWhile isTrailing = text.rdropWhile isTrailing := by
    rcases hnl with rfl | rfl
    · rw [List.append_nil]
    · exact List.rdropWhile_concat_pos _ _ _ (by decide)
  have hsplit := List.rdropWhile_append_rtakeWhile (p := isTrailing) (l := text)
  have hword := List.rdropWhile_append_rtakeWhile (p := fun c => !isBlankByte c) (l := text.rdropWhile isTrailing)
  have hcopied : (text.rtakeWhile isTrailing ++ nl).takeWhile isNameByte =
      (text.rtakeWhile isTrailing).takeWhile fun c => !isBlankByte c := by
    have htail := hcut fun hmem => htext ((List.rtakeWhile_suffix isTrailing text).subset hmem)
    exact (takeWhile_lineText _).symm.trans (congrArg (List.takeWhile _) htail)
  have hname : lastName (text ++ nl) = ((text.rdropWhile isTrailing).rtakeWhile fun c => !isBlankByte c) ++
      (text.rtakeWhile isTrailing ++ nl).takeWhile isNameByte := by
    rw [hcopied, rdropWhile_congr hskip, rtakeWhile_congr hskip, ← lastWordBut_eq, lastName, hcut htext]
  have hrun : ∀ c ∈ (text.rdropWhile isTrailing).rtakeWhile fun c => !isBlankByte c, isNameByte c := by
    intro c hc
    have hmem : c ∈ text := (List.rdropWhile_prefix ..).subset ((List.rtakeWhile_suffix ..).subset hc)
    have hne : c ≠ '\n'.toUInt8 := fun heq => htext (heq ▸ hmem)
    simpa [isNameByte, hne] using List.mem_rtakeWhile_imp hc
  have hwhole : ((text.rdropWhile isTrailing).rdropWhile fun c => !isBlankByte c) ++
      ((text.rdropWhile isTrailing).rtakeWhile fun c => !isBlankByte c) ++ (text.rtakeWhile isTrailing ++ nl) =
        text ++ nl := by
    rw [hword, ← List.append_assoc, hsplit]
  have hresult := lastIfname_of_split (text.rtakeWhile isTrailing ++ nl) (by rw [hwhole, hbody, hword])
    (by rw [hword]) hrun
    (by rwa [← hname]) (by rwa [hwhole])
  rwa [hwhole, ← hname] at hresult

end Last

/-! ### The hooks -/

section Filters
variable {field : List UInt8 → List UInt8} {vpns : Option ActiveVpns} {uid : UInt32} {startCount : ℕ} {seq : SeqFile}
  {stats : StatsTable} {fuel : ℕ}

theorem length_le_of_mem_shown {line : List UInt8} (h : line ∈ seq.shown startCount) :
    line.length ≤ seq.contents.length := by
  have hle := (List.sublist_flatten_of_mem h).length_le
  rw [SeqFile.shown, flatten_splitLines, List.length_drop] at hle
  omega

theorem filtersBy_of_check {check : List UInt8 → Option Bool} (hfuel : seq.contents.length < fuel)
    (h : ∀ line ∈ seq.shown startCount, check line = some (decide (ActiveName vpns (cstr (field line))))) :
    FiltersBy field vpns startCount seq (seqFilterRet fuel check uid startCount (some seq) stats) := by
  rcases Nat.lt_or_ge startCount seq.contents.length with hlt | hge
  · have hlines : (seq.shown startCount).length < fuel := by
      have hle := length_splitLines_le '\n'.toUInt8 (seq.contents.drop startCount)
      rw [List.length_drop] at hle
      exact (hle.trans (Nat.sub_le ..)).trans_lt hfuel
    obtain ⟨seq', stats', hret, hcontents⟩ := seqFilterRet_filters uid stats hlt h hlines
    refine ⟨seq', stats', hret, ?_⟩
    simpa using hcontents
  · refine ⟨seq, stats, ?_, ?_⟩
    · rw [seqFilterRet, if_pos hge]
    · rw [SeqFile.shown_of_le hge, List.take_of_length_le hge]
      simp

theorem decide_activeName {name : List UInt8} (h : name.length ≤ ifNamSiz - 1) :
    isActiveVpnIfname vpns name = decide (ActiveName vpns (cstr name)) := by
  rw [Bool.eq_iff_iff, isActiveVpnIfname_iff (h.trans (by decide)), decide_eq_true_iff]

theorem filtersBy_last (hfuel : seq.contents.length < fuel)
    (h : ∀ line ∈ seq.shown startCount, (lastName line).length ≤ ifNamSiz - 1) :
    FiltersBy lastName vpns startCount seq (seqFilterRet fuel
      (fun line => (lastIfname fuel line).map (isActiveVpnIfname vpns)) uid startCount (some seq) stats) := by
  refine filtersBy_of_check hfuel fun line hline => ?_
  obtain ⟨text, htext, hshape⟩ := splitLines_shape hline
  rw [lastIfname_eq hshape htext (h line hline) ((length_le_of_mem_shown hline).trans_lt hfuel), Option.map_some,
    decide_activeName (h line hline)]

variable (vpns uid startCount seq stats fuel) in
/-- Each hook ends and leaves the lines whose field is not the name of an active VPN. The field is the text in front of
the first tab, unless the line is too long for an `int`; the last word, unless it is made of carriage returns; the first
word up to a colon. -/
theorem procNetRet_filters (hfuel : seq.contents.length < fuel) :
    ((∀ line ∈ seq.shown startCount, (routeName line).length ≤ 15) →
      FiltersBy routeName vpns startCount seq (fibRouteRet fuel vpns uid startCount (some seq) stats)) ∧
    ((∀ line ∈ seq.shown startCount, (lastName line).length ≤ 15) →
      FiltersBy lastName vpns startCount seq (ipv6RouteRet fuel vpns uid startCount (some seq) stats) ∧
      FiltersBy lastName vpns startCount seq (if6SeqRet fuel vpns uid startCount (some seq) stats)) ∧
    ((∀ line ∈ seq.shown startCount, (devField line).length ≤ 15) →
      FiltersBy devField vpns startCount seq (devSeqRet fuel vpns uid startCount (some seq) stats)) ∧
    (∀ line, line.length < 2 ^ 31 → routeName line = routeField line) ∧
    ∀ line, lastField line = [] ∨ (∃ c ∈ lastField line, c ≠ '\r'.toUInt8) → lastName line = lastField line := by
  refine ⟨fun h => ?_, fun h => ⟨filtersBy_last hfuel h, filtersBy_last hfuel h⟩, fun h => ?_,
    fun line => routeName_eq, fun line h => lastWordBut_eq_lastWord (by simpa [lastField] using h)⟩
  · refine filtersBy_of_check hfuel fun line hline => ?_
    have hname : (routeName line).length ≤ ifNamSiz - 1 := h line hline
    rw [fibRouteIfname_eq, List.take_of_length_le hname, decide_activeName hname]
  · refine filtersBy_of_check hfuel fun line hline => ?_
    have hfield : (devField line).length ≤ ifNamSiz - 1 := h line hline
    rw [devIfname_eq, List.take_of_length_le hfield, decide_activeName hfield]
    -- the empty name is no VPN's
    by_cases hnil : devField line = []
    · have hnot : ¬ ActiveName vpns (cstr []) := fun hactive => hactive.1 rfl
      simp [hnil, hnot]
    · simp [hnil]

end Filters

/-- Of the lines of each file those of `tun0` are dropped. A carriage return right behind a name is part of it. -/
theorem procNetRet_filters_sample :
    (∃ seq' stats', fibRouteRet 64 (some tunVpns) 10100 0 (some ⟨bytesOf "tun0\t0\nwlan0\t0\n", []⟩) ⟨[], 0⟩ =
        some (some seq', stats') ∧ seq'.contents = bytesOf "wlan0\t0\n") ∧
    (∃ seq' stats', ipv6RouteRet 64 (some tunVpns) 10100 0
      (some ⟨bytesOf "a\rb tun0\n0 tun0 \r\n0 wlan0", []⟩) ⟨[], 0⟩ =
        some (some seq', stats') ∧ seq'.contents = bytesOf "0 wlan0") ∧
    (∃ seq' stats', if6SeqRet 64 (some tunVpns) 10100 0 (some ⟨bytesOf "0 tun0 \n0 tun0\r\n", []⟩) ⟨[], 0⟩ =
        some (some seq', stats') ∧ seq'.contents = bytesOf "0 tun0\r\n") ∧
    ∃ seq' stats', devSeqRet 64 (some tunVpns) 10100 0 (some ⟨bytesOf " wlan0: 1\n  tun0: 1\n", []⟩) ⟨[], 0⟩ =
        some (some seq', stats') ∧ seq'.contents = bytesOf " wlan0: 1\n" := by
  have hroute := (procNetRet_filters (some tunVpns) 10100 0 ⟨bytesOf "tun0\t0\nwlan0\t0\n", []⟩ ⟨[], 0⟩ 64
    (by decide +kernel)).1 (by decide +kernel)
  have hroute6 := ((procNetRet_filters (some tunVpns) 10100 0 ⟨bytesOf "a\rb tun0\n0 tun0 \r\n0 wlan0", []⟩ ⟨[], 0⟩ 64
    (by decide +kernel)).2.1 (by decide +kernel)).1
  have hif6 := ((procNetRet_filters (some tunVpns) 10100 0 ⟨bytesOf "0 tun0 \n0 tun0\r\n", []⟩ ⟨[], 0⟩ 64
    (by decide +kernel)).2.1 (by decide +kernel)).2
  have hdev := (procNetRet_filters (some tunVpns) 10100 0 ⟨bytesOf " wlan0: 1\n  tun0: 1\n", []⟩ ⟨[], 0⟩ 64
    (by decide +kernel)).2.2.1 (by decide +kernel)
  obtain ⟨seq₁, stats₁, hret₁, hcontents₁⟩ := hroute
  obtain ⟨seq₂, stats₂, hret₂, hcontents₂⟩ := hroute6
  obtain ⟨seq₃, stats₃, hret₃, hcontents₃⟩ := hif6
  obtain ⟨seq₄, stats₄, hret₄, hcontents₄⟩ := hdev
  exact ⟨⟨seq₁, stats₁, hret₁, hcontents₁.trans (by decide +kernel)⟩,
    ⟨seq₂, stats₂, hret₂, hcontents₂.trans (by decide +kernel)⟩,
    ⟨seq₃, stats₃, hret₃, hcontents₃.trans (by decide +kernel)⟩,
    seq₄, stats₄, hret₄, hcontents₄.trans (by decide +kernel)⟩

/-- A field is read up to a NUL, a carriage return at the end of a line is skipped, and a line of two gigabytes has no
name. -/
theorem procNetRet_nul :
    (fibRouteRet 64 (some tunVpns) 10100 0 (some ⟨bytesOf "tun0\x00x\t0\n", []⟩) ⟨[], 0⟩).map
        (fun r => r.1.map SeqFile.contents) = some (some []) ∧
      ¬ ActiveName (some tunVpns) (routeField (bytesOf "tun0\x00x\t0\n")) ∧
      (if6SeqRet 64 (some tunVpns) 10100 0 (some ⟨bytesOf "0 tun0 \r\n", []⟩) ⟨[], 0⟩).map
        (fun r => r.1.map SeqFile.contents) = some (some []) ∧
      ¬ ActiveName (some tunVpns) (lastField (bytesOf "0 tun0 \r\n")) ∧
      fibRouteIfname (bytesOf "tun0\t" ++ List.replicate (2 ^ 31 - 5) '0'.toUInt8) = [] := by
  have hlen : (bytesOf "tun0\t" ++ List.replicate (2 ^ 31 - 5) '0'.toUInt8).length = 2 ^ 31 := by
    rw [List.length_append, List.length_replicate]
    decide
  have hnegative : (UInt32.ofNat (2 ^ 31)).toInt32.toInt.toNat = 0 := by decide +kernel
  refine ⟨by decide +kernel, by decide +kernel, by decide +kernel, by decide +kernel, ?_⟩
  rw [fibRouteIfname, hlen, hnegative]
  rfl

end VpnHide
