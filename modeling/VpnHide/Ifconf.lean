import VpnHide.FibTrie
import VpnHide.Lib.Codec

/-!
# The list of interfaces (`sock_ioctl_ret`)

`SIOCGIFCONF` fills a buffer with entries of fixed size. The hook moves the entries that are not those of active VPNs to
the front, one by one, and clears the rest of the buffer up to the capacity that the caller gave. Where nothing faults
there is no trace of a VPN left, and a second pass finds nothing to do (`sockIoctlRet_filters`). The name of an entry
that is moved is cut to fifteen bytes and a NUL (`sockIoctlRet_cuts_name`).
-/

namespace VpnHide

def sizeofIfreq : ℕ := 40

/-- Which accesses to user memory fail. -/
structure IfconfFaults where
  ifc : Bool
  read : ℕ → Bool
  write : ℕ → Bool
  clear : Bool
  put : Bool

/-- `enum filter_ifconf_result`, with the length that is written to `out_len`. -/
inductive FilterIfconfResult where
  | noChange
  | changed (outLen : ℤ)
  | copyFault

/-- An entry as it is looked at, with a NUL at the end of its name. -/
def terminated (entry : List UInt8) : List UInt8 := entry.set (ifNamSiz - 1) 0

section Code
variable (vpns : Option ActiveVpns) (faults : IfconfFaults)

/-- The loop over the entries from `i` on, and `dst` if nothing faults. -/
def filterIfconfLoop : ℕ → ℕ → ℕ → List UInt8 → List UInt8 × Option ℕ
  | 0, _, dst, buf => (buf, some dst)
  | n + 1, i, dst, buf =>
    if faults.read i then (buf, none)
    else
      let tmp := terminated (slice buf (i * sizeofIfreq) sizeofIfreq)
      if isActiveVpnIfname vpns (tmp.take ifNamSiz) then filterIfconfLoop n (i + 1) dst buf
      else if dst ≠ i then
        if faults.write dst then (buf, none)
        else filterIfconfLoop n (i + 1) (dst + 1) (memcpy buf (dst * sizeofIfreq) tmp)
      else filterIfconfLoop n (i + 1) (dst + 1) buf

def filterIfconfBuf (buf : List UInt8) (n : ℤ) : List UInt8 × FilterIfconfResult :=
  match filterIfconfLoop vpns faults n.toNat 0 0 buf with
  | (buf, none) => (buf, .copyFault)
  | (buf, some dst) => (buf, if (dst : ℤ) = n then .noChange else .changed (dst * sizeofIfreq))

/-- The buffer with its tail cleared; `none` if that fails. -/
def clearIfconfTail (buf : List UInt8) (startLen capacityLen : ℤ) : Option (List UInt8) :=
  if startLen < 0 ∨ capacityLen ≤ startLen then some buf
  else if faults.clear then none
  else some (memcpy buf startLen.toNat (List.replicate (capacityLen - startLen).toNat 0))

/-- What `sock_ioctl_entry` has kept, and what the call returns. -/
structure SockIoctlData where
  retval : ℤ
  argp : Bool
  ifcCapacity : ℤ

/-- The caller's `struct ifconf`, the memory that it had `ifc_req` point to, and the statistics. -/
structure IfconfState where
  ifcReq : Bool
  ifcLen : ℤ
  buf : List UInt8
  stats : StatsTable

def sockIoctlRet (uid : UInt32) (data : SockIoctlData) (s : IfconfState) : IfconfState :=
  if data.retval ≠ 0 ∨ ¬ data.argp then s
  else if faults.ifc then s
  else if ¬ s.ifcReq ∨ s.ifcLen < 0 then s
  else
    let ifcLen := if s.ifcLen > data.ifcCapacity then data.ifcCapacity else s.ifcLen
    match filterIfconfBuf vpns faults s.buf (ifcLen.tdiv sizeofIfreq) with
    | (buf, .copyFault) => { s with buf := buf }
    | (buf, .noChange) =>
      match clearIfconfTail faults buf ifcLen data.ifcCapacity with
      | none => { s with buf := buf }
      | some buf => { s with buf := buf }
    | (buf, .changed filteredLen) =>
      match clearIfconfTail faults buf filteredLen data.ifcCapacity with
      | none => { s with buf := buf }
      | some buf =>
        if faults.put then { s with buf := buf }
        else { s with ifcLen := filteredLen, buf := buf, stats := recordKmodIntercept s.stats uid 0 }

end Code

/-! ### Entries -/

/-- No access fails. -/
def IfconfFaults.none : IfconfFaults := ⟨false, fun _ => false, fun _ => false, false, false⟩

/-- The name of the entry is that of an active VPN. -/
def IsVpnEntry (vpns : Option ActiveVpns) (entry : List UInt8) : Prop :=
  ActiveName vpns (cstr (entry.take (ifNamSiz - 1)))

instance (vpns : Option ActiveVpns) (entry : List UInt8) : Decidable (IsVpnEntry vpns entry) :=
  inferInstanceAs (Decidable (ActiveName ..))

section Entries
variable {vpns : Option ActiveVpns} {entry : List UInt8}

theorem length_terminated (entry : List UInt8) : (terminated entry).length = entry.length := List.length_set ..

theorem take_terminated (h : entry.length = sizeofIfreq) :
    (terminated entry).take ifNamSiz = entry.take (ifNamSiz - 1) ++ [0] := by
  have hlt : ifNamSiz - 1 < entry.length := by
    rw [h]
    decide
  rw [terminated]
  refine (List.take_succ_eq_append_getElem (i := ifNamSiz - 1) (by simpa using hlt)).trans ?_
  rw [List.take_set, List.set_eq_of_length_le (List.length_take_le ..), List.getElem_set_self]

theorem isActiveVpnIfname_terminated (h : entry.length = sizeofIfreq) :
    isActiveVpnIfname vpns ((terminated entry).take ifNamSiz) = decide (IsVpnEntry vpns entry) := by
  have hlen : ((terminated entry).take ifNamSiz).length ≤ maxIfaceLen := List.length_take_le ..
  rw [Bool.eq_iff_iff, isActiveVpnIfname_iff hlen, decide_eq_true_iff, take_terminated h, cstr_append_nul]
  rfl

theorem isVpnEntry_terminated : IsVpnEntry vpns (terminated entry) ↔ IsVpnEntry vpns entry := by
  have htake : (terminated entry).take (ifNamSiz - 1) = entry.take (ifNamSiz - 1) := by
    rw [terminated, List.take_set, List.set_eq_of_length_le (List.length_take_le ..)]
  rw [IsVpnEntry, htake]
  rfl

end Entries

/-! ### The loop -/

section Loop
variable {vpns : Option ActiveVpns}

/-- The entries that stay; those behind the first VPN are moved. -/
def remaining (vpns : Option ActiveVpns) (entries : List (List UInt8)) : List (List UInt8) :=
  (entries.takeWhile fun entry => ¬ IsVpnEntry vpns entry) ++
    ((entries.dropWhile fun entry => ¬ IsVpnEntry vpns entry).filter fun entry =>
      ¬ IsVpnEntry vpns entry).map terminated

theorem slice_entry {entry : List UInt8} (h : entry.length = sizeofIfreq) {i : ℕ} {front : List UInt8}
    (hfront : front.length = i * sizeofIfreq) (rest : List UInt8) :
    slice (front ++ (entry ++ rest)) (i * sizeofIfreq) sizeofIfreq = entry := by
  rw [slice, ← hfront, List.drop_left, ← h, List.take_left]

theorem filterIfconfLoop_vpn {entry : List UInt8} (hentry : entry.length = sizeofIfreq) (hvpn : IsVpnEntry vpns entry)
    {i : ℕ} {buf : List UInt8} (hread : slice buf (i * sizeofIfreq) sizeofIfreq = entry) (n dst : ℕ) :
    filterIfconfLoop vpns .none (n + 1) i dst buf = filterIfconfLoop vpns .none n (i + 1) dst buf := by
  rw [filterIfconfLoop, if_neg (by exact Bool.false_ne_true), hread]
  dsimp only
  rw [isActiveVpnIfname_terminated hentry, if_pos (decide_eq_true hvpn)]

theorem filterIfconfLoop_keep {entry : List UInt8} (hentry : entry.length = sizeofIfreq)
    (hvpn : ¬ IsVpnEntry vpns entry)
    {i : ℕ} {buf : List UInt8} (hread : slice buf (i * sizeofIfreq) sizeofIfreq = entry) (n dst : ℕ) :
    filterIfconfLoop vpns .none (n + 1) i dst buf = filterIfconfLoop vpns .none n (i + 1) (dst + 1)
      (if dst ≠ i then memcpy buf (dst * sizeofIfreq) (terminated entry) else buf) := by
  rw [filterIfconfLoop, if_neg (by exact Bool.false_ne_true), hread]
  dsimp only
  rw [isActiveVpnIfname_terminated hentry, if_neg (by simpa using hvpn)]
  by_cases hdst : dst ≠ i
  · rw [if_pos hdst, if_pos hdst, if_neg (by exact Bool.false_ne_true)]
  · rw [if_neg hdst, if_neg hdst]

theorem memcpy_entry {entry : List UInt8} (hentry : entry.length = sizeofIfreq) {dst : ℕ} {front : List UInt8}
    (hfront : front.length = dst * sizeofIfreq) (gap rest : List UInt8) :
    memcpy (front ++ gap ++ (entry ++ rest)) (dst * sizeofIfreq) (terminated entry) =
      front ++ terminated entry ++ (gap ++ entry).drop sizeofIfreq ++ rest := by
  have hlen : sizeofIfreq ≤ (gap ++ entry).length := by
    rw [List.length_append, hentry]
    omega
  have hmove := memcpy_gap front ((gap ++ entry).take sizeofIfreq) ((gap ++ entry).drop sizeofIfreq ++ rest)
    (terminated entry) hfront.symm (by rw [length_terminated, hentry, List.length_take, Nat.min_eq_left hlen])
  rw [← List.append_assoc (List.take ..), List.take_append_drop, List.append_assoc gap] at hmove
  rw [List.append_assoc front gap, hmove]
  simp only [List.append_assoc]

/-- Once there is a gap, the entries that stay are moved to its front. -/
theorem filterIfconfLoop_gap (vpns : Option ActiveVpns) {entries : List (List UInt8)}
    (hentries : ∀ entry ∈ entries, entry.length = sizeofIfreq) {i dst : ℕ} (hlt : dst < i) {front gap : List UInt8}
    (hfront : front.length = dst * sizeofIfreq) (hgap : (front ++ gap).length = i * sizeofIfreq) (tail : List UInt8) :
    ∃ junk, filterIfconfLoop vpns .none entries.length i dst (front ++ gap ++ (entries.flatten ++ tail)) =
        (front ++ ((entries.filter fun entry => ¬ IsVpnEntry vpns entry).map terminated).flatten ++ junk ++ tail,
          some (dst + (entries.filter fun entry => ¬ IsVpnEntry vpns entry).length)) ∧
      (((entries.filter fun entry => ¬ IsVpnEntry vpns entry).map terminated).flatten ++ junk).length =
        (gap ++ entries.flatten).length := by
  induction entries generalizing i dst front gap with
  | nil => exact ⟨gap, by simp [filterIfconfLoop], by simp⟩
  | cons entry entries ih =>
    obtain ⟨hentry, hrest⟩ := List.forall_mem_cons.1 hentries
    have hread := slice_entry hentry hgap (entries.flatten ++ tail)
    rw [List.flatten_cons, List.append_assoc entry, List.length_cons]
    by_cases hvpn : IsVpnEntry vpns entry
    · have hgap' : (front ++ (gap ++ entry)).length = (i + 1) * sizeofIfreq := by
        rw [← List.append_assoc, List.length_append, hgap, hentry, Nat.succ_mul]
      obtain ⟨junk, hloop, hlength⟩ := ih hrest (Nat.lt_succ_of_lt hlt) hfront hgap'
      refine ⟨junk, ?_, ?_⟩
      · rw [filterIfconfLoop_vpn hentry hvpn hread, List.filter_cons_of_neg (by simpa using hvpn), ← hloop]
        simp only [List.append_assoc]
      · rw [List.filter_cons_of_neg (by simpa using hvpn), hlength, List.append_assoc]
    · have hfront' : (front ++ terminated entry).length = (dst + 1) * sizeofIfreq := by
        rw [List.length_append, hfront, length_terminated, hentry, Nat.succ_mul]
      have hgap' : (front ++ terminated entry ++ (gap ++ entry).drop sizeofIfreq).length = (i + 1) * sizeofIfreq := by
        rw [List.length_append] at hgap
        rw [List.length_append, hfront', List.length_drop, List.length_append, hentry, Nat.succ_mul, Nat.succ_mul]
        omega
      obtain ⟨junk, hloop, hlength⟩ := ih hrest (Nat.add_lt_add_right hlt 1) hfront' hgap'
      rw [Nat.add_right_comm dst 1] at hloop
      refine ⟨junk, ?_, ?_⟩
      · rw [filterIfconfLoop_keep hentry hvpn hread, if_pos hlt.ne, memcpy_entry hentry hfront,
          List.filter_cons_of_pos (by simpa using hvpn), List.length_cons, List.map_cons, List.flatten_cons,
          ← List.append_assoc front]
        exact hloop
      · rw [List.filter_cons_of_pos (by simpa using hvpn), List.map_cons, List.flatten_cons, List.append_assoc,
          List.length_append, hlength, length_terminated]
        simp only [List.length_append, List.length_drop, hentry]
        omega

theorem remaining_cons_vpn {entry : List UInt8} (hvpn : IsVpnEntry vpns entry) (entries : List (List UInt8)) :
    remaining vpns (entry :: entries) = (entries.filter fun entry => ¬ IsVpnEntry vpns entry).map terminated := by
  rw [remaining, List.takeWhile_cons_of_neg (by simpa using hvpn), List.dropWhile_cons_of_neg (by simpa using hvpn),
    List.filter_cons_of_neg (by simpa using hvpn), List.nil_append]

theorem remaining_cons_keep {entry : List UInt8} (hvpn : ¬ IsVpnEntry vpns entry) (entries : List (List UInt8)) :
    remaining vpns (entry :: entries) = entry :: remaining vpns entries := by
  rw [remaining, List.takeWhile_cons_of_pos (by simpa using hvpn), List.dropWhile_cons_of_pos (by simpa using hvpn)]
  rfl

theorem filterIfconfLoop_eq (vpns : Option ActiveVpns) {entries : List (List UInt8)}
    (hentries : ∀ entry ∈ entries, entry.length = sizeofIfreq) {i : ℕ} {front : List UInt8}
    (hfront : front.length = i * sizeofIfreq) (tail : List UInt8) :
    ∃ junk, filterIfconfLoop vpns .none entries.length i i (front ++ (entries.flatten ++ tail)) =
        (front ++ (remaining vpns entries).flatten ++ junk ++ tail, some (i + (remaining vpns entries).length)) ∧
      ((remaining vpns entries).flatten ++ junk).length = entries.flatten.length := by
  induction entries generalizing i front with
  | nil => exact ⟨[], by simp [filterIfconfLoop, remaining], rfl⟩
  | cons entry entries ih =>
    obtain ⟨hentry, hrest⟩ := List.forall_mem_cons.1 hentries
    have hread := slice_entry hentry hfront (entries.flatten ++ tail)
    have hnext : (front ++ entry).length = (i + 1) * sizeofIfreq := by
      rw [List.length_append, hfront, hentry, Nat.succ_mul]
    rw [List.flatten_cons, List.append_assoc entry, List.length_cons]
    by_cases hvpn : IsVpnEntry vpns entry
    · obtain ⟨junk, hloop, hlength⟩ := filterIfconfLoop_gap vpns hrest (Nat.lt_succ_self i) hfront hnext tail
      rw [remaining_cons_vpn hvpn]
      refine ⟨junk, ?_, hlength⟩
      rw [filterIfconfLoop_vpn hentry hvpn hread, List.length_map, ← List.append_assoc]
      exact hloop
    · obtain ⟨junk, hloop, hlength⟩ := ih hrest hnext
      rw [Nat.add_right_comm i 1] at hloop
      rw [remaining_cons_keep hvpn, List.flatten_cons]
      refine ⟨junk, ?_, ?_⟩
      · rw [filterIfconfLoop_keep hentry hvpn hread, if_neg (by simp), List.length_cons, ← List.append_assoc front,
          ← List.append_assoc front]
        exact hloop
      · rw [List.append_assoc, List.length_append, hlength, List.length_append]

end Loop

/-! ### The hook -/

section Ret
variable (vpns : Option ActiveVpns) {entries : List (List UInt8)}

theorem mem_remaining {entry : List UInt8} (h : entry ∈ remaining vpns entries) :
    ¬ IsVpnEntry vpns entry ∧ ∃ e ∈ entries, entry.length = e.length := by
  rcases List.mem_append.1 h with h | h
  · exact ⟨by simpa using List.mem_takeWhile_imp h, entry, (List.takeWhile_prefix _).subset h, rfl⟩
  · obtain ⟨e, he, rfl⟩ := List.mem_map.1 h
    obtain ⟨he, hvpn⟩ := List.mem_filter.1 he
    refine ⟨fun hterm => ?_, e, (List.dropWhile_suffix _).subset he, length_terminated e⟩
    exact of_decide_eq_true hvpn (isVpnEntry_terminated.1 hterm)

theorem length_of_mem_remaining (hentries : ∀ entry ∈ entries, entry.length = sizeofIfreq) :
    ∀ entry ∈ remaining vpns entries, entry.length = sizeofIfreq := by
  intro entry hentry
  obtain ⟨e, he, hlen⟩ := (mem_remaining vpns hentry).2
  rw [hlen, hentries e he]

theorem length_remaining (entries : List (List UInt8)) :
    (remaining vpns entries).length = (entries.filter fun entry => ¬ IsVpnEntry vpns entry).length := by
  induction entries with
  | nil => rfl
  | cons entry entries ih =>
    by_cases hvpn : IsVpnEntry vpns entry
    · rw [remaining_cons_vpn hvpn, List.length_map, List.filter_cons_of_neg (by simpa using hvpn)]
    · rw [remaining_cons_keep hvpn, List.filter_cons_of_pos (by simpa using hvpn), List.length_cons, ih,
        List.length_cons]

theorem remaining_of_nul (h : ∀ entry ∈ entries, terminated entry = entry) :
    remaining vpns entries = entries.filter fun entry => ¬ IsVpnEntry vpns entry := by
  induction entries with
  | nil => rfl
  | cons entry entries ih =>
    obtain ⟨-, hrest⟩ := List.forall_mem_cons.1 h
    by_cases hvpn : IsVpnEntry vpns entry
    · rw [remaining_cons_vpn hvpn, List.filter_cons_of_neg (by simpa using hvpn)]
      refine (List.map_congr_left fun e he => ?_).trans (List.map_id _)
      exact hrest e (List.mem_filter.1 he).1
    · rw [remaining_cons_keep hvpn, List.filter_cons_of_pos (by simpa using hvpn), ih hrest]

theorem length_flatten_entries (h : ∀ entry ∈ entries, entry.length = sizeofIfreq) :
    entries.flatten.length = entries.length * sizeofIfreq := by
  rw [List.length_flatten, List.map_congr_left h, List.map_const', List.sum_replicate_nat]

theorem clearIfconfTail_none (front gap : List UInt8) :
    clearIfconfTail .none (front ++ gap) front.length (front ++ gap).length =
      some (front ++ List.replicate gap.length 0) := by
  unfold clearIfconfTail
  split_ifs with h hfault
  · obtain rfl : gap = [] := by
      rw [List.length_append] at h
      exact List.length_eq_zero_iff.1 (by omega)
    rfl
  · exact absurd hfault Bool.false_ne_true
  · have hlen : ((front ++ gap).length - front.length : ℤ).toNat = gap.length := by
      rw [List.length_append]
      omega
    have hclear := memcpy_gap front gap [] (List.replicate gap.length 0) rfl (List.length_replicate ..)
    rw [List.append_nil, List.append_nil] at hclear
    rw [hlen, Int.toNat_natCast, hclear]

theorem sockIoctlRet_eq (hentries : ∀ entry ∈ entries, entry.length = sizeofIfreq) (tail : List UInt8) (uid : UInt32)
    (stats : StatsTable) :
    sockIoctlRet vpns .none uid ⟨0, true, (entries.flatten ++ tail).length⟩
        ⟨true, entries.length * sizeofIfreq, entries.flatten ++ tail, stats⟩ =
      ⟨true, (remaining vpns entries).length * sizeofIfreq,
        (remaining vpns entries).flatten ++
          List.replicate ((entries.flatten ++ tail).length - (remaining vpns entries).length * sizeofIfreq) 0,
        if (remaining vpns entries).length = entries.length then stats else recordKmodIntercept stats uid 0⟩ := by
  have hstart : ([] : List UInt8).length = 0 * sizeofIfreq := (Nat.zero_mul _).symm
  obtain ⟨junk, hloop, hlength⟩ := filterIfconfLoop_eq vpns hentries hstart tail
  simp only [List.nil_append, Nat.zero_add] at hloop
  have hsize := length_flatten_entries hentries
  have hkept := length_flatten_entries (length_of_mem_remaining vpns hentries)
  have hclear := clearIfconfTail_none (remaining vpns entries).flatten (junk ++ tail)
  have hwhole : ((remaining vpns entries).flatten ++ (junk ++ tail)).length = (entries.flatten ++ tail).length := by
    rw [← List.append_assoc, List.length_append, hlength, List.length_append]
  have hrest : (junk ++ tail).length =
      (entries.flatten ++ tail).length - (remaining vpns entries).length * sizeofIfreq := by
    rw [← hwhole, ← hkept]
    exact (Nat.sub_eq_of_eq_add' List.length_append).symm
  rw [hwhole, hrest, hkept, Nat.cast_mul, ← List.append_assoc] at hclear
  have hclamp : ¬ (entries.length * sizeofIfreq : ℤ) > (entries.flatten ++ tail).length := by
    rw [List.length_append, hsize]
    push_cast
    omega
  have hn : (entries.length * sizeofIfreq : ℤ).tdiv sizeofIfreq = entries.length :=
    Int.mul_tdiv_cancel _ (by decide)
  have hpos : ¬ ((entries.length * sizeofIfreq : ℤ) < 0) := by
    rw [not_lt, ← Nat.cast_mul]
    exact Int.natCast_nonneg _
  unfold sockIoctlRet filterIfconfBuf
  dsimp only
  rw [if_neg (by simp), if_neg (by exact Bool.false_ne_true), if_neg (by simpa using hpos), if_neg hclamp, hn,
    Int.toNat_natCast, hloop]
  dsimp only
  by_cases hsame : (remaining vpns entries).length = entries.length
  · rw [if_pos hsame, if_pos (congrArg Nat.cast hsame), ← hsame]
    dsimp only
    rw [hclear]
  · rw [if_neg hsame, if_neg (by simpa using hsame)]
    dsimp only
    rw [hclear]
    exact if_neg Bool.false_ne_true

theorem remaining_remaining (entries : List (List UInt8)) :
    remaining vpns (remaining vpns entries) = remaining vpns entries := by
  have hclean : ∀ entry ∈ remaining vpns entries, ¬ IsVpnEntry vpns entry := fun entry h => (mem_remaining vpns h).1
  generalize remaining vpns entries = rest at hclean
  induction rest with
  | nil => rfl
  | cons entry rest ih =>
    obtain ⟨hentry, hrest⟩ := List.forall_mem_cons.1 hclean
    rw [remaining_cons_keep hentry, ih hrest]

theorem sockIoctlRet_filters (entries : List (List UInt8))
    (hentries : ∀ entry ∈ entries, entry.length = sizeofIfreq) (tail : List UInt8) (uid : UInt32) (stats : StatsTable) :
    let buf := entries.flatten ++ tail
    let data : SockIoctlData := ⟨0, true, buf.length⟩
    let kept := entries.filter fun entry => ¬ IsVpnEntry vpns entry
    let after := sockIoctlRet vpns .none uid data ⟨true, entries.length * sizeofIfreq, buf, stats⟩
    after.ifcLen = kept.length * sizeofIfreq ∧
      after.buf = (remaining vpns entries).flatten ++ List.replicate (buf.length - kept.length * sizeofIfreq) 0 ∧
      ((∀ entry ∈ entries, terminated entry = entry) → remaining vpns entries = kept) ∧
      sockIoctlRet vpns .none uid data after = after := by
  intro buf data kept after
  have hafter := sockIoctlRet_eq vpns hentries tail uid stats
  refine ⟨?_, ?_, remaining_of_nul vpns, ?_⟩
  · rw [← length_remaining]
    exact congrArg IfconfState.ifcLen hafter
  · rw [← length_remaining]
    exact congrArg IfconfState.buf hafter
  · -- the second pass is over the entries that remain, none of which is moved
    have hremaining := length_of_mem_remaining vpns hentries
    have hle : (remaining vpns entries).length * sizeofIfreq ≤ buf.length := by
      rw [length_remaining, List.length_append, length_flatten_entries hentries]
      exact (Nat.mul_le_mul_right _ (List.length_filter_le ..)).trans (Nat.le_add_right ..)
    generalize (if (remaining vpns entries).length = entries.length then stats else recordKmodIntercept stats uid 0) =
      stats' at hafter
    have hagain := sockIoctlRet_eq vpns hremaining
      (List.replicate (buf.length - (remaining vpns entries).length * sizeofIfreq) 0) uid stats'
    rw [remaining_remaining, List.length_append, List.length_replicate, length_flatten_entries hremaining,
      Nat.add_sub_cancel' hle, if_pos rfl] at hagain
    rw [show after = _ from hafter]
    exact hagain

end Ret

/-- An entry with this name and nothing else. -/
def ifreqNamed (name : String) : List UInt8 := (bytesOf name ++ List.replicate sizeofIfreq 0).take sizeofIfreq

theorem sockIoctlRet_filters_sample :
    (sockIoctlRet (some tunVpns) .none 10100 ⟨0, true, 84⟩
      ⟨true, 80, ifreqNamed "tun0" ++ (ifreqNamed "wlan0" ++ [1, 2, 3, 4]), ⟨[], 0⟩⟩).buf =
        ifreqNamed "wlan0" ++ List.replicate 44 0 := by
  have hfilters := sockIoctlRet_filters (some tunVpns) [ifreqNamed "tun0", ifreqNamed "wlan0"]
    (by decide +kernel) [1, 2, 3, 4] 10100 ⟨[], 0⟩
  obtain ⟨-, hbuf, hremaining, -⟩ := hfilters
  refine hbuf.trans ?_
  rw [hremaining (by decide +kernel)]
  decide +kernel

/-- What stands behind the NUL in the name of `wlan0` is not the same after the move. -/
theorem sockIoctlRet_cuts_name :
    let entry := (ifreqNamed "wlan0").set (ifNamSiz - 1) 1
    ¬ IsVpnEntry (some tunVpns) entry ∧
      (sockIoctlRet (some tunVpns) .none 10100 ⟨0, true, 80⟩ ⟨true, 80, ifreqNamed "tun0" ++ entry, ⟨[], 0⟩⟩).buf ≠
        entry ++ List.replicate sizeofIfreq 0 := by
  decide +kernel

end VpnHide
