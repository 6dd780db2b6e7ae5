import VpnHide.FibTrie
import VpnHide.StatsRun
import VpnHide.Lib.Scan

/-!
# Writing to the control device (`vpnhide_dev_write`)

The Java side reports its counts as lines of text. The text is kept for `VH_GET_JAVA_STATS`, and the lines are counted
in the statistics table. The same buffer serves both: the loop over the lines puts a NUL in the place of each newline,
so that only the first line is left to be read (`vpnhideDevWrite_stats`).
-/

namespace VpnHide

/-! ### The state behind the device -/

/-- `struct vpnhide_active_vpn`. -/
structure ActiveVpn where
  ifindex : UInt32
  name : Vector UInt8 maxIfaceLen

/-- `struct vpnhide_vpn_ifindexes`; `struct vpnhide_active_vpns` holds the same. -/
structure VpnIfindexes where
  count : Int32
  vpns : Vector ActiveVpn maxActiveVpns

def javaStatsSize : ℕ := 4096
def javaStatusSize : ℕ := 256

structure DeviceState where
  kernel : KernelState
  /-- `global_active_vpns` -/
  activeVpns : Option VpnIfindexes
  javaStatsBuf : List UInt8
  javaStatusBuf : List UInt8
  /-- `global_cover_ifname` -/
  coverIfname : List UInt8
  javaStatsClearGeneration : UInt32

def DeviceState.init : DeviceState where
  kernel := .init
  activeVpns := none
  javaStatsBuf := List.replicate javaStatsSize 0
  javaStatusBuf := List.replicate javaStatusSize 0
  coverIfname := List.replicate ifNamSiz 0
  javaStatsClearGeneration := 1

/-- What follows a change that readers are to be told of. -/
def DeviceState.nextGeneration (st : DeviceState) : DeviceState :=
  { st with kernel := { st.kernel with generation := st.kernel.generation + 1 } }

/-! ### Lines -/

/-- The arguments of `vpnhide_kmod_record_java_stat`. -/
structure JavaStat where
  uid : UInt32
  hook : String
  count : UInt64
  deriving DecidableEq

/-- The text of some bytes, which `strcmp` compares with the names of hooks. -/
def textOf (bytes : List UInt8) : String := String.ofList (bytes.map fun b => Char.ofNat b.toNat)

/-- `%u;%127[^;];%u` -/
def javaStatFormat : List ScanItem :=
  [.unsigned, .literal ';'.toUInt8, .charsExcept 127 ';'.toUInt8, .literal ';'.toUInt8, .unsigned]

/-- `%u;%u` -/
def javaTotalFormat : List ScanItem := [.unsigned, .literal ';'.toUInt8, .unsigned]

/-- The second `sscanf`, without a hook. -/
def parseJavaTotal (line : List UInt8) : Option JavaStat :=
  match sscanf javaTotalFormat line with
  | [.number uid, .number count] =>
    if UInt32.ofNat count > 0 then some ⟨.ofNat uid, "", (UInt32.ofNat count).toUInt64⟩ else none
  | _ => none

/-- What a line reports, if it is well formed. -/
def parseJavaStat (line : List UInt8) : Option JavaStat :=
  match sscanf javaStatFormat line with
  | [.number uid, .text hook, .number count] =>
    if UInt32.ofNat count > 0 then some ⟨.ofNat uid, textOf hook, (UInt32.ofNat count).toUInt64⟩
    else parseJavaTotal line
  | _ => parseJavaTotal line

def recordJavaStat (t : StatsTable) (stat : JavaStat) : StatsTable :=
  vpnhideKmodRecordJavaStat t stat.uid stat.hook stat.count

def recordLine (line : List UInt8) (t : StatsTable) : StatsTable := (parseJavaStat line).elim t (recordJavaStat t)

def newline : UInt8 := '\n'.toUInt8

/-- `*ptr`. -/
def byteAt (buf : List UInt8) (ptr : ℕ) : UInt8 := buf.getD ptr 0

theorem lt_length_of_byteAt {buf : List UInt8} {ptr : ℕ} (h : byteAt buf ptr ≠ 0) : ptr < buf.length := by
  by_contra hge
  rw [byteAt, List.getD_eq_getElem?_getD, List.getElem?_eq_none (not_lt.1 hge)] at h
  exact h rfl

/-- The loop over the lines of `java_stats_buf`. -/
def recordLines (ptr : ℕ) (buf : List UInt8) (t : StatsTable) : List UInt8 × StatsTable :=
  if _h : byteAt buf ptr = 0 then (buf, t)
  else
    let rest := cstr (buf.drop ptr)
    match strchr newline rest with
    | none => (buf, recordLine rest t)
    | some place =>
      let lineEnd := ptr + (rest.length - place.length)
      let cut := buf.set lineEnd 0
      let t := if byteAt cut ptr = 0 then t else recordLine (cstr (cut.drop ptr)) t
      recordLines (lineEnd + 1) cut t
termination_by buf.length - ptr
decreasing_by
  have hlt := lt_length_of_byteAt _h
  rw [List.length_set]
  omega

/-! ### Writes -/

/-- `strncpy` into an array of `size` bytes, with the last one set to NUL. -/
def setText (size : ℕ) (buf src : List UInt8) : List UInt8 := (strncpy buf src (size - 1)).set (size - 1) 0

def writeStats (text : List UInt8) (st : DeviceState) : DeviceState :=
  let (buf, stats) := recordLines 0 (setText javaStatsSize st.javaStatsBuf text) st.kernel.stats
  { st with kernel := { st.kernel with stats := stats }, javaStatsBuf := buf }

def clearJavaStats (st : DeviceState) : DeviceState :=
  { st with
    javaStatsBuf := st.javaStatsBuf.set 0 0
    javaStatsClearGeneration := st.javaStatsClearGeneration + 1 }.nextGeneration

def writeCoverIface (text : List UInt8) (st : DeviceState) : DeviceState :=
  let val := if (cstr text).getLast? = some newline then (cstr text).dropLast else cstr text
  { st with
    coverIfname :=
      if val = [] ∨ val = bytesOf "none" then st.coverIfname.set 0 0
      else setText ifNamSiz st.coverIfname val }.nextGeneration

/-- A call of `write`, with what the kernel meets. -/
structure DevWrite where
  bytes : List UInt8
  kmalloc : Bool
  copyIn : Bool

def vpnhideDevWrite (w : DevWrite) (st : DeviceState) : Except Errno ℕ × DeviceState :=
  if w.bytes.length > 4096 then (.error .einval, st)
  else if ¬ w.kmalloc then (.error .enomem, st)
  else if ¬ w.copyIn then (.error .efault, st)
  else
    let kbuf := w.bytes ++ [0]
    (.ok w.bytes.length,
      if strncmpEq 6 kbuf (bytesOf "stats:") then writeStats (kbuf.drop 6) st
      else if strncmpEq 7 kbuf (bytesOf "status:") then
        { st with javaStatusBuf := setText javaStatusSize st.javaStatusBuf (kbuf.drop 7) }
      else if cstr kbuf = bytesOf "clear_stats" then clearJavaStats st
      else if strncmpEq 12 kbuf (bytesOf "cover_iface:") then writeCoverIface (kbuf.drop 12) st
      else st)

/-! ### Other calls -/

/-- What a call of `VH_SET_VPN_IFINDEXES` meets. -/
structure SetVpnEnv where
  capable : Bool
  kmalloc : Bool
  copyIn : Bool
  kzalloc : Bool

/-- `VH_SET_VPN_IFINDEXES`; the cache of names is not modelled. -/
def vhSetVpnIfindexes (env : SetVpnEnv) (data : VpnIfindexes) (st : DeviceState) : Except Errno Unit × DeviceState :=
  if ¬ env.capable then (.error .eperm, st)
  else if ¬ env.kmalloc then (.error .enomem, st)
  else if ¬ env.copyIn then (.error .efault, st)
  else if data.count < 0 ∨ data.count > Int32.ofNat maxActiveVpns then (.error .einval, st)
  else if ¬ env.kzalloc then (.error .enomem, st)
  else (.ok (), { st with activeVpns := some data }.nextGeneration)

/-- `VH_GET_JAVA_STATS`: the bytes copied to the caller. -/
def vhGetJavaStats (capable copyOut : Bool) (st : DeviceState) : Except Errno (List UInt8) :=
  if ¬ capable then .error .eperm else if ¬ copyOut then .error .efault else .ok st.javaStatsBuf

/-- Calls that change the state. -/
inductive DeviceOp where
  | write (w : DevWrite)
  | setPolicy (alloc : AllocOutcomes) (capable : Bool) (request : Option PolicyIoctl)
  | setVpnIfindexes (env : SetVpnEnv) (data : VpnIfindexes)
  | intercept (uid : UInt32) (type : Int32)
  | clearStats (kvcalloc : Bool)

def DeviceState.onKernel (st : DeviceState) (op : KernelOp) : DeviceState := { st with kernel := op.run st.kernel }

def DeviceOp.run (st : DeviceState) : DeviceOp → DeviceState
  | .write w => (vpnhideDevWrite w st).2
  | .setPolicy alloc capable request => st.onKernel (.setPolicy alloc capable request)
  | .setVpnIfindexes env data => (vhSetVpnIfindexes env data st).2
  | .intercept uid type => st.onKernel (.intercept uid type)
  | .clearStats kvcalloc => st.onKernel (.clearStats kvcalloc)

/-! ### The loop over the lines -/

theorem strchr_append {c : UInt8} {line : List UInt8} (h : c ∉ line) (rest : List UInt8) :
    strchr c (line ++ c :: rest) = some (c :: rest) := by
  induction line with
  | nil => exact if_pos rfl
  | cons d line ih =>
    rw [List.mem_cons, not_or] at h
    rw [List.cons_append, strchr, if_neg (Ne.symm h.1), ih h.2]

theorem strchr_eq_none {c : UInt8} {text : List UInt8} (h : c ∉ text) : strchr c text = none := by
  induction text with
  | nil => rfl
  | cons d text ih =>
    rw [List.mem_cons, not_or] at h
    rw [strchr, if_neg (Ne.symm h.1), ih h.2]

theorem cstr_append_zero {text : List UInt8} (h : 0 ∉ text) (tail : List UInt8) : cstr (text ++ 0 :: tail) = text := by
  have hall : ∀ c ∈ text, decide (c ≠ 0) = true := fun c hc => decide_eq_true fun heq => h (heq ▸ hc)
  rw [cstr, List.takeWhile_append_of_pos hall, List.takeWhile_cons_of_neg (by simp), List.append_nil]

theorem byteAt_append (front rest : List UInt8) : byteAt (front ++ rest) front.length = rest.headD 0 := by
  rw [byteAt, List.getD_eq_getElem?_getD, List.getElem?_append_right (Nat.le_refl _), Nat.sub_self,
    ← List.head?_eq_getElem?, List.headD_eq_head?_getD]

theorem recordLine_nil (t : StatsTable) : recordLine [] t = t := rfl

/-- What the loop leaves of a byte. -/
def cutNewline (c : UInt8) : UInt8 := if c = newline then 0 else c

theorem map_cutNewline {line : List UInt8} (h : newline ∉ line) : line.map cutNewline = line := by
  refine (List.map_congr_left fun c hc => ?_).trans (List.map_id line)
  have hne : c ≠ newline := fun heq => h (heq ▸ hc)
  exact if_neg hne

theorem headD_append_of_ne_nil {text : List UInt8} (h : text ≠ []) (tail : List UInt8) :
    (text ++ tail).headD 0 = text.head h := by
  obtain ⟨c, text, rfl⟩ := List.exists_cons_of_ne_nil h
  rfl

theorem recordLines_cons (front tail : List UInt8) {line rest : List UInt8} (hline : newline ∉ line)
    (hzero : 0 ∉ line ++ newline :: rest) (t : StatsTable) :
    recordLines front.length (front ++ (line ++ newline :: rest ++ 0 :: tail)) t =
      recordLines (front ++ line ++ [0]).length (front ++ line ++ [0] ++ (rest ++ 0 :: tail)) (recordLine line t) := by
  have hne : line ++ newline :: rest ≠ [] := by simp
  have hbyte : byteAt (front ++ (line ++ newline :: rest ++ 0 :: tail)) front.length ≠ 0 := by
    rw [byteAt_append, headD_append_of_ne_nil hne]
    exact fun heq => hzero (heq ▸ List.head_mem hne)
  have hcut : (front ++ (line ++ newline :: rest ++ 0 :: tail)).set (front.length + line.length) 0 =
      front ++ (line ++ 0 :: (rest ++ 0 :: tail)) := by
    rw [List.append_assoc line, List.set_append_right _ _ (Nat.le_add_right ..), Nat.add_sub_cancel_left,
      List.set_append_right _ _ (Nat.le_refl _), Nat.sub_self]
    rfl
  have hzeroLine : 0 ∉ line := fun hmem => hzero (List.mem_append_left _ hmem)
  have hend : front.length + ((line ++ newline :: rest).length - (newline :: rest).length) =
      front.length + line.length := by
    rw [List.length_append, Nat.add_sub_cancel]
  rw [recordLines, dif_neg hbyte]
  simp only [List.drop_left, cstr_append_zero hzero, strchr_append hline, hend, hcut, cstr_append_zero hzeroLine,
    byteAt_append]
  have hrecord : (if (line ++ 0 :: (rest ++ 0 :: tail)).headD 0 = 0 then t else recordLine line t) =
      recordLine line t := by
    cases line with
    | nil => rw [recordLine_nil, ite_self]
    | cons c line =>
      have hc : c ≠ 0 := fun heq => hzeroLine (heq ▸ List.mem_cons_self)
      exact if_neg hc
  have hlength : (front ++ line ++ [0]).length = front.length + line.length + 1 := by
    rw [List.length_append, List.length_append]
    rfl
  rw [hrecord, hlength, List.append_assoc, List.append_assoc]
  rfl

/-- The loop records every line, and cuts the text at all of its newlines. -/
theorem recordLines_eq (front tail : List UInt8) {text : List UInt8} (h : 0 ∉ text) (t : StatsTable) :
    recordLines front.length (front ++ (text ++ 0 :: tail)) t =
      (front ++ (text.map cutNewline ++ 0 :: tail),
        (text.splitOn newline).foldl (fun t line => recordLine line t) t) := by
  induction hn : text.length using Nat.strongRecOn generalizing front text t with
  | ind n ih =>
    subst hn
    by_cases hmem : newline ∈ text
    · obtain ⟨line, rest, rfl, hline⟩ := List.eq_append_cons_of_mem hmem
      have hrest : 0 ∉ rest := fun hzero => h (List.mem_append_right _ (List.mem_cons_of_mem _ hzero))
      have hlt : rest.length < (line ++ newline :: rest).length := by
        rw [List.length_append, List.length_cons]
        omega
      rw [recordLines_cons front tail hline h, ih _ hlt (front ++ line ++ [0]) hrest _ rfl,
        List.splitOn_append_cons_self,
        List.splitOn_eq_singleton hline, List.map_append, List.map_cons, map_cutNewline hline]
      simp [cutNewline]
    · rw [List.splitOn_eq_singleton hmem, map_cutNewline hmem, List.foldl_cons, List.foldl_nil, recordLines]
      by_cases hnil : text = []
      · subst hnil
        have hbyte : byteAt (front ++ ([] ++ 0 :: tail)) front.length = 0 := byteAt_append front _
        rw [dif_pos hbyte]
        rfl
      · have hbyte : byteAt (front ++ (text ++ 0 :: tail)) front.length ≠ 0 := by
          rw [byteAt_append, headD_append_of_ne_nil hnil]
          exact fun heq => h (heq ▸ List.head_mem hnil)
        rw [dif_neg hbyte]
        simp only [List.drop_left, cstr_append_zero h, strchr_eq_none hmem]

theorem parseJavaStat_line (uid : UInt32) {hook : List UInt8} (hne : hook ≠ []) (hhook : ';'.toUInt8 ∉ hook)
    (hlen : hook.length ≤ 127) {count : UInt32} (hcount : count > 0) :
    parseJavaStat (decimal uid.toNat ++ ';'.toUInt8 :: (hook ++ ';'.toUInt8 :: decimal count.toNat)) =
      some ⟨uid, textOf hook, count.toUInt64⟩ := by
  have hdigits (rest : List UInt8) : leadingDigits 10 (';'.toUInt8 :: rest) = [] := rfl
  have hliteral (format : List ScanItem) (rest : List UInt8) :
      sscanf (.literal ';'.toUInt8 :: format) (';'.toUInt8 :: rest) = sscanf format rest := by
    rw [sscanf, if_pos rfl]
  have hlast : sscanf [.unsigned] (decimal count.toNat) = [.number count.toNat] := by
    have h := @sscanf_unsigned_decimal [] count.toNat [] rfl
    rwa [List.append_nil] at h
  have hscan : sscanf javaStatFormat
    (decimal uid.toNat ++ ';'.toUInt8 :: (hook ++ ';'.toUInt8 :: decimal count.toNat)) =
      [.number uid.toNat, .text hook, .number count.toNat] := by
    rw [javaStatFormat, sscanf_unsigned_decimal _ _ (hdigits _), hliteral, sscanf_charsExcept _ hne hhook hlen,
      hliteral, hlast]
  rw [parseJavaStat, hscan]
  simp only [UInt32.ofNat_toNat]
  exact if_pos hcount

/-! ### What is left of a report -/

theorem setText_eq {size : ℕ} (buf : List UInt8) {text : List UInt8} (h : 0 ∉ text) (hlen : text.length + 1 < size) :
    ∃ tail, setText size buf (text ++ [0]) = text ++ 0 :: tail := by
  have hroom : size - 1 - text.length = size - 2 - text.length + 1 := by omega
  have hcopy : (text ++ List.replicate (size - 1) 0).take (size - 1) =
      text ++ 0 :: List.replicate (size - 2 - text.length) 0 := by
    rw [List.take_append, List.take_of_length_le (by omega), List.take_replicate,
      Nat.min_eq_left (Nat.sub_le ..), hroom]
    rfl
  rw [setText, strncpy, cstr_append_zero h, hcopy, List.append_assoc, List.set_append_right _ _ (by omega), hroom,
    List.cons_append, List.set_cons_succ]
  exact ⟨_, rfl⟩

theorem cstr_cutNewline {text : List UInt8} (h : 0 ∉ text) (tail : List UInt8) :
    cstr (text.map cutNewline ++ 0 :: tail) = text.takeWhile (· ≠ newline) := by
  induction text with
  | nil => exact List.takeWhile_cons_of_neg (by simp)
  | cons c text ih =>
    rw [List.mem_cons, not_or] at h
    by_cases hc : c = newline
    · rw [List.takeWhile_cons_of_neg (by simpa using hc), List.map_cons, cutNewline, if_pos hc]
      exact List.takeWhile_cons_of_neg (by simp)
    · rw [List.takeWhile_cons_of_pos (by simpa using hc), List.map_cons, cutNewline, if_neg hc, List.cons_append,
        cstr_cons_of_ne (Ne.symm h.1), ih h.2]

theorem foldl_recordLine (lines : List (List UInt8)) (t : StatsTable) :
    lines.foldl (fun t line => recordLine line t) t = (lines.filterMap parseJavaStat).foldl recordJavaStat t := by
  induction lines generalizing t with
  | nil => rfl
  | cons line lines ih =>
    rw [List.foldl_cons, ih, recordLine]
    cases hline : parseJavaStat line with
    | none => rw [List.filterMap_cons_none hline, Option.elim_none]
    | some stat => rw [List.filterMap_cons_some hline, Option.elim_some, List.foldl_cons]

/-- The lines are recorded, and of the text the first one is left. -/
theorem writeStats_eq (st : DeviceState) {text : List UInt8} (h : 0 ∉ text) (hlen : text.length ≤ 4090) :
    ∃ tail, cstr (text.map cutNewline ++ 0 :: tail) = text.takeWhile (· ≠ newline) ∧
      writeStats (text ++ [0]) st =
        { st with
          kernel := { st.kernel with
            stats := ((text.splitOn newline).filterMap parseJavaStat).foldl recordJavaStat st.kernel.stats }
          javaStatsBuf := text.map cutNewline ++ 0 :: tail } := by
  obtain ⟨tail, htail⟩ :=
    setText_eq st.javaStatsBuf h (show text.length + 1 < javaStatsSize by unfold javaStatsSize; omega)
  refine ⟨tail, cstr_cutNewline h tail, ?_⟩
  have hloop := recordLines_eq [] tail h st.kernel.stats
  rw [List.nil_append, List.nil_append, List.length_nil, foldl_recordLine] at hloop
  rw [writeStats, htail, hloop]

/-! ### Reading a report back -/

def DevWrite.IsStats (w : DevWrite) : Prop := bytesOf "stats:" <+: w.bytes

def DevWrite.IsClearStats (w : DevWrite) : Prop := cstr w.bytes = bytesOf "clear_stats"

/-- The call is neither a `stats:` nor a `clear_stats` write. -/
def DeviceOp.KeepsJavaStats : DeviceOp → Prop
  | .write w => ¬ w.IsStats ∧ ¬ w.IsClearStats
  | _ => True

theorem isStats_iff (w : DevWrite) : strncmpEq 6 (w.bytes ++ [0]) (bytesOf "stats:") ↔ w.IsStats := by
  have hpattern : 0 ∉ bytesOf "stats:" := by decide
  rw [show 6 = (bytesOf "stats:").length from rfl, strncmpEq_iff_prefix _ hpattern, List.prefix_concat_iff]
  refine or_iff_right fun heq => hpattern ?_
  rw [heq]
  exact List.mem_append_right _ (List.mem_singleton_self 0)

theorem javaStatsBuf_run {op : DeviceOp} (h : op.KeepsJavaStats) (st : DeviceState) :
    (op.run st).javaStatsBuf = st.javaStatsBuf := by
  cases op with
  | write w =>
    have hclear : cstr (w.bytes ++ [0]) ≠ bytesOf "clear_stats" := by
      rw [cstr_append_nul]
      exact h.2
    show (vpnhideDevWrite w st).2.javaStatsBuf = _
    unfold vpnhideDevWrite
    dsimp only
    rw [if_neg (mt (isStats_iff w).1 h.1), if_neg hclear]
    split_ifs <;> rfl
  | setVpnIfindexes env data =>
    show (vhSetVpnIfindexes env data st).2.javaStatsBuf = _
    unfold vhSetVpnIfindexes
    split_ifs <;> rfl
  | setPolicy => rfl
  | intercept => rfl
  | clearStats => rfl

theorem javaStatsBuf_runs {ops : List DeviceOp} (h : ∀ op ∈ ops, op.KeepsJavaStats) (st : DeviceState) :
    (ops.foldl DeviceOp.run st).javaStatsBuf = st.javaStatsBuf := by
  induction ops generalizing st with
  | nil => rfl
  | cons op ops ih =>
    obtain ⟨hop, hops⟩ := List.forall_mem_cons.1 h
    rw [List.foldl_cons, ih hops, javaStatsBuf_run hop]

/-- A `stats:` write with the given text, and enough memory. -/
def statsWrite (text : List UInt8) : DevWrite := ⟨bytesOf "stats:" ++ text, true, true⟩

theorem vpnhideDevWrite_statsWrite (st : DeviceState) {text : List UInt8} (hlen : text.length ≤ 4090) :
    vpnhideDevWrite (statsWrite text) st = (.ok (6 + text.length), writeStats (text ++ [0]) st) := by
  have hlength : (statsWrite text).bytes.length = 6 + text.length := List.length_append
  have hstats : (statsWrite text).IsStats := List.prefix_append ..
  have hdrop : ((statsWrite text).bytes ++ [0]).drop 6 = text ++ [0] := by
    rw [statsWrite, List.append_assoc]
    exact List.drop_left' rfl
  unfold vpnhideDevWrite
  dsimp only
  rw [if_neg (by omega), if_neg (by simp [statsWrite]), if_neg (by simp [statsWrite]),
    if_pos ((isStats_iff _).2 hstats), hdrop, hlength]

theorem takeWhile_eq_self_iff_notMem {text : List UInt8} : text.takeWhile (· ≠ newline) = text ↔ newline ∉ text := by
  rw [List.takeWhile_eq_self_iff]
  constructor
  · intro h hmem
    exact absurd rfl (of_decide_eq_true (h newline hmem))
  · intro h c hc
    exact decide_eq_true fun heq => h (heq ▸ hc)

/-- Every line of a report is recorded. The report is read back if and only if it is a single line without a newline. -/
theorem vpnhideDevWrite_stats (st : DeviceState) {text : List UInt8} (h : 0 ∉ text) (hlen : text.length ≤ 4090) :
    (vpnhideDevWrite (statsWrite text) st).1 = .ok (6 + text.length) ∧
    (vpnhideDevWrite (statsWrite text) st).2.kernel = { st.kernel with
      stats := ((text.splitOn newline).filterMap parseJavaStat).foldl recordJavaStat st.kernel.stats } ∧
    ((∀ ops : List DeviceOp, (∀ op ∈ ops, op.KeepsJavaStats) →
      ∃ buf, vhGetJavaStats true true (ops.foldl DeviceOp.run (vpnhideDevWrite (statsWrite text) st).2) = .ok buf ∧
        cstr buf = text) ↔ newline ∉ text) := by
  obtain ⟨tail, hcstr, hwrite⟩ := writeStats_eq st h hlen
  rw [vpnhideDevWrite_statsWrite st hlen, hwrite]
  refine ⟨rfl, rfl, ?_⟩
  rw [← takeWhile_eq_self_iff_notMem, ← hcstr]
  constructor
  · intro hread
    obtain ⟨buf, hbuf, heq⟩ := hread [] (by simp)
    cases hbuf
    exact heq
  · intro heq ops hops
    refine ⟨_, rfl, ?_⟩
    rw [javaStatsBuf_runs hops]
    exact heq

theorem vpnhideDevWrite_stats_oneLine :
    ∃ buf, vhGetJavaStats true true (vpnhideDevWrite (statsWrite (bytesOf "10001;Network;3")) .init).2 = .ok buf ∧
      cstr buf = bytesOf "10001;Network;3" :=
  have hzero : 0 ∉ bytesOf "10001;Network;3" := by decide
  have hlen : (bytesOf "10001;Network;3").length ≤ 4090 := by decide
  (vpnhideDevWrite_stats .init hzero hlen).2.2.2 (by decide) [] (by simp)

/-- Of two lines, the second one is lost. -/
theorem vpnhideDevWrite_stats_cut :
    ∃ buf, vhGetJavaStats true true
      (vpnhideDevWrite (statsWrite (bytesOf "10001;Network;3\n10002;Network;4")) .init).2 = .ok buf ∧
      cstr buf = bytesOf "10001;Network;3" ∧ cstr buf ≠ bytesOf "10001;Network;3\n10002;Network;4" := by
  have hzero : 0 ∉ bytesOf "10001;Network;3\n10002;Network;4" := by decide
  have hlen : (bytesOf "10001;Network;3\n10002;Network;4").length ≤ 4090 := by decide
  obtain ⟨tail, hcstr, hwrite⟩ := writeStats_eq .init hzero hlen
  rw [vpnhideDevWrite_statsWrite _ hlen, hwrite]
  refine ⟨_, rfl, hcstr.trans (by decide), ?_⟩
  dsimp only
  rw [hcstr]
  decide

end VpnHide
