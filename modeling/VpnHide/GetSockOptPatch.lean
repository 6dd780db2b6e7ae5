import VpnHide.GetSockOpt
import VpnHide.Kpatch

/-!
# Socket options in the patch (`vpnhide_getsockopt_post`)

The patch does not look at what the kernel has answered, so it agrees with the module on some answers only
(`Kpatch.getsockopt_agree_iff`).
-/

namespace VpnHide

section Kpatch
variable (g : GetsockoptGlobals) (faults : CopyFaults) (d : GetsockoptData) (m : UserMemory)

/-- `copy_to_user` of a number, if there is room for it. -/
def Kpatch.answerInt (len value : UInt32) : UserMemory × Bool :=
  if len.toInt32 ≥ 4 then
    match m.copyTo faults d.optval (Codec.u32.encode value) with
    | (true, m) => (m, true)
    | (false, m) => (m, false)
  else (m, false)

/-- `tcpInfoSize` is the size of `struct tcp_info`. -/
def Kpatch.answerTcpInfo (tcpInfoSize : ℕ) (len mss : UInt32) : UserMemory × Bool :=
  if len.toInt32 < 24 then (m, false)
  else
    match m.copyFrom faults d.optval (min len.toNat tcpInfoSize) with
    | (none, m) => (m, false)
    | (some info, m) =>
      match m.copyTo faults d.optval (memcpy info 16 (Codec.u32.encode mss ++ Codec.u32.encode mss)) with
      | (true, m) => (m, true)
      | (false, m) => (m, false)

/-- `vpnhide_getsockopt_post`, with a socket and pointers that are not null. The second component:
`record_kmod_intercept` is called. -/
def Kpatch.vpnhideGetsockoptPost (tcpInfoSize : ℕ) (uid : UInt32) : UserMemory × Bool :=
  if ¬ Kpatch.isHookActive g.policy .getsockopt uid then (m, false)
  else if ¬ Kpatch.isTargetUidVal g.policy uid then (m, false)
  else
    let sip := CoverPath.get g.spoofIp
    match m.getInt faults d.optlen with
    | (none, m) => (m, false)
    | (some len, m) =>
      match sockOpt d.level d.optname with
      | some .bindToDevice =>
        match m.put faults d.optlen (Codec.u32.encode 1) with
        | (false, m) => (m, false)
        | (true, m) => ((m.put faults d.optval [0]).2, true)
      | some .bindToIfindex => Kpatch.answerInt faults d m len 0
      | some .ipMtu => Kpatch.answerInt faults d m len (coverMtu4 sip)
      | some .ipMtuDiscover => Kpatch.answerInt faults d m len pmtudiscDont
      | some .ipv6Mtu => Kpatch.answerInt faults d m len (coverMtu6 sip)
      | some .tcpMaxseg => Kpatch.answerInt faults d m len (coverMss sip d.family)
      | some .tcpInfo => Kpatch.answerTcpInfo faults d m tcpInfoSize len (coverMss sip d.family)
      | some .ipv6MtuDiscover | none => (m, false)

end Kpatch

/-! ### The patch and the module -/

namespace Kpatch

/-- What the patch writes in place of a word. -/
def replace (sip : CoverPath) (family : UInt16) : SockOpt → UInt32 → UInt32
  | .ipMtuDiscover, _ => pmtudiscDont
  | .ipv6MtuDiscover, v => v
  | .ipMtu, _ => coverMtu4 sip
  | .ipv6Mtu, _ => coverMtu6 sip
  | .tcpMaxseg, _ | .tcpInfo, _ => coverMss sip family
  | .bindToDevice, _ | .bindToIfindex, _ => 0

section Post
variable {g : GetsockoptGlobals} {d : GetsockoptData} {m : UserMemory} {opt : SockOpt} {uid : UInt32} {tcpInfoSize : ℕ}

theorem answerInt_bytes (hat : opt.wordsAt = 0) (hone : opt.words = 1) (h : d.Answered m opt) (value : UInt32) :
    (answerInt .none d m (d.len m) value).1.bytes = d.withWords m opt ((d.words m opt).map fun _ => value) := by
  obtain ⟨hsize, hroom⟩ := h.one_word hat hone
  rw [answerInt, if_pos, UserMemory.copyTo_none (by rw [Codec.length_encode]; exact hroom), withWords_one hat hone]
  rw [ge_iff_le, Int32.le_iff_toInt_le, toInt_of_lt h.int]
  exact Int.ofNat_le.2 hsize

theorem answerTcpInfo_bytes (h : d.Answered m .tcpInfo) (htcp : 24 ≤ tcpInfoSize) (mss : UInt32) :
    (answerTcpInfo .none d m tcpInfoSize (d.len m) mss).1.bytes =
      d.withWords m .tcpInfo ((d.words m .tcpInfo).map fun _ => mss) := by
  have hsize : 24 ≤ (d.len m).toNat := h.size_le
  have hoptval := h.optval
  have hroom : d.optval + min (d.len m).toNat tcpInfoSize ≤ m.bytes.length := by omega
  have hfields : (Codec.u32.encode mss ++ Codec.u32.encode mss).length = 8 := by
    rw [List.length_append, Codec.length_encode]
    rfl
  have hinfo : 16 + (Codec.u32.encode mss ++ Codec.u32.encode mss).length ≤ min (d.len m).toNat tcpInfoSize := by omega
  have hlength : (memcpy (slice m.bytes d.optval (min (d.len m).toNat tcpInfoSize)) 16
      (Codec.u32.encode mss ++ Codec.u32.encode mss)).length = min (d.len m).toNat tcpInfoSize := by
    rw [length_memcpy (by rwa [length_slice hroom]), length_slice hroom]
  rw [answerTcpInfo, if_neg (not_lt_of_answered h), UserMemory.copyFrom_none hroom]
  dsimp only
  rw [UserMemory.copyTo_none (by rw [hlength]; exact hroom)]
  refine (memcpy_slice_memcpy hroom hinfo).trans ?_
  exact congrArg (memcpy m.bytes (d.optval + 16) <| Codec.u32.encode mss ++ ·) (List.append_nil _).symm

theorem vpnhideGetsockoptPost_bytes (hactive : Kpatch.isHookActive g.policy .getsockopt uid)
    (htarget : Kpatch.isTargetUidVal g.policy uid) (hopt : sockOpt d.level d.optname = some opt)
    (hname : opt ≠ .bindToDevice) (h : d.Answered m opt) (htcp : 24 ≤ tcpInfoSize) :
    (vpnhideGetsockoptPost g .none d m tcpInfoSize uid).1.bytes =
      d.withWords m opt ((d.words m opt).map (replace (.get g.spoofIp) d.family opt)) := by
  have hread := h.read ((d.optlen, 4) :: m.accesses)
  rw [vpnhideGetsockoptPost, if_neg (not_not.2 hactive), if_neg (not_not.2 htarget), getInt_optlen h.optlen, hopt]
  cases opt with
  | bindToDevice => exact absurd rfl hname
  | tcpInfo => exact answerTcpInfo_bytes hread htcp _
  | ipv6MtuDiscover =>
    have hroom := (h.one_word rfl rfl).2
    show m.bytes = _
    rw [withWords_one rfl rfl, replace, Codec.u32_encode_decode (length_slice hroom), memcpy_slice_self hroom]
  | _ => exact answerInt_bytes rfl rfl hread _

/-- The answers on which the module and the patch agree. -/
def Agrees (mtu4 mtu6 : ℕ) (vpns : Option (List UInt32)) (family : UInt16) : SockOpt → UInt32 → Prop
  | .ipMtuDiscover, _ => False
  | .ipv6MtuDiscover, v => v ≠ pmtudiscDont
  | opt, v => opt.Telling vpns v ∨ v = UInt32.ofNat (opt.answer mtu4 mtu6 family)

theorem replace_eq_iff {sip : CoverPath} (h : sip.Checked) (vpns : Option (List UInt32)) (family : UInt16)
    (opt : SockOpt) (v : UInt32) :
    opt.replace sip vpns family v = replace sip family opt v ↔
      Agrees (coverMtu4 sip).toNat (coverMtu6 sip).toNat vpns family opt v := by
  have hword {telling : Bool} {answer : UInt32} : (if telling then answer else v) = answer ↔ telling ∨ v = answer := by
    cases telling <;> simp
  have hmss := coverMss_eq h family
  rw [SockOpt.replace_eq h]
  cases opt with
  | ipMtuDiscover =>
    -- the module never answers what the patch always does
    refine iff_of_false ?_ id
    show ¬ (if decide (v = pmtudiscDont) then pmtudiscDo else v) = pmtudiscDont
    by_cases hv : v = pmtudiscDont
    · rw [if_pos (decide_eq_true hv)]
      decide
    · rw [if_neg (by rwa [decide_eq_true_iff])]
      exact hv
  | ipv6MtuDiscover =>
    show (if decide (v = pmtudiscDont) then pmtudiscDo else v) = v ↔ v ≠ pmtudiscDont
    by_cases hv : v = pmtudiscDont
    · rw [if_pos (decide_eq_true hv), hv]
      decide
    · rw [if_neg (by rwa [decide_eq_true_iff])]
      exact iff_of_true rfl hv
  | ipMtu => exact (Eq.congr_right UInt32.ofNat_toNat.symm).trans hword
  | ipv6Mtu => exact (Eq.congr_right UInt32.ofNat_toNat.symm).trans hword
  | tcpMaxseg | tcpInfo =>
    rw [replace, hmss]
    exact hword
  | bindToIfindex | bindToDevice => exact hword

end Post

/-- On an option that is a number the module and the patch show the same if the answer tells of the path, or if it is
the cover value. On IP_MTU_DISCOVER they never do. -/
theorem getsockopt_agree_iff {g : GetsockoptGlobals} {objects : SockObjects} {uid : UInt32} {args : GetsockoptArgs}
    {opt : SockOpt} {family : UInt16} {frames : List GetsockoptFrame} {m : UserMemory} {tcpInfoSize : ℕ}
    {updates : List (Bool × CoverPath)} (hg : g.spoofIp = coverAfter updates)
    (hcall : CoveredCall g objects uid args opt family frames) (hactive : Kpatch.isHookActive g.policy .getsockopt uid)
    (htarget : Kpatch.isTargetUidVal g.policy uid) (hname : opt ≠ .bindToDevice) (hm : args.Answered m opt)
    (htcp : 24 ≤ tcpInfoSize) :
    (getsockopt g objects .none uid frames 0 m).1.bytes =
        (vpnhideGetsockoptPost g .none ⟨args, family⟩ m tcpInfoSize uid).1.bytes ↔
      ∀ w ∈ args.words m opt, Agrees (coverMtu4 (.get g.spoofIp)).toNat (coverMtu6 (.get g.spoofIp)).toNat
        g.vpnIndices family opt w := by
  have hsip : (CoverPath.get g.spoofIp).Checked := hg ▸ checked_coverAfter updates
  have hpost := vpnhideGetsockoptPost_bytes (d := ⟨args, family⟩) hactive htarget hcall.option hname hm htcp
  rw [hcall.bytes hname hm, hpost]
  refine (GetsockoptArgs.withWords_inj hm (args.length_map_words _) (args.length_map_words _)).trans ?_
  refine List.map_inj_left.trans ?_
  exact forall₂_congr fun w _ => replace_eq_iff hsip g.vpnIndices family opt w

/-- A path MTU of 1388 is covered by both. Of an MTU discovery that is on, the patch alone says that it is off. -/
theorem getsockopt_agree_mtu :
    let mtu : UserMemory := ⟨[4, 0, 0, 0, 0x6c, 5, 0, 0], []⟩
    let discover : UserMemory := ⟨[4, 0, 0, 0, 1, 0, 0, 0], []⟩
    (getsockopt twoProbeGlobals twoProbeObjects .none 10100 (twoProbeFrames 0 14) 0 mtu).1.bytes =
        (vpnhideGetsockoptPost twoProbeGlobals .none ⟨twoProbeArgs 0 14, 2⟩ mtu 232 10100).1.bytes ∧
      (getsockopt twoProbeGlobals twoProbeObjects .none 10100 (twoProbeFrames 0 10) 0 discover).1.bytes ≠
        (vpnhideGetsockoptPost twoProbeGlobals .none ⟨twoProbeArgs 0 10, 2⟩ discover 232 10100).1.bytes := by
  have hactive : Kpatch.isHookActive twoProbeGlobals.policy .getsockopt 10100 := by decide +kernel
  have htarget : Kpatch.isTargetUidVal twoProbeGlobals.policy 10100 := by decide +kernel
  have hmtu : sockOpt (twoProbeArgs 0 14).level (twoProbeArgs 0 14).optname = some .ipMtu := by decide
  have hdiscover : sockOpt (twoProbeArgs 0 10).level (twoProbeArgs 0 10).optname = some .ipMtuDiscover := by decide
  constructor
  · refine (getsockopt_agree_iff rfl (coveredCall_twoProbes hmtu) hactive htarget (by decide)
      ⟨by decide, by decide, by decide, by decide, by decide⟩ (by decide)).2 fun w hw => .inl ?_
    rw [List.mem_singleton.1 hw]
    decide
  · refine mt (getsockopt_agree_iff rfl (coveredCall_twoProbes hdiscover) hactive htarget (by decide)
      ⟨by decide, by decide, by decide, by decide, by decide⟩ (by decide)).1 fun hall => ?_
    exact hall _ (List.mem_singleton.2 rfl)

end Kpatch

end VpnHide
