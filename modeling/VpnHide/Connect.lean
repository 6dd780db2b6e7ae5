import VpnHide.Kpatch
import VpnHide.OwnedPorts

/-!
# The connect hooks (`kmod/hooks_socket.c`, `kpatch/security/vpnhide/hook_socket.c`)

Three pieces of code decide whether a connection is refused: the module's hook on the system call, its
hook on the security layer, and the patch. Each classifies the destination in its own order. All three
come down to `connectDecision`: the destination is local, the port policy blocks it, and the uid does not
own it. A refusal is the port and protocol that go into the statistics.
-/

namespace VpnHide

/-- The part of `struct sockaddr` the hooks read; port and address in network byte order. -/
inductive SockAddr where
  | inet (port : UInt16) (addr : UInt32)
  | inet6 (port : UInt16) (addr : Address)
  | other (family : UInt16)
  deriving DecidableEq, Repr

/-- `struct socket`: the `sk_type` of its `sk`, if there is one. -/
structure Socket where
  skType : Option UInt16

def sockStream : UInt16 := 1

def ntohs (x : UInt16) : UInt16 := (x <<< (8 : UInt16)) ||| (x >>> (8 : UInt16))

/-- `sk_type == SOCK_STREAM ? VH_PROTO_TCP : VH_PROTO_UDP`. -/
def sockProto (skType : UInt16) : UInt8 := if skType = sockStream then protoTcp else protoUdp

abbrev Refusal := UInt16 × UInt8

section Hooks
variable (policy : Option PolicySnapshot) (own : PortOwnership) (uid : UInt32)

/-- `socket_connect_entry`, up to `data->should_block`. -/
def socketConnectEntry (sysConnectUsesWrapper : Bool) (sock : Option Socket) (addr : Option SockAddr) :
    Option Refusal :=
  if !isHookActive policy .connect uid then none
  else if sysConnectUsesWrapper && sock.isNone then none
  else match policy with
    | none => none
    | some snapshot => match vpnhideFindPortTarget (some snapshot) uid, addr, sock with
      | some urules, some (.inet portBe v4), some ⟨some skType⟩ =>
        if ipv4IsLoopback v4 || v4 == htonl inaddrAny then
          let port := ntohs portBe
          let proto := sockProto skType
          if shouldBlockPort snapshot urules port proto &&
              !vpnhideUidOwnsPort own uid port proto afInet (v4Address v4) then some (port, proto)
          else none
        else none
      | some urules, some (.inet6 portBe v6), some ⟨some skType⟩ =>
        let isLoopback :=
          if ipv6AddrLoopback v6 || ipv6AddrAny v6 then true
          else if ipv6AddrV4mapped v6 then ipv4IsLoopback (v6.get 3) || v6.get 3 == htonl inaddrAny
          else false
        if isLoopback then
          let port := ntohs portBe
          let proto := sockProto skType
          let (family, address) :=
            if ipv6AddrV4mapped v6 then (afInet, v4Address (v6.get 3)) else (afInet6, v6)
          if shouldBlockPort snapshot urules port proto &&
              !vpnhideUidOwnsPort own uid port proto family address then some (port, proto)
          else none
        else none
      | _, _, _ => none

/-- `direct_connect_should_block`; the refusal is what it writes to its out parameters. -/
def directConnectShouldBlock (sock : Option Socket) (addr : Option SockAddr) : Option Refusal :=
  match sock, addr with
  | some ⟨some skType⟩, some addr =>
    match policy, vpnhideFindPortTarget policy uid with
    | some snapshot, some urules => match addr with
      | .inet portBe v4 =>
        let port := ntohs portBe
        let proto := sockProto skType
        if (ipv4IsLoopback v4 || v4 == htonl inaddrAny) && shouldBlockPort snapshot urules port proto &&
            !vpnhideUidOwnsPort own uid port proto afInet (v4Address v4) then some (port, proto)
        else none
      | .inet6 portBe v6 =>
        let port := ntohs portBe
        let proto := sockProto skType
        let (isLocal, family, address) :=
          if ipv6AddrV4mapped v6 then
            (ipv4IsLoopback (v6.get 3) || v6.get 3 == htonl inaddrAny, afInet, v4Address (v6.get 3))
          else (ipv6AddrLoopback v6 || ipv6AddrAny v6, afInet6, v6)
        if isLocal && shouldBlockPort snapshot urules port proto &&
            !vpnhideUidOwnsPort own uid port proto family address then some (port, proto)
        else none
      | .other _ => none
    | _, _ => none
  | _, _ => none

def securitySocketConnectEntry (sock : Option Socket) (addr : Option SockAddr) : Option Refusal :=
  if !isHookActive policy .connect uid then none else directConnectShouldBlock policy own uid sock addr

namespace Kpatch

def vpnhideActiveHooksMask : UInt32 :=
  match policy with
  | none => 0
  | some snapshot => snapshot.activeHooksMask

/-- `should_block_port`, which finds the target itself. -/
def shouldBlockPort (portBe : UInt16) (protocol : UInt8) : Bool :=
  match policy, vpnhideFindPortTarget policy uid with
  | some snapshot, some target =>
    if target.mode = portPolicyUnrestricted then false
    else if target.mode = portPolicyDenyAll then true
    else scanRules (ntohs portBe) protocol (snapshot.slice target)
  | _, _ => false

def vpnhideConnectPre (sock : Option Socket) (addr : SockAddr) : Option Refusal :=
  if vpnhideActiveHooksMask policy &&& HookIdx.connect.bit = 0 then none
  else if !isHookActive policy .connect uid then none
  else match sock with
    | some ⟨some skType⟩ =>
      let protocol := sockProto skType
      match addr with
      | .inet portBe v4 =>
        if ipv4IsLoopback v4 || v4 == 0 then
          if shouldBlockPort policy uid portBe protocol &&
              !vpnhideUidOwnsPort own uid (ntohs portBe) protocol afInet (v4Address v4) then
            some (ntohs portBe, protocol)
          else none
        else none
      | .inet6 portBe v6 =>
        let isLocal := ipv6AddrLoopback v6 || ipv6AddrAny v6
        let isLocal :=
          if !isLocal && ipv6AddrV4mapped v6 then ipv4IsLoopback (v6.get 3) || v6.get 3 == 0 else isLocal
        if isLocal then
          let (ownerFamily, ownerAddress) :=
            if ipv6AddrV4mapped v6 then (afInet, v4Address (v6.get 3)) else (afInet6, v6)
          if shouldBlockPort policy uid portBe protocol &&
              !vpnhideUidOwnsPort own uid (ntohs portBe) protocol ownerFamily ownerAddress then
            some (ntohs portBe, protocol)
          else none
        else none
      | .other _ => none
    | _ => none

end Kpatch

end Hooks

/-! ### Local destinations -/

def V4Mapped (v6 : Address) : Prop := v6.get 0 = 0 ∧ v6.get 1 = 0 ∧ v6.get 2 = htonl 0xffff

instance : DecidablePred V4Mapped := fun _ => inferInstanceAs (Decidable (_ ∧ _))

/-- The destination address, un-mapped, is loopback or unspecified. -/
def SockAddr.IsLocal : SockAddr → Prop
  | .inet _ v4 => V4Local v4
  | .inet6 _ v6 => if V4Mapped v6 then V4Local (v6.get 3) else V6Local v6
  | .other _ => False

theorem v4Mapped_eq (v6 : Address) : ipv6AddrV4mapped v6 = decide (V4Mapped v6) := by
  rw [Bool.eq_iff_iff, decide_eq_true_eq]
  show _ ↔ v6[0] = 0 ∧ v6[1] = 0 ∧ v6[2] = htonl 0xffff
  simp [ipv6AddrV4mapped, UInt32.or_eq_zero_iff, and_assoc]

/-- `::1` and `::` are not mapped addresses, so the order of the tests does not matter. -/
theorem V6Local.not_mapped {v6 : Address} (h : V6Local v6) : ¬ V4Mapped v6 := by
  rcases h with rfl | rfl <;> decide

/-! ### The decision -/

/-- Port, family and address under which ownership of a local destination is looked up. -/
def SockAddr.localKey : SockAddr → Option (UInt16 × UInt8 × Address)
  | .inet portBe v4 => if V4Local v4 then some (ntohs portBe, afInet, v4Address v4) else none
  | .inet6 portBe v6 =>
    if V4Mapped v6 then
      if V4Local (v6.get 3) then some (ntohs portBe, afInet, v4Address (v6.get 3)) else none
    else if V6Local v6 then some (ntohs portBe, afInet6, v6) else none
  | .other _ => none

theorem SockAddr.isLocal_of_localKey {addr : SockAddr} (h : addr.localKey.isSome) : addr.IsLocal := by
  cases addr with
  | inet portBe v4 =>
    by_cases hl : V4Local v4
    · exact hl
    · simp [localKey, hl] at h
  | inet6 portBe v6 =>
    unfold IsLocal
    by_cases hm : V4Mapped v6 <;> by_cases h4 : V4Local (v6.get 3) <;> by_cases h6 : V6Local v6 <;>
      simp_all [localKey]
  | other family => simp [localKey] at h

/-- Refuse what is local, blocked by the port policy and not owned. -/
def connectDecision (s : PolicySnapshot) (own : PortOwnership) (uid : UInt32) (sock : Option Socket)
    (addr : SockAddr) : Option Refusal :=
  match sock, addr.localKey with
  | some ⟨some skType⟩, some (port, family, address) =>
    if portBlocked s uid port (sockProto skType) &&
        !vpnhideUidOwnsPort own uid port (sockProto skType) family address then
      some (port, sockProto skType)
    else none
  | _, _ => none

section Paths
variable {s : PolicySnapshot} (own : PortOwnership) (uid : UInt32) (sock : Option Socket) (addr : SockAddr)

theorem directConnectShouldBlock_eq :
    directConnectShouldBlock (some s) own uid sock (some addr) = connectDecision s own uid sock addr := by
  rcases sock with _ | ⟨_ | skType⟩
  · rfl
  · rfl
  unfold directConnectShouldBlock connectDecision portBlocked
  cases vpnhideFindPortTarget (some s) uid with
  | none => cases addr.localKey <;> rfl
  | some urules =>
    cases addr with
    | inet portBe v4 =>
      simp only [htonl_inaddrAny, v4Local_eq, SockAddr.localKey]
      by_cases h4 : V4Local v4 <;> simp [h4]
    | inet6 portBe v6 =>
      simp only [htonl_inaddrAny, v4Local_eq, v6Local_eq, v4Mapped_eq, SockAddr.localKey]
      by_cases hm : V4Mapped v6 <;> by_cases h4 : V4Local (v6.get 3) <;> by_cases h6 : V6Local v6 <;>
        simp [hm, h4, h6]
    | other family => rfl

theorem securitySocketConnectEntry_eq (h : s.WF) :
    securitySocketConnectEntry (some s) own uid sock (some addr) = connectDecision s own uid sock addr := by
  rw [securitySocketConnectEntry, h.isHookActive_port (.inl rfl), directConnectShouldBlock_eq]
  rfl

theorem socketConnectEntry_eq (h : s.WF) (sysConnectUsesWrapper : Bool) :
    socketConnectEntry (some s) own uid sysConnectUsesWrapper sock (some addr) =
      connectDecision s own uid sock addr := by
  unfold socketConnectEntry
  simp only [h.isHookActive_port (.inl rfl), Bool.not_true, Bool.false_eq_true, if_false]
  rcases sock with _ | ⟨_ | skType⟩
  · cases vpnhideFindPortTarget (some s) uid <;> cases addr <;> simp [connectDecision]
  · cases vpnhideFindPortTarget (some s) uid <;> cases addr <;> simp [connectDecision]
  simp only [Option.isNone_some, Bool.and_false, Bool.false_eq_true, if_false]
  unfold connectDecision portBlocked
  cases vpnhideFindPortTarget (some s) uid with
  | none => cases addr.localKey <;> rfl
  | some urules =>
    cases addr with
    | inet portBe v4 =>
      simp only [htonl_inaddrAny, v4Local_eq, SockAddr.localKey]
      by_cases h4 : V4Local v4 <;> simp [h4]
    | inet6 portBe v6 =>
      have hdisjoint : V6Local v6 → ¬ V4Mapped v6 := V6Local.not_mapped
      simp only [htonl_inaddrAny, v4Local_eq, v6Local_eq, v4Mapped_eq, SockAddr.localKey]
      by_cases hm : V4Mapped v6 <;> by_cases h4 : V4Local (v6.get 3) <;> by_cases h6 : V6Local v6 <;>
        simp_all
    | other family => rfl

namespace Kpatch

theorem shouldBlockPort_eq (portBe : UInt16) (protocol : UInt8) :
    shouldBlockPort (some s) uid portBe protocol = portBlocked s uid (ntohs portBe) protocol := by
  unfold shouldBlockPort portBlocked
  rw [vpnhideFindPortTarget_eq]
  cases VpnHide.vpnhideFindPortTarget (some s) uid <;> rfl

theorem vpnhideConnectPre_eq (h : s.WF) :
    vpnhideConnectPre (some s) own uid sock addr = connectDecision s own uid sock addr := by
  have hmask : ¬ vpnhideActiveHooksMask (some s) &&& HookIdx.connect.bit = 0 :=
    h.globalHooks.and_bit_ne (.inl rfl)
  have hactive : isHookActive (some s) .connect uid = true := h.isHookActive_port (.inl rfl) uid
  unfold vpnhideConnectPre
  simp only [hmask, hactive, Bool.not_true, Bool.false_eq_true, if_false, shouldBlockPort_eq]
  rcases sock with _ | ⟨_ | skType⟩
  · rfl
  · rfl
  unfold connectDecision
  cases addr with
  | inet portBe v4 =>
    simp only [v4Local_eq, SockAddr.localKey]
    by_cases h4 : V4Local v4 <;> simp [h4]
  | inet6 portBe v6 =>
    have hdisjoint : V6Local v6 → ¬ V4Mapped v6 := V6Local.not_mapped
    simp only [v4Local_eq, v6Local_eq, v4Mapped_eq, SockAddr.localKey]
    by_cases hm : V4Mapped v6 <;> by_cases h4 : V4Local (v6.get 3) <;> by_cases h6 : V6Local v6 <;>
      simp_all
  | other family => rfl

end Kpatch

end Paths

/-- The three connect hooks take the same decision and record the same port and protocol, under every
published policy or none, and refuse only destinations whose address is loopback or unspecified. -/
theorem connectHooks_agree (policy : Option PolicySnapshot) (hpolicy : ∀ s, policy = some s → s.Accepted)
    (own : PortOwnership) (uid : UInt32) (sock : Option Socket) (addr : SockAddr)
    (sysConnectUsesWrapper : Bool) :
    socketConnectEntry policy own uid sysConnectUsesWrapper sock (some addr) =
      securitySocketConnectEntry policy own uid sock (some addr) ∧
    Kpatch.vpnhideConnectPre policy own uid sock addr =
      securitySocketConnectEntry policy own uid sock (some addr) ∧
    ((securitySocketConnectEntry policy own uid sock (some addr)).isSome → addr.IsLocal) := by
  cases policy with
  | none => exact ⟨rfl, rfl, fun h => absurd h Bool.false_ne_true⟩
  | some s =>
    have hwf := (hpolicy s rfl).wf
    rw [securitySocketConnectEntry_eq own uid sock addr hwf]
    refine ⟨socketConnectEntry_eq own uid sock addr hwf _, Kpatch.vpnhideConnectPre_eq own uid sock addr hwf,
      fun hsome => SockAddr.isLocal_of_localKey ?_⟩
    unfold connectDecision at hsome
    cases hkey : addr.localKey with
    | none => rw [hkey] at hsome; rcases sock with _ | ⟨_ | _⟩ <;> cases hsome
    | some key => rfl

theorem connectHooks_agree_sample :
    ∃ s : PolicySnapshot, s.Accepted ∧
      Kpatch.vpnhideConnectPre (some s) ⟨none, pendingPortsZero, 0⟩ 10123 (some ⟨some sockStream⟩)
        (.inet (ntohs 8080) (htonl 0x7f000001)) = some (8080, protoTcp) ∧
      (SockAddr.inet (ntohs 8080) (htonl 0x7f000001)).IsLocal := by
  have hrefused : (policySnapshotFromV3 true samplePayloadV3).toOption.any (fun s =>
      Kpatch.vpnhideConnectPre (some s) ⟨none, pendingPortsZero, 0⟩ 10123 (some ⟨some sockStream⟩)
        (.inet (ntohs 8080) (htonl 0x7f000001)) == some (8080, protoTcp)) = true := by decide +kernel
  cases hparse : policySnapshotFromV3 true samplePayloadV3 with
  | error e => rw [hparse] at hrefused; cases hrefused
  | ok s =>
    rw [hparse] at hrefused
    have hblock := beq_iff_eq.1 (show _ from hrefused)
    have haccepted : s.Accepted := ⟨⟨true, true, true, true⟩, policyAbiVersionV3, samplePayloadV3, hparse⟩
    obtain ⟨-, hkpatch, hlocal⟩ := connectHooks_agree (some s)
      (fun s' hs' => Option.some.inj hs' ▸ haccepted) ⟨none, pendingPortsZero, 0⟩ 10123
      (some ⟨some sockStream⟩) (.inet (ntohs 8080) (htonl 0x7f000001)) true
    exact ⟨s, haccepted, hblock, hlocal (by rw [← hkpatch, hblock]; rfl)⟩

end VpnHide
