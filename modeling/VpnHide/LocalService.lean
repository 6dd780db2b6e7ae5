import VpnHide.SockDiag

/-!
# An app and its own local services

Both sources of ownership read an endpoint off the same socket, the kernel when it is bound and the daemon from what
SOCK_DIAG reports. They agree but for one address (`ownershipSources_agree_iff`). The endpoint is the key under which a
connect is looked up, except where an IPv6 socket on the unspecified address also receives IPv4 traffic
(`ownService_connect_iff`).
-/

namespace VpnHide

/-! ### Two readings of one socket -/

/-- A TCP or UDP socket of one of the two families, bound to a port. -/
structure BoundSock.Service (sk : BoundSock) : Prop where
  type : sk.skType = sockStream ∨ sk.skType = sockDgram
  family : sk.skFamily = afInet.toUInt16 ∨ sk.skFamily = afInet6.toUInt16
  port : sk.inetNum ≠ 0

def htons (x : UInt16) : UInt16 := ntohs x

/-- What SOCK_DIAG reports of a listening or unconnected socket. -/
def BoundSock.diagMsg (uid : UInt32) (sk : BoundSock) : InetDiagMsg where
  family := sk.skFamily.toUInt8
  sport := htons sk.inetNum
  dport := 0
  src := if sk.skFamily = afInet.toUInt16 then v4Address sk.inetRcvSaddr else sk.skV6RcvSaddr
  uid := uid

/-- The dump in which it is reported. -/
def BoundSock.diagProtocol (sk : BoundSock) : DiagProtocol := if sk.skType = sockStream then .tcp else .udp

/-- The endpoint of the socket under a family and an address. -/
def BoundSock.endpoint (uid : UInt32) (sk : BoundSock) (family : UInt8) (address : Address) : OwnedPort :=
  ⟨uid, sk.inetNum, sockProto sk.skType, family, address⟩

theorem toNat_ntohs (x : UInt16) : (ntohs x).toNat = x.toNat % 256 * 256 + x.toNat / 256 := by
  have hx := x.toNat_lt
  have hshift : x.toNat <<< 8 % 2 ^ 16 = (x.toNat % 256) <<< 8 := by
    rw [Nat.shiftLeft_eq, Nat.shiftLeft_eq]
    omega
  have hlow : x.toNat / 256 < 2 ^ 8 := by omega
  have hor := Nat.shiftLeft_add_eq_or_of_lt hlow (x.toNat % 256)
  rw [Nat.shiftLeft_eq] at hor
  show (x <<< (8 : UInt16) ||| x >>> (8 : UInt16)).toNat = _
  rw [UInt16.toNat_or, UInt16.toNat_shiftLeft, UInt16.toNat_shiftRight]
  show x.toNat <<< 8 % 2 ^ 16 ||| x.toNat >>> 8 = _
  rw [hshift, Nat.shiftRight_eq_div_pow, Nat.shiftLeft_eq]
  exact hor.symm

theorem ntohs_htons (x : UInt16) : ntohs (htons x) = x := by
  have hx := x.toNat_lt
  rw [← UInt16.toNat_inj, htons, toNat_ntohs, toNat_ntohs]
  omega

section Readings
variable {uid : UInt32} {sk : BoundSock}

theorem v4Address_word (a : UInt32) : (v4Address a).word 0 = a := rfl

theorem localAddress_inet (a : UInt32) : LocalAddress afInet (v4Address a) ↔ V4Local a := by
  constructor
  · rintro (⟨-, a', heq, h⟩ | ⟨h6, -⟩)
    · rwa [← v4Address_word a, heq, v4Address_word]
    · exact absurd h6 (by decide)
  · exact fun h => .inl ⟨rfl, a, rfl, h⟩

theorem localAddress_inet6 (a : Address) : LocalAddress afInet6 a ↔ V6Local a := by
  constructor
  · rintro (⟨h4, -⟩ | ⟨-, h⟩)
    · exact absurd h4 (by decide)
    · exact h
  · exact fun h => .inr ⟨rfl, h⟩

theorem BoundSock.Service.kernel_inet (hs : sk.Service) (hf : sk.skFamily = afInet.toUInt16) :
    ownedPortFromSock uid (some sk) =
      if V4Local sk.inetRcvSaddr then some (sk.endpoint uid afInet (v4Address sk.inetRcvSaddr)) else none := by
  have hread : sockEndpoint uid sk = some (sk.endpoint uid afInet (v4Address sk.inetRcvSaddr)) := by
    unfold sockEndpoint
    rw [if_neg (not_and_or.2 (hs.type.imp not_not.2 not_not.2)), if_neg hs.port, if_pos hf]
    rfl
  rw [ownedPortFromSock, hread, Option.filter_some]
  exact if_congr ((ownedPortIsLocal_iff _).trans (localAddress_inet _)) rfl rfl

theorem BoundSock.Service.kernel_inet6 (hs : sk.Service) (hf : sk.skFamily = afInet6.toUInt16) :
    ownedPortFromSock uid (some sk) =
      if V4Mapped sk.skV6RcvSaddr then
        if V4Local (sk.skV6RcvSaddr.word 3) then some (sk.endpoint uid afInet (v4Address (sk.skV6RcvSaddr.word 3)))
        else none
      else if V6Local sk.skV6RcvSaddr then some (sk.endpoint uid afInet6 sk.skV6RcvSaddr) else none := by
  have hread : sockEndpoint uid sk =
      if V4Mapped sk.skV6RcvSaddr then some (sk.endpoint uid afInet (v4Address (sk.skV6RcvSaddr.word 3)))
      else some (sk.endpoint uid afInet6 sk.skV6RcvSaddr) := by
    have h4 : sk.skFamily ≠ afInet.toUInt16 := by rw [hf]; decide
    unfold sockEndpoint
    rw [if_neg (not_and_or.2 (hs.type.imp not_not.2 not_not.2)), if_neg hs.port, if_neg h4, if_pos hf]
    exact if_congr (by rw [v4Mapped_eq, decide_eq_true_iff]) rfl rfl
  rw [ownedPortFromSock, hread]
  by_cases hm : V4Mapped sk.skV6RcvSaddr
  · rw [if_pos hm, if_pos hm, Option.filter_some]
    exact if_congr ((ownedPortIsLocal_iff _).trans (localAddress_inet _)) rfl rfl
  · rw [if_neg hm, if_neg hm, Option.filter_some]
    exact if_congr ((ownedPortIsLocal_iff _).trans (localAddress_inet6 _)) rfl rfl

theorem vhProto_diagProtocol (sk : BoundSock) : sk.diagProtocol.vhProto = sockProto sk.skType := by
  unfold BoundSock.diagProtocol sockProto
  split_ifs <;> rfl

theorem BoundSock.Service.endpointOf_eq (hs : sk.Service) (huid : 10000 ≤ uid) :
    endpointOf sk.diagProtocol (sk.diagMsg uid) =
      (diagLocalEndpoint (sk.diagMsg uid)).map fun (family, address) => sk.endpoint uid family address := by
  have hkept : ¬ ((sk.diagMsg uid).uid < 10000 ∨ ntohs (sk.diagMsg uid).sport = 0 ∨
      (sk.diagProtocol = .udp ∧ (sk.diagMsg uid).dport ≠ 0)) := by
    rintro (hlow | hzero | ⟨-, hconnected⟩)
    · exact UInt32.not_lt.2 huid hlow
    · exact hs.port ((ntohs_htons _).symm.trans hzero)
    · exact hconnected rfl
  unfold endpointOf
  cases diagLocalEndpoint (sk.diagMsg uid) with
  | none => rfl
  | some endpoint =>
    obtain ⟨family, address⟩ := endpoint
    dsimp only
    rw [if_neg hkept, vhProto_diagProtocol]
    show some (OwnedPort.mk uid (ntohs (htons sk.inetNum)) _ _ _) = _
    rw [ntohs_htons]
    rfl

theorem BoundSock.Service.daemon_inet (hs : sk.Service) (huid : 10000 ≤ uid) (hf : sk.skFamily = afInet.toUInt16) :
    endpointOf sk.diagProtocol (sk.diagMsg uid) =
      if V4Local sk.inetRcvSaddr then some (sk.endpoint uid afInet (v4Address sk.inetRcvSaddr)) else none := by
  have hfamily : (sk.diagMsg uid).family = afInet := by
    show sk.skFamily.toUInt8 = _
    rw [hf]
    rfl
  have hsrc : (sk.diagMsg uid).src.word 0 = sk.inetRcvSaddr := by
    show Address.word (if _ then _ else _) 0 = _
    rw [if_pos hf, v4Address_word]
  have hfar : ¬ V4Local sk.inetRcvSaddr ↔ sk.inetRcvSaddr ≠ 0 ∧ ntohl sk.inetRcvSaddr >>> 24 ≠ 127 := by
    rw [ntohl_shift, ne_eq, ne_eq, lowByte_eq_iff, V4Local, not_or, and_comm]
  rw [hs.endpointOf_eq huid, diagLocalEndpoint, if_pos hfamily]
  dsimp only
  rw [hsrc]
  by_cases hl : V4Local sk.inetRcvSaddr
  · rw [if_pos hl, if_neg (mt hfar.2 (not_not.2 hl))]
    rfl
  · rw [if_neg hl, if_pos (hfar.1 hl)]
    rfl

theorem BoundSock.Service.daemon_inet6 (hs : sk.Service) (huid : 10000 ≤ uid) (hf : sk.skFamily = afInet6.toUInt16) :
    endpointOf sk.diagProtocol (sk.diagMsg uid) =
      if V4Mapped sk.skV6RcvSaddr then
        if (sk.skV6RcvSaddr.word 3).toNat % 256 = 127 then
          some (sk.endpoint uid afInet (v4Address (sk.skV6RcvSaddr.word 3)))
        else none
      else if V6Local sk.skV6RcvSaddr then some (sk.endpoint uid afInet6 sk.skV6RcvSaddr) else none := by
  have hfamily : (sk.diagMsg uid).family = afInet6 := by
    show sk.skFamily.toUInt8 = _
    rw [hf]
    rfl
  have h4 : afInet6 ≠ afInet := by decide
  have hsrc : (sk.diagMsg uid).src = sk.skV6RcvSaddr := by
    refine if_neg ?_
    rw [hf]
    decide
  have hself (a : Address) : (in6IsAddrUnspecified a || in6IsAddrLoopback a) = true ↔ V6Local a := by
    rw [Bool.or_eq_true, in6IsAddrUnspecified_iff, in6IsAddrLoopback_iff, or_comm]
    rfl
  have hmapped (a : Address) : in6IsAddrV4mapped a = true ↔ V4Mapped a := by
    simp only [in6IsAddrV4mapped, Bool.and_eq_true, beq_iff_eq, and_assoc]
    rfl
  rw [hs.endpointOf_eq huid, diagLocalEndpoint, hfamily, if_neg h4, if_pos rfl, hsrc]
  dsimp only
  by_cases hl : V6Local sk.skV6RcvSaddr
  · rw [if_pos ((hself _).2 hl), if_neg hl.not_mapped, if_pos hl]
    rfl
  rw [if_neg (mt (hself _).1 hl)]
  by_cases hm : V4Mapped sk.skV6RcvSaddr
  · rw [if_pos ((hmapped _).2 hm), if_pos hm, ntohl_shift]
    by_cases h127 : (sk.skV6RcvSaddr.word 3).toNat % 256 = 127
    · rw [if_pos h127, if_neg (not_not.2 ((lowByte_eq_iff _).2 h127))]
      rfl
    · rw [if_neg h127, if_pos (mt (lowByte_eq_iff _).1 h127)]
      rfl
  · rw [if_neg (mt (hmapped _).1 hm), if_neg hm, if_neg hl]
    rfl

end Readings

/-- `::ffff:0.0.0.0`. -/
def MappedAny (a : Address) : Prop := V4Mapped a ∧ a.word 3 = 0

/-- The kernel and the daemon read the same endpoint off a socket of an app, or both reject it, unless an IPv6 socket is
bound to the mapped form of the unspecified IPv4 address: the daemon asks for 127 in a mapped address and forgets the
zero that it allows in a plain one. -/
theorem ownershipSources_agree_iff {uid : UInt32} (huid : 10000 ≤ uid) {sk : BoundSock} (hs : sk.Service) :
    ownedPortFromSock uid (some sk) = endpointOf sk.diagProtocol (sk.diagMsg uid) ↔
      ¬ (sk.skFamily = afInet6.toUInt16 ∧ MappedAny sk.skV6RcvSaddr) := by
  rcases hs.family with hf | hf
  · rw [hs.kernel_inet hf, hs.daemon_inet huid hf]
    refine iff_of_true rfl fun h => ?_
    rw [hf] at h
    exact absurd h.1 (by decide)
  · rw [hs.kernel_inet6 hf, hs.daemon_inet6 huid hf, not_and, MappedAny]
    by_cases hm : V4Mapped sk.skV6RcvSaddr
    · rw [if_pos hm, if_pos hm]
      by_cases h127 : (sk.skV6RcvSaddr.word 3).toNat % 256 = 127
      · rw [if_pos h127, if_pos (.inl h127)]
        refine iff_of_true rfl fun _ hany => ?_
        rw [hany.2] at h127
        exact absurd h127 (by decide)
      · rw [if_neg h127]
        by_cases hzero : sk.skV6RcvSaddr.word 3 = 0
        · rw [if_pos (.inr hzero)]
          exact iff_of_false (Option.some_ne_none _) fun h => h hf ⟨hm, hzero⟩
        · have hfar : ¬ V4Local (sk.skV6RcvSaddr.word 3) := not_or.2 ⟨h127, hzero⟩
          rw [if_neg hfar]
          exact iff_of_true rfl fun _ hany => hzero hany.2
    · rw [if_neg hm, if_neg hm]
      exact iff_of_true rfl fun _ hany => hm hany.1

/-- A server on `::ffff:0.0.0.0` and one on `::1`. -/
def mappedAnySock : BoundSock :=
  ⟨sockStream, afInet6.toUInt16, 8080, 0, (Vector.replicate 4 0).setIfInBounds 2 (htonl 0xffff)⟩

def loopbackSock : BoundSock :=
  ⟨sockStream, afInet6.toUInt16, 8080, 0, (Vector.replicate 4 0).setIfInBounds 3 (htonl 1)⟩

theorem ownershipSources_agree_loopback :
    ∃ owner, ownedPortFromSock 10123 (some loopbackSock) = some owner ∧
      endpointOf loopbackSock.diagProtocol (loopbackSock.diagMsg 10123) = some owner := by
  have hs : loopbackSock.Service := ⟨.inl rfl, .inr rfl, by decide⟩
  have hagree : ownedPortFromSock 10123 (some loopbackSock) =
      endpointOf loopbackSock.diagProtocol (loopbackSock.diagMsg 10123) :=
    (ownershipSources_agree_iff (by decide) hs).2 fun h => absurd h.2.1.2.2 (by decide)
  have hkernel : ownedPortFromSock 10123 (some loopbackSock) =
      some ⟨10123, 8080, protoTcp, afInet6, loopbackSock.skV6RcvSaddr⟩ := by decide
  exact ⟨_, hkernel, hagree ▸ hkernel⟩

/-- The kernel grants the port to the app, the daemon's next update takes it away. -/
theorem ownershipSources_disagree :
    mappedAnySock.Service ∧
      ownedPortFromSock 10123 (some mappedAnySock) = some ⟨10123, 8080, protoTcp, afInet, Vector.replicate 4 0⟩ ∧
      endpointOf mappedAnySock.diagProtocol (mappedAnySock.diagMsg 10123) = none :=
  ⟨⟨.inl rfl, .inr rfl, by decide⟩, by decide, by decide⟩

/-! ### Connecting to an own service -/

/-- The IPv4 address that a destination stands for. -/
def SockAddr.v4Dest : SockAddr → Option UInt32
  | .inet _ v4 => some v4
  | .inet6 _ v6 => if V4Mapped v6 then some (v6.word 3) else none
  | .other _ => none

/-- An address of 127.0.0.0/8, plain or mapped, or `::1`. -/
def SockAddr.Loopback : SockAddr → Prop
  | .inet _ v4 => v4.toNat % 256 = 127
  | .inet6 _ v6 => if V4Mapped v6 then (v6.word 3).toNat % 256 = 127 else ipv6AddrLoopback v6
  | .other _ => False

/-- An IPv6 socket on the unspecified address. -/
def BoundSock.OnAnyV6 (sk : BoundSock) : Prop :=
  sk.skFamily = afInet6.toUInt16 ∧ sk.skV6RcvSaddr = Vector.replicate 4 0

/-- Linux delivers IPv4 traffic for `v4` to the socket: the address is its own or it has none, or it is an IPv6 socket
on the unspecified address without `IPV6_V6ONLY`. -/
def BoundSock.ReceivesV4 (sk : BoundSock) (v6only : Bool) (v4 : UInt32) : Prop :=
  (sk.skFamily = afInet.toUInt16 ∧ (sk.inetRcvSaddr = 0 ∨ sk.inetRcvSaddr = v4)) ∨
  (sk.skFamily = afInet6.toUInt16 ∧ V4Mapped sk.skV6RcvSaddr ∧
    (sk.skV6RcvSaddr.word 3 = 0 ∨ sk.skV6RcvSaddr.word 3 = v4)) ∨
  (sk.OnAnyV6 ∧ v6only = false)

def BoundSock.ReceivesV6 (sk : BoundSock) (v6 : Address) : Prop :=
  sk.skFamily = afInet6.toUInt16 ∧ (sk.skV6RcvSaddr = Vector.replicate 4 0 ∨ sk.skV6RcvSaddr = v6)

/-- Linux delivers traffic for the destination to the socket. -/
def BoundSock.Receives (sk : BoundSock) (v6only : Bool) : SockAddr → Prop
  | .inet portBe v4 => ntohs portBe = sk.inetNum ∧ sk.ReceivesV4 v6only v4
  | .inet6 portBe v6 =>
    ntohs portBe = sk.inetNum ∧ if V4Mapped v6 then sk.ReceivesV4 v6only (v6.word 3) else sk.ReceivesV6 v6
  | .other _ => False

/-- The daemon's last update has the owner and is in force. -/
def PortOwnership.Reports (own : PortOwnership) (owner : OwnedPort) : Prop :=
  ∃ snapshot, own.owned = some snapshot ∧ snapshot.buckets.length ≠ 0 ∧ ¬ timeAfterEq own.jiffies snapshot.expires ∧
    ownedSnapshotContains snapshot owner

/-- The owner has a grant that has not expired. -/
def PortOwnership.Live (own : PortOwnership) (owner : OwnedPort) : Prop :=
  own.Reports owner ∨ pendingPortLookupOne own.pending own.jiffies owner

/-- The socket's grant is live: its bind was recorded, or the daemon has reported it. -/
def BoundSock.Granted (own : PortOwnership) (uid : UInt32) (sk : BoundSock) : Prop :=
  ∃ owner, (ownedPortFromSock uid (some sk) = some owner ∧ pendingPortLookupOne own.pending own.jiffies owner) ∨
    (endpointOf sk.diagProtocol (sk.diagMsg uid) = some owner ∧ own.Reports owner)

section Connect
variable {own : PortOwnership} {uid : UInt32} {sk : BoundSock} {v6only : Bool} {addr : SockAddr} {owner : OwnedPort}

theorem BoundSock.Receives.cases (hrecv : sk.Receives v6only addr) (hdest : addr.Loopback) :
    (∃ v4, addr.v4Dest = some v4 ∧ V4Local v4 ∧ addr.localKey = some (sk.inetNum, afInet, v4Address v4) ∧
      sk.ReceivesV4 v6only v4) ∨
    ∃ v6, addr.v4Dest = none ∧ V6Local v6 ∧ addr.localKey = some (sk.inetNum, afInet6, v6) ∧ sk.ReceivesV6 v6 := by
  cases addr with
  | inet portBe v4 =>
    have hlocal : V4Local v4 := .inl hdest
    refine .inl ⟨v4, rfl, hlocal, ?_, hrecv.2⟩
    rw [SockAddr.localKey, if_pos hlocal, hrecv.1]
  | inet6 portBe v6 =>
    obtain ⟨hport, hrecv⟩ := hrecv
    by_cases hm : V4Mapped v6
    · simp only [SockAddr.Loopback, if_pos hm] at hdest
      rw [if_pos hm] at hrecv
      have hlocal : V4Local (v6.get 3) := .inl hdest
      refine .inl ⟨v6.get 3, if_pos hm, hlocal, ?_, hrecv⟩
      rw [SockAddr.localKey, if_pos hm, if_pos hlocal, hport]
    · simp only [SockAddr.Loopback, if_neg hm] at hdest
      rw [if_neg hm] at hrecv
      have hlocal : V6Local v6 := by
        have heq := v6Local_eq v6
        rw [hdest, Bool.true_or] at heq
        exact of_decide_eq_true heq.symm
      refine .inr ⟨v6, if_neg hm, hlocal, ?_, hrecv⟩
      rw [SockAddr.localKey, if_neg hm, if_pos hlocal, hport]
  | other family => exact hdest.elim

theorem BoundSock.Service.kernel_of_daemon (hs : sk.Service)
    (h : endpointOf sk.diagProtocol (sk.diagMsg uid) = some owner) : ownedPortFromSock uid (some sk) = some owner := by
  have huid : 10000 ≤ uid := by
    refine UInt32.not_lt.1 fun hlow => ?_
    unfold endpointOf at h
    cases hlocal : diagLocalEndpoint (sk.diagMsg uid) with
    | none =>
      rw [hlocal] at h
      cases h
    | some endpoint =>
      rw [hlocal] at h
      cases (if_pos (.inl hlow)).symm.trans h
  rcases hs.family with hf | hf
  · rwa [hs.kernel_inet hf, ← hs.daemon_inet huid hf]
  · rw [hs.daemon_inet6 huid hf] at h
    rw [hs.kernel_inet6 hf]
    by_cases hm : V4Mapped sk.skV6RcvSaddr
    · rw [if_pos hm] at h ⊢
      by_cases h127 : (sk.skV6RcvSaddr.word 3).toNat % 256 = 127
      · rw [if_pos h127] at h
        rwa [if_pos (.inl h127)]
      · rw [if_neg h127] at h
        cases h
    · rwa [if_neg hm] at h ⊢

theorem BoundSock.Granted.live (hs : sk.Service) (h : sk.Granted own uid) :
    ∃ owner, ownedPortFromSock uid (some sk) = some owner ∧ own.Live owner := by
  rcases h with ⟨owner, ⟨hkernel, hpending⟩ | ⟨hdaemon, hreports⟩⟩
  · exact ⟨owner, hkernel, .inr hpending⟩
  · exact ⟨owner, hs.kernel_of_daemon hdaemon, .inl hreports⟩

/-- The endpoint of a socket that receives IPv4 traffic is found under the IPv4 address, but for the dual stack. -/
theorem BoundSock.ReceivesV4.grants {v4 : UInt32} (h : sk.ReceivesV4 v6only v4) (hs : sk.Service)
    (hkernel : ownedPortFromSock uid (some sk) = some owner) :
    owner.Grants uid sk.inetNum (sockProto sk.skType) afInet (v4Address v4) ∨ sk.OnAnyV6 := by
  have hzero : v4Address 0 = Vector.replicate 4 0 := rfl
  rcases h with ⟨hf, haddr⟩ | ⟨hf, hm, haddr⟩ | ⟨hany, -⟩
  · rw [hs.kernel_inet hf] at hkernel
    split_ifs at hkernel
    cases hkernel
    refine .inl ⟨rfl, rfl, rfl, rfl, ?_⟩
    rcases haddr with h0 | h4
    · exact .inr ((congrArg v4Address h0).trans hzero)
    · exact .inl (congrArg v4Address h4)
  · rw [hs.kernel_inet6 hf, if_pos hm] at hkernel
    split_ifs at hkernel
    cases hkernel
    refine .inl ⟨rfl, rfl, rfl, rfl, ?_⟩
    rcases haddr with h0 | h4
    · exact .inr ((congrArg v4Address h0).trans hzero)
    · exact .inl (congrArg v4Address h4)
  · exact .inr hany

theorem BoundSock.ReceivesV6.grants {v6 : Address} (h : sk.ReceivesV6 v6) (hlocal : V6Local v6) (hs : sk.Service)
    (hkernel : ownedPortFromSock uid (some sk) = some owner) :
    owner.Grants uid sk.inetNum (sockProto sk.skType) afInet6 v6 := by
  obtain ⟨hf, haddr⟩ := h
  have hm : ¬ V4Mapped sk.skV6RcvSaddr := by
    rcases haddr with h0 | h6
    · rw [h0]
      decide
    · rw [h6]
      exact hlocal.not_mapped
  rw [hs.kernel_inet6 hf, if_neg hm] at hkernel
  split_ifs at hkernel
  cases hkernel
  exact ⟨rfl, rfl, rfl, rfl, haddr.symm⟩

/-- A connect to a local destination is let through if the policy does not block it or a live grant covers it. -/
theorem directConnect_eq_none {s : PolicySnapshot} {connType port : UInt16} {family : UInt8} {address : Address}
    (hkey : addr.localKey = some (port, family, address)) (hlocal : LocalAddress family address) :
    directConnectShouldBlock (some s) own uid (some ⟨some connType⟩) (some addr) = none ↔
      (portBlocked s uid port (sockProto connType) →
        ∃ other, own.Live other ∧ other.Grants uid port (sockProto connType) family address) := by
  have howns : vpnhideUidOwnsPort own uid port (sockProto connType) family address ↔
      ∃ other, own.Live other ∧ other.Grants uid port (sockProto connType) family address := by
    rw [vpnhideUidOwnsPort_iff, ownedPortIsLocal_iff, and_iff_right hlocal]
    exact exists_congr fun other => and_comm
  rw [directConnectShouldBlock_eq, ← howns]
  unfold connectDecision
  rw [hkey]
  dsimp only
  cases portBlocked s uid port (sockProto connType) <;>
    cases vpnhideUidOwnsPort own uid port (sockProto connType) family address <;> simp

end Connect

/-- While its grant is live, an app reaches its own service on every loopback destination that Linux delivers to it,
unless the policy blocks the port and the service is an IPv6 socket on the unspecified address that the app addresses
over IPv4, with no live IPv4 grant of the same port beside it: the lookup asks for the destination's family only. -/
theorem ownService_connect_iff {policy : Option PolicySnapshot} {own : PortOwnership} {uid : UInt32} {sk : BoundSock}
    (hs : sk.Service) (hgrant : sk.Granted own uid) {v6only : Bool} {addr : SockAddr} (hdest : addr.Loopback)
    (hrecv : sk.Receives v6only addr) {connType : UInt16} (hproto : sockProto connType = sockProto sk.skType) :
    directConnectShouldBlock policy own uid (some ⟨some connType⟩) (some addr) = none ↔
      ¬ ((∃ s, policy = some s ∧ portBlocked s uid sk.inetNum (sockProto sk.skType)) ∧ sk.OnAnyV6 ∧
        ∃ v4, addr.v4Dest = some v4 ∧ ¬ ∃ other, own.Live other ∧
          other.Grants uid sk.inetNum (sockProto sk.skType) afInet (v4Address v4)) := by
  cases policy with
  | none => exact iff_of_true rfl fun ⟨⟨_, h, _⟩, _⟩ => by cases h
  | some s =>
    obtain ⟨owner, hkernel, hlive⟩ := hgrant.live hs
    rcases hrecv.cases hdest with ⟨v4, hv4, hlocal, hkey, h4⟩ | ⟨v6, hv4, hlocal, hkey, h6⟩
    · rw [directConnect_eq_none hkey ((localAddress_inet v4).2 hlocal), hproto]
      rcases h4.grants hs hkernel with hgrants | hany
      · refine iff_of_true (fun _ => ⟨owner, hlive, hgrants⟩) ?_
        rintro ⟨-, -, v4', hv4', hnone⟩
        cases hv4.symm.trans hv4'
        exact hnone ⟨owner, hlive, hgrants⟩
      · constructor
        · rintro h ⟨⟨s', hs', hblocked⟩, -, v4', hv4', hnone⟩
          cases hs'
          cases hv4.symm.trans hv4'
          exact hnone (h hblocked)
        · intro h hblocked
          by_contra hnone
          exact h ⟨⟨s, rfl, hblocked⟩, hany, v4, hv4, hnone⟩
    · rw [directConnect_eq_none hkey ((localAddress_inet6 v6).2 hlocal), hproto]
      refine iff_of_true (fun _ => ⟨owner, hlive, h6.grants hlocal hs hkernel⟩) ?_
      rintro ⟨-, -, v4', hv4', -⟩
      cases hv4.symm.trans hv4'

/-- A server on `::` with both stacks, and the ownership after its `listen`. -/
def dualStackSock : BoundSock := ⟨sockStream, afInet6.toUInt16, 8080, 0, Vector.replicate 4 0⟩

def dualStackOwnership (policy : Option PolicySnapshot) : PortOwnership :=
  ⟨none, (vpnhideRecordBoundSocket 250 1000 policy 10123 (some dualStackSock) pendingPortsZero).1, 1001⟩

/-- `127.0.0.1:8080` and `[::1]:8080`. -/
def localhostV4 : SockAddr := .inet (htons 8080) (htonl 0x7f000001)

def localhostV6 : SockAddr := .inet6 (htons 8080) ((Vector.replicate 4 0).setIfInBounds 3 (htonl 1))

theorem dualStackSock_service : dualStackSock.Service := ⟨.inl rfl, .inr rfl, by decide⟩

theorem dualStack_granted : ∃ s, policySnapshotFromV3 true samplePayloadV3 = .ok s ∧
    dualStackSock.Granted (dualStackOwnership (some s)) 10123 ∧
    directConnectShouldBlock (some s) (dualStackOwnership (some s)) 10123 (some ⟨some sockStream⟩) (some localhostV4) =
      some (8080, protoTcp) := by
  have hrun : ((policySnapshotFromV3 true samplePayloadV3).toOption.any fun s =>
      pendingPortLookupOne (dualStackOwnership (some s)).pending 1001
          (dualStackSock.endpoint 10123 afInet6 (Vector.replicate 4 0)) &&
        directConnectShouldBlock (some s) (dualStackOwnership (some s)) 10123 (some ⟨some sockStream⟩)
          (some localhostV4) ==
          some (8080, protoTcp)) = true := by
    decide +kernel
  have hkernel : ownedPortFromSock 10123 (some dualStackSock) =
      some (dualStackSock.endpoint 10123 afInet6 (Vector.replicate 4 0)) := by decide
  cases hparse : policySnapshotFromV3 true samplePayloadV3 with
  | error e =>
    rw [hparse] at hrun
    cases hrun
  | ok s =>
    rw [hparse] at hrun
    obtain ⟨hpending, hblock⟩ := Bool.and_eq_true_iff.1 hrun
    exact ⟨s, rfl, ⟨_, .inl ⟨hkernel, hpending⟩⟩, beq_iff_eq.1 hblock⟩

theorem ownService_connect_loopbackV6 : ∃ s, policySnapshotFromV3 true samplePayloadV3 = .ok s ∧
    directConnectShouldBlock (some s) (dualStackOwnership (some s)) 10123 (some ⟨some sockStream⟩) (some localhostV6) =
      none := by
  obtain ⟨s, hparse, hgranted, -⟩ := dualStack_granted
  have hdest : localhostV6.Loopback :=
    (rfl : ipv6AddrLoopback ((Vector.replicate 4 0).setIfInBounds 3 (htonl 1)) = true)
  have hrecv : dualStackSock.Receives false localhostV6 := ⟨ntohs_htons _, rfl, .inl rfl⟩
  refine ⟨s, hparse, (ownService_connect_iff dualStackSock_service hgranted hdest hrecv rfl).2 ?_⟩
  rintro ⟨-, -, v4, hv4, -⟩
  cases hv4

/-- The server receives what is sent to `127.0.0.1` and owns the port, and the connect is refused. -/
theorem ownService_connect_refused : ∃ s, policySnapshotFromV3 true samplePayloadV3 = .ok s ∧ dualStackSock.Service ∧
    dualStackSock.Granted (dualStackOwnership (some s)) 10123 ∧ localhostV4.Loopback ∧
    dualStackSock.Receives false localhostV4 ∧
    directConnectShouldBlock (some s) (dualStackOwnership (some s)) 10123 (some ⟨some sockStream⟩) (some localhostV4) =
      some (8080, protoTcp) := by
  obtain ⟨s, hparse, hgranted, hblock⟩ := dualStack_granted
  have hrecv : dualStackSock.Receives false localhostV4 := ⟨ntohs_htons _, .inr (.inr ⟨⟨rfl, rfl⟩, rfl⟩)⟩
  exact ⟨s, hparse, dualStackSock_service, hgranted, (by decide : (htonl 0x7f000001).toNat % 256 = 127), hrecv, hblock⟩

end VpnHide
