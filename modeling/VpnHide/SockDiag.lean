import VpnHide.PortGrants
import VpnHide.Lib.Sorted

/-!
# The daemon's list of owned ports (`daemon/owned_ports.c`)

The daemon asks the kernel for all sockets in four dumps, keeps the local endpoints of apps, sorts them and
removes duplicates in place. The list it submits is the set of those endpoints, and the kernel never rejects
it as invalid (`refreshOwnedPorts_accepted`).
-/

namespace VpnHide

open TxnM

/-! ### The code -/

/-- The fields of `struct inet_diag_msg` that are read; ports and address in network byte order. -/
structure InetDiagMsg where
  family : UInt8
  sport : UInt16
  dport : UInt16
  src : Address
  uid : UInt32

/-- A netlink message. It has no payload if it is too short for a `struct inet_diag_msg`. -/
structure NlMsg where
  seq : UInt32
  type : UInt16
  payload : Option InetDiagMsg

def nlmsgError : UInt16 := 2
def nlmsgDone : UInt16 := 3
def sockDiagByFamily : UInt16 := 20

/-- The outcome of one `recv`. -/
inductive Recv where
  | interrupted
  | failed
  | messages (ms : List NlMsg)

inductive DiagProtocol where
  | tcp
  | udp
  deriving DecidableEq, Repr

def DiagProtocol.vhProto : DiagProtocol → UInt8
  | .tcp => protoTcp
  | .udp => protoUdp

def ntohl (x : UInt32) : UInt32 := htonl x

def in6IsAddrUnspecified (a : Address) : Bool := a.word 0 == 0 && a.word 1 == 0 && a.word 2 == 0 && a.word 3 == 0

def in6IsAddrLoopback (a : Address) : Bool := a.word 0 == 0 && a.word 1 == 0 && a.word 2 == 0 && a.word 3 == ntohl 1

def in6IsAddrV4mapped (a : Address) : Bool := a.word 0 == 0 && a.word 1 == 0 && a.word 2 == ntohl 0x0000ffff

/-- `diag_local_endpoint`: the family and address, where it returns true. -/
def diagLocalEndpoint (msg : InetDiagMsg) : Option (UInt8 × Address) :=
  if msg.family = afInet then
    let addr := msg.src.word 0
    if addr ≠ 0 ∧ ntohl addr >>> 24 ≠ 127 then none
    else some (afInet, v4Address addr)
  else if msg.family = afInet6 then
    if in6IsAddrUnspecified msg.src || in6IsAddrLoopback msg.src then some (afInet6, msg.src)
    else if in6IsAddrV4mapped msg.src then
      let v4 := msg.src.word 3
      if ntohl v4 >>> 24 ≠ 127 then none
      else some (afInet, v4Address v4)
    else none
  else none

structure OwnedPortList where
  items : List OwnedPort
  capacity : ℕ

/-- `append_owned_port`; `none` is the return value `-1`. `realloc` says which sizes can be had. -/
def appendOwnedPort (realloc : ℕ → Bool) (list : OwnedPortList) (entry : OwnedPort) : Option OwnedPortList :=
  if entry.uid < 10000 ∨ entry.port = 0 then some list
  else if list.items.length ≥ ownedPortsMax.toNat then none
  else if list.items.length = list.capacity then
    let capacity := if list.capacity ≠ 0 then list.capacity * 2 else 128
    if realloc capacity then some ⟨list.items ++ [entry], capacity⟩ else none
  else some ⟨list.items ++ [entry], list.capacity⟩

/-- What a message, or the messages of one buffer, do to a dump. -/
inductive Dump where
  | more (list : OwnedPortList)
  | finished (list : OwnedPortList)
  | failed

/-- What one refresh meets: whether each dump request can be sent, and what is received after it. -/
structure DumpEnv where
  sendto : Bool
  recvs : List Recv

structure RefreshEnv where
  socket : Bool
  realloc : ℕ → Bool
  tcp : DumpEnv
  tcp6 : DumpEnv
  udp : DumpEnv
  udp6 : DumpEnv

section Dump
variable (realloc : ℕ → Bool) (protocol : DiagProtocol) (sequence : UInt32)

def dumpMessage (list : OwnedPortList) (nlh : NlMsg) : Dump :=
  if nlh.seq ≠ sequence then .more list
  else if nlh.type = nlmsgDone then .finished list
  else if nlh.type = nlmsgError then .failed
  else if nlh.type ≠ sockDiagByFamily then .more list
  else match nlh.payload with
    | none => .more list
    | some msg => match diagLocalEndpoint msg with
      | none => .more list
      | some (family, address) =>
        if protocol = .udp ∧ msg.dport ≠ 0 then .more list
        else match appendOwnedPort realloc list ⟨msg.uid, ntohs msg.sport, protocol.vhProto, family, address⟩ with
          | none => .failed
          | some list => .more list

def dumpMessages : List NlMsg → OwnedPortList → Dump
  | [], list => .more list
  | nlh :: rest, list => match dumpMessage realloc protocol sequence list nlh with
    | .more list => dumpMessages rest list
    | .finished list => .finished list
    | .failed => .failed

/-- The receive loop. It gives no list if it fails, or if the replies end before the dump does. -/
def dumpRecvs : List Recv → OwnedPortList → Option OwnedPortList
  | [], _ => none
  | .interrupted :: rest, list => dumpRecvs rest list
  | .failed :: _, _ => none
  | .messages ms :: rest, list => match dumpMessages realloc protocol sequence ms list with
    | .more list => dumpRecvs rest list
    | .finished list => some list
    | .failed => none

def dumpOwnedPortsFamily (env : DumpEnv) (list : OwnedPortList) : Option OwnedPortList :=
  if env.sendto then dumpRecvs realloc protocol sequence env.recvs list else none

end Dump

def addressBytes (a : Address) : List UInt8 := Codec.u32.encodeArray a.toList

def ownedPortCompare (a b : OwnedPort) : Int :=
  if a.uid ≠ b.uid then if a.uid < b.uid then -1 else 1
  else if a.port ≠ b.port then if a.port < b.port then -1 else 1
  else if a.protocol ≠ b.protocol then (a.protocol.toNat : Int) - b.protocol.toNat
  else if a.family ≠ b.family then (a.family.toNat : Int) - b.family.toNat
  else memcmp (addressBytes a.address) (addressBytes b.address)

/-- `refresh_owned_ports` up to its ioctl: the request it submits. -/
def refreshOwnedPorts (env : RefreshEnv) : Option OwnedPortsUpdate := do
  guard env.socket
  let list ← dumpOwnedPortsFamily env.realloc .tcp 1 env.tcp ⟨[], 0⟩
  let list ← dumpOwnedPortsFamily env.realloc .tcp 2 env.tcp6 list
  let list ← dumpOwnedPortsFamily env.realloc .udp 3 env.udp list
  let list ← dumpOwnedPortsFamily env.realloc .udp 4 env.udp6 list
  let items := sortCmp ownedPortCompare list.items
  let (items, count) :=
    if items.length ≠ 0 then dedupeInPlace ownedPortCompare (items.length - 1) 1 1 items else (items, 0)
  return {
    count := UInt32.ofNat count
    reserved := 0
    entriesPtr := if list.capacity = 0 then .null else .mapped (OwnedPort.codec.encodeArray items) }

/-! ### The order of the entries -/

theorem length_addressBytes (a : Address) : (addressBytes a).length = 16 := by
  simp [addressBytes]

/-- All fields in the order of comparison, as one number. -/
def ownedKey (o : OwnedPort) : ℕ :=
  (((o.uid.toNat * 2 ^ 16 + o.port.toNat) * 2 ^ 8 + o.protocol.toNat) * 2 ^ 8 + o.family.toNat) * 256 ^ 16 +
    beNat (addressBytes o.address)

theorem beNat_address_lt (a : Address) : beNat (addressBytes a) < 256 ^ 16 := by
  have h := beNat_lt (addressBytes a)
  rwa [length_addressBytes] at h

theorem addressBytes_inj {a b : Address} : addressBytes a = addressBytes b ↔ a = b := by
  refine ⟨fun h => ?_, fun h => h ▸ rfl⟩
  have hdecode := congrArg (Codec.u32.vector 4).decode h
  have hround (v : Address) : (Codec.u32.vector 4).decode (addressBytes v) = v := by
    have := (Codec.u32.vector 4).decode_encode v []
    rwa [List.append_nil] at this
  rwa [hround, hround] at hdecode

theorem ownedKey_inj {a b : OwnedPort} (h : ownedKey a = ownedKey b) : a = b := by
  obtain ⟨⟨⟨⟨hu, hp⟩, hpr⟩, hf⟩, ha⟩ : (((a.uid.toNat = b.uid.toNat ∧ a.port.toNat = b.port.toNat) ∧
      a.protocol.toNat = b.protocol.toNat) ∧ a.family.toNat = b.family.toNat) ∧
      beNat (addressBytes a.address) = beNat (addressBytes b.address) := by
    rwa [ownedKey, ownedKey, digit_eq (beNat_address_lt _) (beNat_address_lt _),
      digit_eq a.family.toNat_lt b.family.toNat_lt, digit_eq a.protocol.toNat_lt b.protocol.toNat_lt,
      digit_eq a.port.toNat_lt b.port.toNat_lt] at h
  have haddr := addressBytes_inj.1 (beNat_inj (by rw [length_addressBytes, length_addressBytes]) ha)
  obtain ⟨u, p, pr, f, ad⟩ := a
  obtain ⟨u', p', pr', f', ad'⟩ := b
  simp only [UInt32.toNat_inj, UInt16.toNat_inj, UInt8.toNat_inj] at hu hp hpr hf haddr
  rw [hu, hp, hpr, hf, haddr]

theorem ownedKey_lt {a b : OwnedPort} : ownedKey a < ownedKey b ↔
    a.uid < b.uid ∨ a.uid = b.uid ∧ (a.port < b.port ∨ a.port = b.port ∧ (a.protocol < b.protocol ∨
      a.protocol = b.protocol ∧ (a.family < b.family ∨ a.family = b.family ∧
        beNat (addressBytes a.address) < beNat (addressBytes b.address)))) := by
  rw [ownedKey, ownedKey, digit_lt (beNat_address_lt _) (beNat_address_lt _),
    digit_lt a.family.toNat_lt b.family.toNat_lt, digit_lt a.protocol.toNat_lt b.protocol.toNat_lt,
    digit_lt a.port.toNat_lt b.port.toNat_lt, digit_eq a.family.toNat_lt b.family.toNat_lt,
    digit_eq a.protocol.toNat_lt b.protocol.toNat_lt, digit_eq a.port.toNat_lt b.port.toNat_lt]
  simp only [UInt32.toNat_inj, UInt16.toNat_inj, UInt8.toNat_inj, ← UInt32.lt_iff_toNat_lt, ← UInt16.lt_iff_toNat_lt,
    ← UInt8.lt_iff_toNat_lt]
  simp only [and_or_left, or_assoc, and_assoc]

/-- The comparison orders by `ownedKey`, and only equal entries compare equal. -/
theorem ownedPortCompare_spec (a b : OwnedPort) :
    (ownedPortCompare a b < 0 ↔ ownedKey a < ownedKey b) ∧ (ownedPortCompare a b = 0 ↔ a = b) := by
  have heq : a = b ↔ a.uid = b.uid ∧ a.port = b.port ∧ a.protocol = b.protocol ∧ a.family = b.family ∧
      a.address = b.address := by
    cases a
    cases b
    simp
  have hmem := @memcmp_spec (addressBytes a.address) (addressBytes b.address)
    (by rw [length_addressBytes, length_addressBytes])
  rw [addressBytes_inj] at hmem
  have hsign {c : Prop} [Decidable c] : ((if c then (-1 : Int) else 1) < 0 ↔ c) ∧
      ¬ (if c then (-1 : Int) else 1) = 0 := by
    by_cases hc : c <;> simp [hc]
  have hbyte {x y : UInt8} (hne : x ≠ y) : ((x.toNat : Int) - y.toNat < 0 ↔ x < y) ∧
      ¬ (x.toNat : Int) - y.toNat = 0 := by
    have := mt UInt8.toNat_inj.1 hne
    rw [UInt8.lt_iff_toNat_lt]
    omega
  rw [ownedKey_lt, heq, ownedPortCompare]
  by_cases hu : a.uid = b.uid
  case neg => simp only [hu, if_true, hsign, ne_eq, not_false_eq_true, false_and, or_false, and_self]
  rw [if_neg (not_not.2 hu), hu]
  simp only [UInt32.lt_irrefl, false_or, true_and]
  by_cases hp : a.port = b.port
  case neg => simp only [hp, if_true, hsign, ne_eq, not_false_eq_true, false_and, or_false, and_self]
  rw [if_neg (not_not.2 hp), hp]
  simp only [UInt16.lt_irrefl, false_or, true_and]
  by_cases hpr : a.protocol = b.protocol
  case neg => simp only [hpr, if_true, hbyte hpr, ne_eq, not_false_eq_true, false_and, or_false, and_self]
  rw [if_neg (not_not.2 hpr), hpr]
  simp only [UInt8.lt_irrefl, false_or, true_and]
  by_cases hf : a.family = b.family
  case neg => simp only [hf, if_true, hbyte hf, ne_eq, not_false_eq_true, false_and, or_false, and_self]
  rw [if_neg (not_not.2 hf), hf]
  simp only [UInt8.lt_irrefl, false_or, true_and]
  exact hmem

theorem cmpKey_owned : CmpKey ownedPortCompare ownedKey := by
  intro a b
  obtain ⟨hlt, heq⟩ := ownedPortCompare_spec a b
  rw [Int.le_iff_lt_or_eq, hlt, heq, Nat.le_iff_lt_or_eq]
  exact or_congr_right ⟨fun h => h ▸ rfl, ownedKey_inj⟩

/-! ### Endpoints -/

/-- The entry a message calls for: a local endpoint of an app with a port and, for UDP, without a peer. -/
def endpointOf (protocol : DiagProtocol) (msg : InetDiagMsg) : Option OwnedPort :=
  match diagLocalEndpoint msg with
  | none => none
  | some (family, address) =>
    if msg.uid < 10000 ∨ ntohs msg.sport = 0 ∨ (protocol = .udp ∧ msg.dport ≠ 0) then none
    else some ⟨msg.uid, ntohs msg.sport, protocol.vhProto, family, address⟩

def NlMsg.diag (nlh : NlMsg) : Option InetDiagMsg := if nlh.type = sockDiagByFamily then nlh.payload else none

def Recv.received : Recv → List NlMsg
  | .messages ms => ms
  | _ => []

/-- The entries that the messages of a dump call for: those of its sequence in front of the end marker. -/
def dumped (protocol : DiagProtocol) (sequence : UInt32) (ms : List NlMsg) : List OwnedPort :=
  (((ms.filter fun nlh => nlh.seq = sequence).takeWhile fun nlh => nlh.type ≠ nlmsgDone).filterMap NlMsg.diag).filterMap
    (endpointOf protocol)

def DumpEnv.entries (env : DumpEnv) (protocol : DiagProtocol) (sequence : UInt32) : List OwnedPort :=
  dumped protocol sequence (env.recvs.flatMap Recv.received)

/-- The entries that all messages of a refresh call for. -/
def RefreshEnv.entries (env : RefreshEnv) : List OwnedPort :=
  env.tcp.entries .tcp 1 ++ env.tcp6.entries .tcp 2 ++ env.udp.entries .udp 3 ++ env.udp6.entries .udp 4

/-- The daemon tests the top byte in host order, the kernel the first byte in memory. -/
theorem ntohl_shift (a : UInt32) : ntohl a >>> 24 = a &&& 0xff := by
  suffices hbits : ∀ b : BitVec 32, ((b <<< 24) ||| ((b &&& 0xff00#32) <<< 8) ||| ((b >>> 8) &&& 0xff00#32) |||
      (b >>> 24)) >>> 24 = b &&& 0xff#32 from UInt32.toBitVec_inj.1 (hbits a.toBitVec)
  intro b
  have h₀ : b <<< 24 >>> 24 = b &&& 0xff#32 := by
    refine BitVec.eq_of_toNat_eq ?_
    have hmask : (b &&& 0xff#32).toNat = b.toNat % 2 ^ 8 := Nat.and_two_pow_sub_one_eq_mod _ 8
    rw [hmask, BitVec.toNat_ushiftRight, BitVec.toNat_shiftLeft, Nat.shiftLeft_eq, Nat.shiftRight_eq_div_pow]
    omega
  have h₁ : (b &&& 0xff00#32) <<< 8 >>> 24 = 0#32 := by
    rw [BitVec.shiftLeft_and_distrib, BitVec.ushiftRight_and_distrib]
    exact BitVec.and_zero
  have h₂ : ((b >>> 8) &&& 0xff00#32) >>> 24 = 0#32 := by
    rw [BitVec.ushiftRight_and_distrib]
    exact BitVec.and_zero
  have h₃ : b >>> 24 >>> 24 = 0#32 := by
    rw [← BitVec.shiftRight_add]
    exact BitVec.ushiftRight_eq_zero (by decide)
  rw [BitVec.ushiftRight_or_distrib, BitVec.ushiftRight_or_distrib, BitVec.ushiftRight_or_distrib, h₀, h₁, h₂, h₃]
  simp

theorem in6IsAddrUnspecified_iff (a : Address) : in6IsAddrUnspecified a ↔ a = #v[0, 0, 0, 0] := by
  obtain ⟨⟨words⟩, hsize⟩ := a
  match words, hsize with
  | [a, b, c, d], _ => simp [in6IsAddrUnspecified, Address.word, and_assoc]

theorem in6IsAddrLoopback_iff (a : Address) : in6IsAddrLoopback a ↔ a = #v[0, 0, 0, htonl 1] := by
  obtain ⟨⟨words⟩, hsize⟩ := a
  match words, hsize with
  | [a, b, c, d], _ => simp [in6IsAddrLoopback, Address.word, ntohl, and_assoc]

theorem diagLocalEndpoint_local {msg : InetDiagMsg} {family : UInt8} {address : Address}
    (h : diagLocalEndpoint msg = some (family, address)) : LocalAddress family address := by
  unfold diagLocalEndpoint at h
  by_cases h4 : msg.family = afInet
  · rw [if_pos h4] at h
    dsimp only at h
    by_cases hfar : msg.src.word 0 ≠ 0 ∧ ntohl (msg.src.word 0) >>> 24 ≠ 127
    · rw [if_pos hfar] at h
      cases h
    · rw [if_neg hfar] at h
      cases h
      rw [ntohl_shift, ne_eq, ne_eq, lowByte_eq_iff, not_and_or, not_not, not_not] at hfar
      exact .inl ⟨rfl, _, rfl, hfar.symm⟩
  rw [if_neg h4] at h
  by_cases h6 : msg.family = afInet6
  case neg =>
    rw [if_neg h6] at h
    cases h
  rw [if_pos h6] at h
  by_cases hself : (in6IsAddrUnspecified msg.src || in6IsAddrLoopback msg.src) = true
  · rw [if_pos hself] at h
    cases h
    refine .inr ⟨rfl, ?_⟩
    rw [Bool.or_eq_true, in6IsAddrUnspecified_iff, in6IsAddrLoopback_iff] at hself
    exact hself.symm
  rw [if_neg hself] at h
  by_cases hmapped : in6IsAddrV4mapped msg.src = true
  case neg =>
    rw [if_neg hmapped] at h
    cases h
  rw [if_pos hmapped] at h
  dsimp only at h
  by_cases hfar : ntohl (msg.src.word 3) >>> 24 ≠ 127
  · rw [if_pos hfar] at h
    cases h
  · rw [if_neg hfar] at h
    cases h
    rw [ntohl_shift] at hfar
    exact .inl ⟨rfl, _, rfl, .inl ((lowByte_eq_iff _).1 (not_not.1 hfar))⟩

theorem endpointOf_eq_some {protocol : DiagProtocol} {msg : InetDiagMsg} {entry : OwnedPort}
    (h : endpointOf protocol msg = some entry) :
    10000 ≤ entry.uid ∧ entry.port ≠ 0 ∧ entry.protocol = protocol.vhProto ∧
      LocalAddress entry.family entry.address := by
  unfold endpointOf at h
  cases hlocal : diagLocalEndpoint msg with
  | none =>
    rw [hlocal] at h
    cases h
  | some endpoint =>
    obtain ⟨family, address⟩ := endpoint
    rw [hlocal] at h
    dsimp only at h
    by_cases hskip : msg.uid < 10000 ∨ ntohs msg.sport = 0 ∨ (protocol = .udp ∧ msg.dport ≠ 0)
    · rw [if_pos hskip] at h
      cases h
    · rw [if_neg hskip] at h
      cases h
      rw [not_or, not_or] at hskip
      exact ⟨UInt32.not_lt.1 hskip.1, hskip.2.1, rfl, diagLocalEndpoint_local hlocal⟩

theorem endpointOf_valid {protocol : DiagProtocol} {msg : InetDiagMsg} {entry : OwnedPort}
    (h : endpointOf protocol msg = some entry) : ownedEntryInvalid entry = false := by
  obtain ⟨huid, hport, hprotocol, hlocal⟩ := endpointOf_eq_some h
  rw [ownedEntryInvalid_eq_false, ownedPortIsLocal_iff]
  refine ⟨?_, hport, ?_, hlocal⟩
  · rintro hzero
    rw [hzero] at huid
    exact absurd huid (by decide)
  · rw [hprotocol]
    cases protocol <;> decide

/-! ### The dumps -/

/-- The array is allocated once it holds anything, and never exceeds the kernel's limit. -/
structure OwnedPortList.Ok (list : OwnedPortList) : Prop where
  allocated : list.capacity = 0 → list.items = []
  small : list.items.length ≤ ownedPortsMax.toNat

section Dumps
variable {realloc : ℕ → Bool} {protocol : DiagProtocol} {sequence : UInt32} {list list' : OwnedPortList}

theorem appendOwnedPort_eq_some {entry : OwnedPort} (hok : list.Ok)
    (h : appendOwnedPort realloc list entry = some list') :
    list'.Ok ∧ list'.items = list.items ++ if entry.uid < 10000 ∨ entry.port = 0 then [] else [entry] := by
  unfold appendOwnedPort at h
  by_cases hskip : entry.uid < 10000 ∨ entry.port = 0
  · rw [if_pos hskip] at h ⊢
    cases h
    exact ⟨hok, (List.append_nil _).symm⟩
  rw [if_neg hskip] at h ⊢
  by_cases hfull : list.items.length ≥ ownedPortsMax.toNat
  · rw [if_pos hfull] at h
    cases h
  rw [if_neg hfull] at h
  have hsmall : (list.items ++ [entry]).length ≤ ownedPortsMax.toNat := by
    rw [List.length_append, List.length_singleton]
    omega
  by_cases hgrow : list.items.length = list.capacity
  · rw [if_pos hgrow] at h
    dsimp only at h
    by_cases hrealloc : realloc (if list.capacity ≠ 0 then list.capacity * 2 else 128)
    · rw [if_pos hrealloc] at h
      cases h
      refine ⟨⟨fun hzero => ?_, hsmall⟩, rfl⟩
      dsimp only at hzero
      split_ifs at hzero
      omega
    · rw [if_neg hrealloc] at h
      cases h
  · rw [if_neg hgrow] at h
    cases h
    refine ⟨⟨fun hzero => ?_, hsmall⟩, rfl⟩
    have hnil := hok.allocated hzero
    dsimp only at hzero
    rw [hnil, hzero] at hgrow
    exact absurd rfl hgrow

theorem dumped_skip {nlh : NlMsg} (h : nlh.seq ≠ sequence) (ms : List NlMsg) :
    dumped protocol sequence (nlh :: ms) = dumped protocol sequence ms := by
  rw [dumped, List.filter_cons_of_neg (by simpa using h), dumped]

theorem dumped_done {nlh : NlMsg} (h : nlh.seq = sequence) (hdone : nlh.type = nlmsgDone) (ms : List NlMsg) :
    dumped protocol sequence (nlh :: ms) = [] := by
  rw [dumped, List.filter_cons_of_pos (by simpa using h), List.takeWhile_cons_of_neg (by simpa using hdone)]
  rfl

theorem dumped_entry {nlh : NlMsg} (h : nlh.seq = sequence) (hdone : nlh.type ≠ nlmsgDone) (ms : List NlMsg) :
    dumped protocol sequence (nlh :: ms) =
      (nlh.diag.bind (endpointOf protocol)).toList ++ dumped protocol sequence ms := by
  rw [dumped, List.filter_cons_of_pos (by simpa using h), List.takeWhile_cons_of_pos (by simpa using hdone), dumped]
  cases hdiag : nlh.diag with
  | none => rw [List.filterMap_cons_none hdiag]; rfl
  | some msg =>
    rw [List.filterMap_cons_some hdiag, Option.bind_some]
    cases hend : endpointOf protocol msg with
    | none => rw [List.filterMap_cons_none hend]; rfl
    | some entry => rw [List.filterMap_cons_some hend]; rfl

/-- What a dump has read of the messages `ms`, from the entries `items` on; any messages may follow. -/
def Dump.Took (protocol : DiagProtocol) (sequence : UInt32) (items : List OwnedPort) (ms : List NlMsg) : Dump → Prop
  | .more list => list.Ok ∧ ∀ rest, items ++ dumped protocol sequence (ms ++ rest) =
      list.items ++ dumped protocol sequence rest
  | .finished list => list.Ok ∧ ∀ rest, items ++ dumped protocol sequence (ms ++ rest) = list.items
  | .failed => True

theorem Dump.Took.trans {items : List OwnedPort} {ms ms' : List NlMsg} {d : Dump}
    (h : (Dump.more list).Took protocol sequence items ms) (h' : d.Took protocol sequence list.items ms') :
    d.Took protocol sequence items (ms ++ ms') := by
  cases d with
  | more list' => exact ⟨h'.1, fun rest => by rw [List.append_assoc, h.2, h'.2]⟩
  | finished list' => exact ⟨h'.1, fun rest => by rw [List.append_assoc, h.2, h'.2]⟩
  | failed => trivial

theorem dumpMessage_took (hok : list.Ok) (nlh : NlMsg) :
    (dumpMessage realloc protocol sequence list nlh).Took protocol sequence list.items [nlh] := by
  unfold dumpMessage
  by_cases hseq : nlh.seq = sequence
  case neg =>
    rw [if_pos hseq]
    exact ⟨hok, fun rest => by rw [List.singleton_append, dumped_skip hseq]⟩
  rw [if_neg (not_not.2 hseq)]
  by_cases hdone : nlh.type = nlmsgDone
  · rw [if_pos hdone]
    exact ⟨hok, fun rest => by rw [List.singleton_append, dumped_done hseq hdone, List.append_nil]⟩
  rw [if_neg hdone]
  by_cases herror : nlh.type = nlmsgError
  · rw [if_pos herror]
    trivial
  rw [if_neg herror]
  -- the message calls for an entry exactly if it is appended
  suffices hmore : ∀ list', list'.Ok → list'.items = list.items ++ (nlh.diag.bind (endpointOf protocol)).toList →
      (Dump.more list').Took protocol sequence list.items [nlh] by
    have hskip (hnone : nlh.diag.bind (endpointOf protocol) = none) := hmore list hok (by rw [hnone]; simp)
    by_cases htype : nlh.type = sockDiagByFamily
    case neg =>
      rw [if_pos htype]
      exact hskip (by rw [NlMsg.diag, if_neg htype, Option.bind_none])
    rw [if_neg (not_not.2 htype)]
    rw [NlMsg.diag, if_pos htype] at hmore hskip
    cases hpayload : nlh.payload with
    | none => exact hskip (by rw [hpayload, Option.bind_none])
    | some msg =>
      rw [hpayload, Option.bind_some, endpointOf] at hmore hskip
      dsimp only
      cases hlocal : diagLocalEndpoint msg with
      | none => exact hskip (by rw [hlocal])
      | some endpoint =>
        obtain ⟨family, address⟩ := endpoint
        rw [hlocal] at hmore hskip
        dsimp only at hmore hskip ⊢
        by_cases hpeer : protocol = .udp ∧ msg.dport ≠ 0
        · rw [if_pos hpeer]
          exact hskip (if_pos (.inr (.inr hpeer)))
        rw [if_neg hpeer]
        cases happend : appendOwnedPort realloc list ⟨msg.uid, ntohs msg.sport, protocol.vhProto, family, address⟩ with
        | none => trivial
        | some list' =>
          obtain ⟨hok', hitems⟩ := appendOwnedPort_eq_some hok happend
          refine hmore list' hok' (hitems.trans ?_)
          simp only [hpeer, or_false]
          split_ifs <;> rfl
  intro list' hok' hitems
  exact ⟨hok', fun rest => by rw [List.singleton_append, dumped_entry hseq hdone, hitems, List.append_assoc]⟩

theorem dumpMessages_took (ms : List NlMsg) (hok : list.Ok) :
    (dumpMessages realloc protocol sequence ms list).Took protocol sequence list.items ms := by
  induction ms generalizing list with
  | nil => exact ⟨hok, fun _ => rfl⟩
  | cons nlh ms ih =>
    have hfirst : (dumpMessage realloc protocol sequence list nlh).Took protocol sequence list.items [nlh] :=
      dumpMessage_took hok nlh
    unfold dumpMessages
    cases hstep : dumpMessage realloc protocol sequence list nlh with
    | failed => trivial
    | finished list' =>
      rw [hstep] at hfirst
      exact ⟨hfirst.1, fun rest => hfirst.2 (ms ++ rest)⟩
    | more list' =>
      rw [hstep] at hfirst
      exact hfirst.trans (ih hfirst.1)

theorem dumpRecvs_took (recvs : List Recv) (hok : list.Ok)
    (h : dumpRecvs realloc protocol sequence recvs list = some list') :
    list'.Ok ∧ list'.items = list.items ++ dumped protocol sequence (recvs.flatMap Recv.received) := by
  induction recvs generalizing list with
  | nil => cases h
  | cons recv rest ih =>
    rw [List.flatMap_cons]
    cases recv with
    | interrupted => exact ih hok h
    | failed => cases h
    | messages ms =>
      have htook : (dumpMessages realloc protocol sequence ms list).Took protocol sequence list.items ms :=
        dumpMessages_took ms hok
      unfold dumpRecvs at h
      cases hread : dumpMessages realloc protocol sequence ms list with
      | failed =>
        rw [hread] at h
        cases h
      | finished list'' =>
        rw [hread] at h htook
        cases h
        exact ⟨htook.1, (htook.2 _).symm⟩
      | more list'' =>
        rw [hread] at h htook
        obtain ⟨hok', hitems⟩ := ih htook.1 h
        exact ⟨hok', hitems.trans (htook.2 _).symm⟩

theorem dumpOwnedPortsFamily_took {env : DumpEnv} (hok : list.Ok)
    (h : dumpOwnedPortsFamily realloc protocol sequence env list = some list') :
    list'.Ok ∧ list'.items = list.items ++ env.entries protocol sequence := by
  unfold dumpOwnedPortsFamily at h
  by_cases hsent : env.sendto = true
  · rw [if_pos hsent] at h
    exact dumpRecvs_took env.recvs hok h
  · rw [if_neg hsent] at h
    cases h

end Dumps

/-! ### The request -/

theorem dumped_valid {protocol : DiagProtocol} {sequence : UInt32} {ms : List NlMsg} {e : OwnedPort}
    (h : e ∈ dumped protocol sequence ms) : ownedEntryInvalid e = false := by
  obtain ⟨msg, -, he⟩ := List.mem_filterMap.1 h
  exact endpointOf_valid he

theorem RefreshEnv.entries_valid {env : RefreshEnv} {e : OwnedPort} (h : e ∈ env.entries) :
    ownedEntryInvalid e = false := by
  simp only [RefreshEnv.entries, List.mem_append] at h
  rcases h with ((h | h) | h) | h <;> exact dumped_valid h

theorem dedupe_sorted (items : List OwnedPort) :
    let sorted := sortCmp ownedPortCompare items
    let result := if sorted.length ≠ 0 then dedupeInPlace ownedPortCompare
      (sorted.length - 1) 1 1 sorted else (sorted, 0)
    result.1.length = items.length ∧ result.2 ≤ items.length ∧ StrictBy ownedKey (result.1.take result.2) ∧
      ∀ e, e ∈ result.1.take result.2 ↔ e ∈ items := by
  intro sorted result
  have hlen : sorted.length = items.length := length_sortCmp
  by_cases hnil : sorted.length ≠ 0
  · have hne : sorted ≠ [] := List.length_pos_iff.1 (Nat.pos_of_ne_zero hnil)
    have hdone : Deduped ownedKey sorted sorted.length result.2 result.1 := by
      rw [show result = dedupeInPlace ownedPortCompare (sorted.length - 1) 1 1 sorted from if_pos hnil]
      exact dedupeInPlace_spec (fun a b => (ownedPortCompare_spec a b).2) (fun _ _ => ownedKey_inj)
        (sortCmp_sorted cmpKey_owned items) _ (.start hne)
        (show 1 + (sorted.length - 1) = sorted.length by omega)
    refine ⟨hdone.length.trans hlen, hlen ▸ hdone.out_le, hdone.strict, fun e => ?_⟩
    rw [hdone.mem, List.take_length]
    exact mem_sortCmp
  · rw [show result = (sorted, 0) from if_neg hnil]
    have hitems : items = [] := List.length_eq_zero_iff.1 (hlen ▸ not_not.1 hnil)
    exact ⟨hlen, Nat.zero_le _, .nil, fun e => by rw [hitems]; rfl⟩

theorem storeOwned_valid {entries : List OwnedPort} (h : ∀ e ∈ entries, ownedEntryInvalid e = false)
    (snapshot : OwnedPortsSnapshot) : ∃ snapshot', entries.foldlM storeOwned snapshot = .ok snapshot' := by
  refine foldlM_progress (P := fun _ _ => True) (fun done e rest s hentries _ => ?_) trivial
  have hvalid := h e (by rw [hentries]; simp)
  exact ⟨_, by rw [storeOwned, hvalid]; rfl, trivial⟩

theorem readOwnedEntries_alloc {update : OwnedPortsUpdate} {entries : List OwnedPort}
    (h : readOwnedEntries true update = .ok entries) (kvmallocArray : Bool) :
    readOwnedEntries kvmallocArray update = .ok entries ∨ readOwnedEntries kvmallocArray update = .error .enomem := by
  cases kvmallocArray with
  | true => exact .inl h
  | false =>
    by_cases hzero : update.count = 0
    · refine .inl (Eq.trans ?_ h)
      rw [readOwnedEntries, readOwnedEntries, if_pos hzero, if_pos hzero]
    · exact .inr (by rw [readOwnedEntries, if_neg hzero]; rfl)

/-- The kernel refuses a request it can read, of valid entries, only for lack of memory. -/
theorem buildOwnedPorts_valid {update : OwnedPortsUpdate} {entries : List OwnedPort}
    (hreserved : update.reserved = 0) (hcount : update.count ≤ ownedPortsMax)
    (hptr : update.count ≠ 0 → update.entriesPtr.isNull = false)
    (hread : readOwnedEntries true update = .ok entries) (hvalid : ∀ e ∈ entries, ownedEntryInvalid e = false)
    {alloc : OwnedAllocs} {hz jiffies : UInt64} {e : Errno} (h : buildOwnedPorts alloc hz jiffies update = .error e) :
    e = .enomem := by
  rcases bind_eq_error.1 h with hreject | ⟨_, -, h⟩
  · rcases rejectIf_eq_error.1 hreject with ⟨hreserved' | hcount' | ⟨hcount', hnull⟩, -⟩
    · exact absurd hreserved hreserved'
    · exact absurd hcount (UInt32.not_le.2 hcount')
    · rw [hptr hcount'] at hnull
      cases hnull
  have hor := readOwnedEntries_alloc hread alloc.entries
  rcases bind_eq_error.1 h with hfail | ⟨entries', hread', h⟩
  · rw [hfail] at hor
    rcases hor with hor | hor
    · cases hor
    · exact Except.error.inj hor
  rw [hread'] at hor
  rcases hor with hor | hor
  case inr => cases hor
  obtain rfl := Except.ok.inj hor
  rcases bind_eq_error.1 h with hreject | ⟨_, -, h⟩
  · exact (rejectIf_eq_error.1 hreject).2.symm
  · obtain ⟨snapshot, hstore⟩ := storeOwned_valid hvalid
      ⟨0, jiffies + 120 * hz, List.replicate (growBuckets (max 8 (update.count * 2)) 32 8).toNat OwnedPort.zero⟩
    cases hstore.symm.trans h

theorem vhSetOwnedPorts_error {alloc : OwnedAllocs} {hz jiffies : UInt64} {update : OwnedPortsUpdate} {k : KernelState}
    {e : Errno} (h : (exec (vhSetOwnedPorts alloc hz jiffies true (some update)) k).1 = .error e) :
    buildOwnedPorts alloc hz jiffies update = .error e := by
  cases hbuild : buildOwnedPorts alloc hz jiffies update with
  | ok snapshot =>
    rw [vhSetOwnedPorts_eq_ok.2 ⟨rfl, update, snapshot, rfl, hbuild, rfl⟩] at h
    cases h
  | error e' =>
    have hrun : exec (vhSetOwnedPorts alloc hz jiffies true (some update)) k = (.error e', k) := by
      show exec (replaceOwnedPorts alloc hz jiffies update) k = _
      rw [replaceOwnedPorts, hbuild]
      rfl
    rw [hrun] at h
    rw [Except.error.inj h]

theorem readOwnedEntries_mapped {items : List OwnedPort} {count : ℕ} (hcount : count ≤ items.length)
    (hsmall : count < 2 ^ 32) (reserved : UInt32) :
    readOwnedEntries true ⟨UInt32.ofNat count, reserved, .mapped (OwnedPort.codec.encodeArray items)⟩ =
      .ok (items.take count) := by
  have htoNat : (UInt32.ofNat count).toNat = count := UInt32.toNat_ofNat_of_lt' hsmall
  unfold readOwnedEntries
  by_cases hzero : UInt32.ofNat count = 0
  · obtain rfl : count = 0 := by rw [← htoNat, hzero]; rfl
    rfl
  · have hbytes : count * OwnedPort.codec.size ≤ (OwnedPort.codec.encodeArray items).length := by
      rw [Codec.length_encodeArray]
      exact Nat.mul_le_mul_right _ hcount
    rw [if_neg hzero]
    simp only [htoNat, copyFromUser, if_pos hbytes, Codec.decodeArray_take _ hcount]
    rfl

/-- The submitted list is the strictly sorted set of the endpoints that the messages call for, and the kernel
refuses it only for lack of memory. -/
theorem refreshOwnedPorts_accepted (env : RefreshEnv) (update : OwnedPortsUpdate)
    (h : refreshOwnedPorts env = some update) :
    ∃ entries, readOwnedEntries true update = .ok entries ∧ entries.length = update.count.toNat ∧
      entries.length ≤ 65536 ∧ (entries.Pairwise fun a b => ownedPortCompare a b < 0) ∧ entries.Nodup ∧
      (∀ e, e ∈ entries ↔ e ∈ env.entries) ∧
      (∀ e ∈ entries, e.uid ≠ 0 ∧ e.port ≠ 0 ∧ e.protocol ≤ protoUdp ∧ ownedPortIsLocal e) ∧
      ∀ alloc hz jiffies k e,
        (exec (vhSetOwnedPorts alloc hz jiffies true (some update)) k).1 = .error e → e = .enomem := by
  simp only [refreshOwnedPorts, Option.bind_eq_bind, Option.bind_eq_some_iff, Option.pure_def] at h
  obtain ⟨-, -, tcp, htcp, tcp6, htcp6, udp, hudp, list, hudp6, h⟩ := h
  obtain ⟨hok, htcp⟩ := dumpOwnedPortsFamily_took ⟨fun _ => rfl, Nat.zero_le _⟩ htcp
  obtain ⟨hok, htcp6⟩ := dumpOwnedPortsFamily_took hok htcp6
  obtain ⟨hok, hudp⟩ := dumpOwnedPortsFamily_took hok hudp
  obtain ⟨hok, hudp6⟩ := dumpOwnedPortsFamily_took hok hudp6
  have hitems : list.items = env.entries := by
    rw [hudp6, hudp, htcp6, htcp, List.nil_append, RefreshEnv.entries]
  obtain ⟨hlen, hcount, hstrict, hmem⟩ := dedupe_sorted list.items
  generalize hresult : (if (sortCmp ownedPortCompare list.items).length ≠ 0 then
      dedupeInPlace ownedPortCompare ((sortCmp ownedPortCompare list.items).length - 1) 1 1
        (sortCmp ownedPortCompare list.items)
    else (sortCmp ownedPortCompare list.items, 0)) = result at h hlen hcount hstrict hmem
  obtain ⟨items, count⟩ := result
  obtain rfl := Option.some.inj h
  have hsmall : count ≤ 65536 := hcount.trans hok.small
  have htoNat : (UInt32.ofNat count).toNat = count := UInt32.toNat_ofNat_of_lt' (Nat.lt_of_le_of_lt hsmall (by decide))
  have htake : (items.take count).length = count := List.length_take_of_le (hlen ▸ hcount)
  have hnull : list.capacity = 0 → count = 0 := fun hzero => by simpa [hok.allocated hzero] using hcount
  have hvalid : ∀ e ∈ items.take count, ownedEntryInvalid e = false := by
    intro e he
    rw [hmem, hitems] at he
    exact RefreshEnv.entries_valid he
  have hread : readOwnedEntries true ⟨UInt32.ofNat count, 0,
      if list.capacity = 0 then .null else .mapped (OwnedPort.codec.encodeArray items)⟩ = .ok (items.take count) := by
    by_cases hzero : list.capacity = 0
    · rw [if_pos hzero, hnull hzero]
      rfl
    · rw [if_neg hzero]
      exact readOwnedEntries_mapped (hlen ▸ hcount) (Nat.lt_of_le_of_lt hsmall (by decide)) 0
  refine ⟨items.take count, hread, htake.trans htoNat.symm, htake.trans_le hsmall, ?_, ?_, ?_, ?_, ?_⟩
  · exact hstrict.imp fun hlt => (ownedPortCompare_spec _ _).1.2 hlt
  · exact hstrict.nodup.of_map
  · exact fun e => by rw [hmem, hitems]
  · exact fun e he => ownedEntryInvalid_eq_false.1 (hvalid e he)
  · intro alloc hz jiffies k e herror
    refine buildOwnedPorts_valid rfl ?_ (fun hne => ?_) hread hvalid (vhSetOwnedPorts_error herror)
    · rw [UInt32.le_iff_toNat_le]
      exact htoNat.trans_le hsmall
    · have hcap : list.capacity ≠ 0 := fun hzero => hne (congrArg UInt32.ofNat (hnull hzero))
      exact congrArg UserPtr.isNull (if_neg hcap)

/-- An app with two listening sockets of one port, a connected UDP socket and a root service. -/
def sampleRefresh : RefreshEnv :=
  let msg (family : UInt8) (dport : UInt16) (src : Address) (uid : UInt32) : InetDiagMsg :=
    { family, sport := 0x901f, dport, src, uid }
  let dump (sequence : UInt32) (msgs : List InetDiagMsg) : DumpEnv :=
    { sendto := true
      recvs := [.interrupted, .messages (msgs.map fun m => ⟨sequence, sockDiagByFamily, some m⟩),
        .messages [⟨sequence, nlmsgDone, none⟩]] }
  { socket := true
    realloc := fun _ => true
    tcp := dump 1 [msg afInet 0 (v4Address 0x0100007f) 10123, msg afInet 0 (v4Address 0) 0]
    tcp6 := dump 2 [msg afInet6 0 #v[0, 0, 0xffff0000, 0x0100007f] 10123]
    udp := dump 3 [msg afInet 0x3500 (v4Address 0x0100007f) 10123]
    udp6 := dump 4 [] }

theorem refreshOwnedPorts_accepted_sample :
    ∃ update, refreshOwnedPorts sampleRefresh = some update ∧ update.count = 1 ∧
      ∃ entries, readOwnedEntries true update = .ok entries ∧ entries.length = update.count.toNat ∧
        ∀ e, e ∈ entries ↔ e = ⟨10123, 8080, protoTcp, afInet, #v[0x0100007f, 0, 0, 0]⟩ := by
  refine ⟨_, rfl, by decide, ?_⟩
  obtain ⟨entries, hread, hlen, -, -, -, hmem, -⟩ := refreshOwnedPorts_accepted sampleRefresh _ rfl
  have hentries : sampleRefresh.entries =
      List.replicate 2 ⟨10123, 8080, protoTcp, afInet, #v[0x0100007f, 0, 0, 0]⟩ := by decide
  exact ⟨entries, hread, hlen, fun e => by rw [hmem, hentries]; simp⟩

end VpnHide
