import VpnHide.Abi

/-!
# Ports an app owns (`kmod/main.c`)

A connection to a port the app itself bound is never refused. Two sources know such ports: the hash
table the daemon installs (`owned_ports_snapshot`) and the set-associative cache of recent binds
(`pending_ports`). Addresses are the four words of the kernel structures, in network byte order as they
lie in memory.
-/

namespace VpnHide

/-! ### Addresses -/

def htonl (x : UInt32) : UInt32 :=
  let mask : UInt32 := 0xff00
  (x <<< (24 : UInt32)) ||| ((x &&& mask) <<< (8 : UInt32)) ||| ((x >>> (8 : UInt32)) &&& mask) |||
    (x >>> (24 : UInt32))

def afInet : UInt8 := 2
def afInet6 : UInt8 := 10

/-- Four address words. -/
abbrev Address := Vector UInt32 4

def inaddrAny : UInt32 := 0

def ipv4IsLoopback (addr : UInt32) : Bool := addr &&& htonl 0xff000000 == htonl 0x7f000000

def ipv6AddrAny (a : Address) : Bool := a[0] ||| a[1] ||| a[2] ||| a[3] == 0

def ipv6AddrLoopback (a : Address) : Bool := a[0] ||| a[1] ||| a[2] ||| (a[3] ^^^ htonl 1) == 0

def ipv6AddrV4mapped (a : Address) : Bool := a[0] ||| a[1] ||| (a[2] ^^^ htonl 0x0000ffff) == 0

/-- `s6_addr32[i]`. -/
def Address.word (a : Address) : ℕ → UInt32
  | 0 => a[0]
  | 1 => a[1]
  | 2 => a[2]
  | _ => a[3]

/-- An IPv4 address as an ownership key. -/
def v4Address (addr : UInt32) : Address := #v[addr, 0, 0, 0]

/-! ### Local addresses -/

/-- 127.0.0.0/8 or 0.0.0.0: the first octet is the low byte of the word. -/
def V4Local (v4 : UInt32) : Prop := v4.toNat % 256 = 127 ∨ v4 = 0

def V6Local (v6 : Address) : Prop := v6 = #v[0, 0, 0, htonl 1] ∨ v6 = #v[0, 0, 0, 0]

instance : DecidablePred V4Local := fun _ => inferInstanceAs (Decidable (_ ∨ _))
instance : DecidablePred V6Local := fun _ => inferInstanceAs (Decidable (_ ∨ _))

theorem htonl_inaddrAny : htonl inaddrAny = 0 := by decide

theorem lowByte_eq_iff (v4 : UInt32) : v4 &&& 0xff = 127 ↔ v4.toNat % 256 = 127 := by
  rw [← UInt32.toNat_inj, UInt32.toNat_and]
  exact Eq.congr_left (Nat.and_two_pow_sub_one_eq_mod v4.toNat 8)

theorem v4Local_eq (v4 : UInt32) : (ipv4IsLoopback v4 || v4 == 0) = decide (V4Local v4) := by
  have hmask : htonl 0xff000000 = 0xff := by decide
  have hnet : htonl 0x7f000000 = 127 := by decide
  rw [Bool.eq_iff_iff, decide_eq_true_eq, ipv4IsLoopback, hmask, hnet]
  simp [V4Local, lowByte_eq_iff]

theorem v6Local_eq (v6 : Address) : (ipv6AddrLoopback v6 || ipv6AddrAny v6) = decide (V6Local v6) := by
  obtain ⟨⟨words⟩, hsize⟩ := v6
  match words, hsize with
  | [a, b, c, d], _ =>
    rw [Bool.eq_iff_iff, decide_eq_true_eq]
    simp [ipv6AddrLoopback, ipv6AddrAny, V6Local, UInt32.or_eq_zero_iff, and_assoc]

/-! ### Owners -/

structure OwnedPort where
  uid : UInt32
  port : UInt16
  protocol : UInt8
  family : UInt8
  address : Address
  deriving DecidableEq, Repr

def rol32 (x : UInt32) (k : UInt32) : UInt32 := (x <<< k) ||| (x >>> (32 - k))

def hashWord (value word : UInt32) : UInt32 := rol32 (value ^^^ (word * 0x165667b1)) 13

def ownedPortHash (owner : OwnedPort) : UInt32 :=
  let value := owner.uid * 0x9e3779b1
  let value := value ^^^ (owner.port.toUInt32 * 0x85ebca6b)
  let value := value ^^^ (owner.protocol.toUInt32 * 0xc2b2ae35)
  let value := value ^^^ (owner.family.toUInt32 * 0x27d4eb2f)
  let value := owner.address.toList.foldl hashWord value
  value ^^^ (value >>> 16)

def ownedPortEqual (left right : OwnedPort) : Bool := left == right

def ownedPortIsLocal (owner : OwnedPort) : Bool :=
  if owner.family = afInet then
    owner.address[1] == 0 && owner.address[2] == 0 && owner.address[3] == 0 &&
      (owner.address[0] == htonl inaddrAny || ipv4IsLoopback owner.address[0])
  else if owner.family = afInet6 then ipv6AddrAny owner.address || ipv6AddrLoopback owner.address
  else false

/-! ### Recent binds -/

structure PendingPort where
  sequence : UInt32
  owner : OwnedPort
  expires : UInt64
  deriving DecidableEq, Repr

def pendingPortSets : ℕ := 256
def pendingPortWays : ℕ := 4

abbrev PendingPorts := Vector (Vector PendingPort pendingPortWays) pendingPortSets

def OwnedPort.zero : OwnedPort := ⟨0, 0, 0, 0, Vector.replicate 4 0⟩

/-- `memset(pending_ports, 0, sizeof(pending_ports))`. -/
def pendingPortsZero : PendingPorts :=
  Vector.replicate pendingPortSets (Vector.replicate pendingPortWays ⟨0, OwnedPort.zero, 0⟩)

def timeBefore (a b : UInt64) : Bool := (a - b).toInt64 < 0

def timeAfterEq (a b : UInt64) : Bool := (a - b).toInt64 ≥ 0

/-- `pending_port_lookup_one`, with no writer active during the scan. -/
def pendingPortLookupOne (pending : PendingPorts) (jiffies : UInt64) (wanted : OwnedPort) : Bool :=
  let set := (ownedPortHash wanted &&& (UInt32.ofNat pendingPortSets - 1)).toNat
  match pending[set]? with
  | none => false
  | some ways => ways.toList.any fun entry =>
      entry.sequence &&& 1 == 0 && ownedPortEqual entry.owner wanted && timeBefore jiffies entry.expires

/-! ### Ports reported by the daemon -/

/-- `struct vpnhide_owned_ports_snapshot`; the bucket count is the length of `buckets`. -/
structure OwnedPortsSnapshot where
  entryCount : UInt32
  expires : UInt64
  buckets : List OwnedPort

/-- The probe loop of `owned_snapshot_contains`, `probes` steps from its end. -/
def probeBuckets (buckets : List OwnedPort) (wanted : OwnedPort) : ℕ → UInt32 → Bool
  | 0, _ => false
  | probes + 1, slot =>
    match buckets[slot.toNat]? with
    | none => false
    | some entry =>
      if entry.uid = 0 then false
      else if ownedPortEqual entry wanted then true
      else probeBuckets buckets wanted probes ((slot + 1) &&& (UInt32.ofNat buckets.length - 1))

def ownedSnapshotContains (snapshot : OwnedPortsSnapshot) (wanted : OwnedPort) : Bool :=
  probeBuckets snapshot.buckets wanted snapshot.buckets.length
    (ownedPortHash wanted &&& (UInt32.ofNat snapshot.buckets.length - 1))

structure PortOwnership where
  owned : Option OwnedPortsSnapshot
  pending : PendingPorts
  jiffies : UInt64

def vpnhideUidOwnsPort (st : PortOwnership) (uid : UInt32) (port : UInt16) (protocol family : UInt8)
    (address : Address) : Bool :=
  let wanted : OwnedPort := ⟨uid, port, protocol, family, address⟩
  if !ownedPortIsLocal wanted then false
  else
    let wildcard := { wanted with address := Vector.replicate 4 0 }
    let found := match st.owned with
      | none => false
      | some snapshot =>
        if snapshot.buckets.length = 0 ∨ timeAfterEq st.jiffies snapshot.expires then false
        else ownedSnapshotContains snapshot wanted ||
          (wanted.address ≠ wildcard.address && ownedSnapshotContains snapshot wildcard)
    found || pendingPortLookupOne st.pending st.jiffies wanted ||
      (wanted.address ≠ wildcard.address && pendingPortLookupOne st.pending st.jiffies wildcard)

end VpnHide
