import VpnHide.BpfStats
import VpnHide.UdpRates
import VpnHide.Lib.Exec
import VpnHide.Lib.SavedCell

/-!
# Throttled UDP sends (`udp_sendmsg_entry`, `udpv6_sendmsg_ll_entry` and their return handlers)

To make a non-blocking send fail as if the queue were full, the entry handler saves `sk_sndbuf`, asks the rate limiter
and sets the size to zero, and the return handler puts back what was saved. No lock keeps two threads from doing this on
one socket at a time, so a send can save the zero of another one. Whatever they do, the buffer has its own size or none;
once no send is under way it has its own size exactly if no step has taken the last copy of it
(`udpSndbuf_restored_iff`). Sends that are nested, as those of one thread, do no harm (`udpSndbuf_oneThread`).
-/

namespace VpnHide

/-! ### The handlers -/

/-- What the hooks read of `struct sock`. -/
structure UdpSock where
  family : UInt8
  /-- `inet_daddr` -/
  daddr : UInt32
  v6Daddr : Address
  /-- the cached route, with the index of its device -/
  dst : Option (Option UInt32)

structure SockaddrIn6 where
  family : UInt16
  addr : Vector UInt8 16
  scopeId : UInt32

/-- `msg_name` with its length, and what `copy_from_kernel_nofault` reads there. -/
structure MsgName where
  namelen : Int
  sin6 : Option SockaddrIn6

structure UdpMsg where
  name : Option MsgName
  /-- `msg_flags & MSG_DONTWAIT` -/
  dontWait : Bool

def vpnhideUdpDstIsVpnBound (vpns : Option (List UInt32)) (sk : UdpSock) (msg : UdpMsg) : Bool :=
  if msg.name.isSome then false
  else if (if sk.family = afInet6 then ipv6AddrLoopback sk.v6Daddr else ipv4IsLoopback sk.daddr) then false
  else match sk.dst with
    | none => false
    | some dev => dev.any (isActiveVpnIfindex vpns)

/-- What the handlers read and write beside the socket's route. -/
structure SendState where
  policy : Option PolicySnapshot
  vpns : Option (List UInt32)
  rates : List UdpUidRate
  /-- `sk->sk_sndbuf` -/
  sndbuf : Int

structure SendCall where
  uid : UInt32
  sk : Option UdpSock
  msg : Option UdpMsg

/-- `struct udp_sendmsg_data`, `struct udpv6_sendmsg_ll_data`. -/
structure SendData where
  origSndbuf : Int
  spoofed : Bool
  shouldDeny : Bool

/-- How far the entry handler of a send is: it has saved the size, it is about to set it to zero, or it is done. -/
inductive SendPhase
  | saved (uid : UInt32) (sk : UdpSock) (msg : UdpMsg)
  | exceeded
  | sending

def SendPhase.inEntry : SendPhase → Bool
  | .sending => false
  | _ => true

/-- Both entry handlers up to the saved size. Where they end before it, the return handler does not run. -/
def sendEntry (hook : HookIdx) (st : SendState) (call : SendCall) : Option (SendPhase × SendData) :=
  if !isHookActive st.policy hook call.uid then none
  else if !isTargetUidVal st.policy call.uid then none
  else match call.sk, call.msg with
    | some sk, some msg => some (.saved call.uid sk msg, ⟨st.sndbuf, false, false⟩)
    | _, _ => none

def udpSendmsgEntry : SendState → SendCall → Option (SendPhase × SendData) := sendEntry .udpSendmsg

/-- The rest of `udp_sendmsg_entry` up to the zero. The rate limiter has a lock of its own. -/
def udpSendmsgThrottle (st : SendState) (call : UdpCall) (sk : UdpSock) (msg : UdpMsg) (data : SendData) :
    SendPhase × SendData × SendState :=
  if msg.dontWait && vpnhideUdpDstIsVpnBound st.vpns sk msg then
    let (rates, exceeded) := udpRateLimitExceeded st.rates call
    (if exceeded then .exceeded else .sending, data, { st with rates })
  else (.sending, data, st)

def udpSendmsgRet (data : SendData) (st : SendState) : SendState :=
  if data.spoofed then { st with sndbuf := data.origSndbuf } else st

/-- `sizeof(struct sockaddr_in6)`. -/
def sizeofSockaddrIn6 : Int := 28

/-- A name that is a link-local address with the scope of a VPN. -/
def sendsToVpnLinklocal (vpns : Option (List UInt32)) (msg : UdpMsg) : Bool :=
  match msg.name with
  | none => false
  | some name =>
    if name.namelen ≥ sizeofSockaddrIn6 then
      match name.sin6 with
      | none => false
      | some sin6 =>
        sin6.family = afInet6.toUInt16 && sin6.addr.toList.getD 0 0 = 0xfe &&
          sin6.addr.toList.getD 1 0 &&& 0xc0 = 0x80 && sin6.scopeId ≠ 0 && isActiveVpnIfindex vpns sin6.scopeId
    else false

def udpv6SendmsgLlEntry : SendState → SendCall → Option (SendPhase × SendData) := sendEntry .udpv6Sendmsg

def udpv6SendmsgLlThrottle (st : SendState) (call : UdpCall) (sk : UdpSock) (msg : UdpMsg) (data : SendData) :
    SendPhase × SendData × SendState :=
  if sendsToVpnLinklocal st.vpns msg then (.sending, { data with shouldDeny := true }, st)
  else udpSendmsgThrottle st call sk msg data

def enobufs : Int := 105

/-- With what the caller gets for the send's own return value. -/
def udpv6SendmsgLlRet (data : SendData) (ret : Int) (st : SendState) : SendState × Int :=
  let st := if data.spoofed then { st with sndbuf := data.origSndbuf } else st
  if !data.shouldDeny then (st, ret) else (st, -enobufs)

/-! ### Sends at the same time -/

/-- The probed function; `udpv6_sendmsg` calls `udp_sendmsg` for an IPv4-mapped destination. -/
inductive SendProbe
  | udpSendmsg
  | udpv6SendmsgLl

def SendProbe.entry (st : SendState) (call : SendCall) : SendProbe → Option (SendPhase × SendData)
  | .udpSendmsg => udpSendmsgEntry st call
  | .udpv6SendmsgLl => udpv6SendmsgLlEntry st call

def SendProbe.throttle (st : SendState) (call : UdpCall) (sk : UdpSock) (msg : UdpMsg) (data : SendData) :
    SendProbe → SendPhase × SendData × SendState
  | .udpSendmsg => udpSendmsgThrottle st call sk msg data
  | .udpv6SendmsgLl => udpv6SendmsgLlThrottle st call sk msg data

def SendProbe.ret (data : SendData) (ret : Int) (st : SendState) : SendProbe → SendState
  | .udpSendmsg => udpSendmsgRet data st
  | .udpv6SendmsgLl => (udpv6SendmsgLlRet data ret st).1

structure ActiveSend (ι : Type) where
  thread : ι
  probe : SendProbe
  phase : SendPhase
  data : SendData

namespace ActiveSend
variable {ι : Type}

def throttle (send : ActiveSend ι) (st : SendState) (now : UInt64) (kmalloc : Bool) :
    Option (ActiveSend ι × SendState) :=
  match send.phase with
  | .saved uid sk msg =>
    let (phase, data, st) := send.probe.throttle st ⟨uid, now, kmalloc⟩ sk msg send.data
    some ({ send with phase, data }, st)
  | _ => none

def zero (send : ActiveSend ι) (st : SendState) : Option (ActiveSend ι × SendState) :=
  match send.phase with
  | .exceeded => some ({ send with phase := .sending, data.spoofed := true }, { st with sndbuf := 0 })
  | _ => none

end ActiveSend

/-- One socket, with the sends under way on it. Those of one thread stand in their order, the newest first. -/
structure SendMachine (ι : Type) where
  st : SendState
  active : List (ActiveSend ι)

inductive SendAct (ι : Type)
  | enter (w : ι) (probe : SendProbe) (call : SendCall)
  | throttle (w : ι) (now : UInt64) (kmalloc : Bool)
  | zero (w : ι)
  | ret (w : ι) (ret : Int)
  /-- policy, interfaces and rates change as they like -/
  | change (policy : Option PolicySnapshot) (vpns : Option (List UInt32)) (rates : List UdpUidRate)

namespace SendMachine
variable {ι : Type}

/-- The socket with no send under way. -/
def initial (st : SendState) : SendMachine ι := ⟨st, []⟩

variable [DecidableEq ι]

def newest (m : SendMachine ι) (w : ι) : Option (ActiveSend ι) := m.active.find? fun send => send.thread = w

/-- All sends but the newest one of a thread. -/
def others (m : SendMachine ι) (w : ι) : List (ActiveSend ι) := m.active.eraseP fun send => send.thread = w

/-- The newest send of a thread goes on. While its entry handler runs, the thread does not send. -/
def step (m : SendMachine ι) : SendAct ι → Option (SendMachine ι)
  | .enter w probe call =>
    if (m.newest w).any fun send => send.phase.inEntry then none
    else match probe.entry m.st call with
      | none => some m
      | some (phase, data) => some { m with active := ⟨w, probe, phase, data⟩ :: m.active }
  | .throttle w now kmalloc =>
    (m.newest w).bind fun send => (send.throttle m.st now kmalloc).map fun (send, st) => ⟨st, send :: m.others w⟩
  | .zero w => (m.newest w).bind fun send => (send.zero m.st).map fun (send, st) => ⟨st, send :: m.others w⟩
  | .ret w ret =>
    (m.newest w).bind fun send =>
      if send.phase.inEntry then none else some ⟨send.probe.ret send.data ret m.st, m.others w⟩
  | .change policy vpns rates => some { m with st := { m.st with policy, vpns, rates } }

end SendMachine

/-! ### What a step does to the size -/

/-- What a send may still put back: one that was not throttled puts back nothing. -/
def ActiveSend.saved {ι : Type} (send : ActiveSend ι) : Option Int :=
  if send.phase.inEntry || send.data.spoofed then some send.data.origSndbuf else none

def SendMachine.cell {ι : Type} (m : SendMachine ι) : SavedCell Int :=
  ⟨m.st.sndbuf, m.active.filterMap ActiveSend.saved⟩

/-- A step takes the last copy of the size: a send that has saved a zero overwrites it, with a zero or by putting its
own back, or the only send that could put it back is let through. -/
def SendMachine.Loses {ι : Type} [DecidableEq ι] (m : SendMachine ι) : SendAct ι → Prop
  | .zero w => ∃ send, m.newest w = some send ∧
    m.st.sndbuf ≠ 0 ∧ send.data.origSndbuf = 0 ∧ ∀ v ∈ (m.others w).filterMap ActiveSend.saved, v = 0
  | .ret w _ => ∃ send, m.newest w = some send ∧ send.data.spoofed ∧
    m.st.sndbuf ≠ 0 ∧ send.data.origSndbuf = 0 ∧ ∀ v ∈ (m.others w).filterMap ActiveSend.saved, v = 0
  | .throttle w now kmalloc => ∃ send, m.newest w = some send ∧
    ((send.throttle m.st now kmalloc).any fun r => r.1.saved.isNone) ∧
    m.st.sndbuf = 0 ∧ send.data.origSndbuf ≠ 0 ∧ ∀ v ∈ (m.others w).filterMap ActiveSend.saved, v = 0
  | _ => False

theorem SendProbe.entry_eq_some {st : SendState} {call : SendCall} {probe : SendProbe} {phase : SendPhase}
    {data : SendData} (h : probe.entry st call = some (phase, data)) :
    phase.inEntry = true ∧ data = ⟨st.sndbuf, false, false⟩ := by
  have hentry : ∀ {hook : HookIdx}, sendEntry hook st call = some (phase, data) →
      phase.inEntry = true ∧ data = ⟨st.sndbuf, false, false⟩ := by
    intro hook h
    unfold sendEntry at h
    split_ifs at h
    split at h
    · cases h
      exact ⟨rfl, rfl⟩
    · cases h
  cases probe with
  | udpSendmsg => exact hentry h
  | udpv6SendmsgLl => exact hentry h

theorem SendProbe.throttle_spec (st : SendState) (call : UdpCall) (sk : UdpSock) (msg : UdpMsg) (data : SendData)
    (probe : SendProbe) :
    (probe.throttle st call sk msg data).2.1.origSndbuf = data.origSndbuf ∧
      (probe.throttle st call sk msg data).2.1.spoofed = data.spoofed ∧
      (probe.throttle st call sk msg data).2.2.sndbuf = st.sndbuf := by
  have hthrottle : (udpSendmsgThrottle st call sk msg data).2.1 = data ∧
      (udpSendmsgThrottle st call sk msg data).2.2.sndbuf = st.sndbuf := by
    unfold udpSendmsgThrottle
    split_ifs <;> exact ⟨rfl, rfl⟩
  cases probe with
  | udpSendmsg => exact ⟨congrArg SendData.origSndbuf hthrottle.1, congrArg SendData.spoofed hthrottle.1, hthrottle.2⟩
  | udpv6SendmsgLl =>
    unfold SendProbe.throttle udpv6SendmsgLlThrottle
    dsimp only
    split_ifs
    · exact ⟨rfl, rfl, rfl⟩
    · exact ⟨congrArg SendData.origSndbuf hthrottle.1, congrArg SendData.spoofed hthrottle.1, hthrottle.2⟩

theorem SendProbe.sndbuf_ret (data : SendData) (ret : Int) (st : SendState) (probe : SendProbe) :
    (probe.ret data ret st).sndbuf = if data.spoofed then data.origSndbuf else st.sndbuf := by
  cases probe with
  | udpSendmsg =>
    unfold SendProbe.ret udpSendmsgRet
    dsimp only
    split_ifs <;> rfl
  | udpv6SendmsgLl =>
    unfold SendProbe.ret udpv6SendmsgLlRet
    dsimp only
    split_ifs <;> rfl

namespace ActiveSend
variable {ι : Type} {send send' : ActiveSend ι} {st st' : SendState} {now : UInt64} {kmalloc : Bool}

theorem saved_of_inEntry (h : send.phase.inEntry = true) : send.saved = some send.data.origSndbuf := by
  rw [saved, h]
  rfl

theorem saved_of_sending (h : send.phase.inEntry = false) :
    send.saved = if send.data.spoofed then some send.data.origSndbuf else none := by
  rw [saved, h, Bool.false_or]

theorem eq_of_saved {v : Int} (h : send.saved = some v) : v = send.data.origSndbuf := by
  rw [saved] at h
  split_ifs at h
  exact (Option.some.inj h).symm

theorem throttle_eq_some (h : send.throttle st now kmalloc = some (send', st')) :
    send.phase.inEntry = true ∧ send'.data.origSndbuf = send.data.origSndbuf ∧
      send'.data.spoofed = send.data.spoofed ∧ st'.sndbuf = st.sndbuf := by
  unfold throttle at h
  split at h
  case h_1 uid sk msg hphase =>
    cases h
    rw [hphase]
    exact ⟨rfl, send.probe.throttle_spec st ⟨uid, now, kmalloc⟩ sk msg send.data⟩
  case h_2 => cases h

theorem zero_eq_some (h : send.zero st = some (send', st')) :
    send.phase.inEntry = true ∧ send'.phase.inEntry = false ∧ send'.saved = some send.data.origSndbuf ∧
      st'.sndbuf = 0 := by
  unfold zero at h
  split at h
  case h_1 hphase =>
    cases h
    rw [hphase]
    exact ⟨rfl, rfl, rfl, rfl⟩
  case h_2 => cases h

end ActiveSend

namespace SendMachine
variable {ι : Type} {m m' : SendMachine ι} {send : ActiveSend ι} {rest : List (ActiveSend ι)}

theorem cell_of_active (hactive : m.active = rest) : m.cell = ⟨m.st.sndbuf, rest.filterMap ActiveSend.saved⟩ := by
  rw [cell, hactive]

theorem cell_eq (hactive : m'.active = m.active) (hsize : m'.st.sndbuf = m.st.sndbuf) : m'.cell = m.cell := by
  rw [cell_of_active hactive, hsize]
  rfl

theorem cell_cons_some {v : Int} (hactive : m.active = send :: rest) (h : send.saved = some v) :
    m.cell = ⟨m.st.sndbuf, v :: rest.filterMap ActiveSend.saved⟩ := by
  rw [cell_of_active hactive, List.filterMap_cons_some h]

theorem cell_cons_none (hactive : m.active = send :: rest) (h : send.saved = none) :
    m.cell = ⟨m.st.sndbuf, rest.filterMap ActiveSend.saved⟩ := by
  rw [cell_of_active hactive, List.filterMap_cons_none h]

theorem cell_enter (hentry : send.phase.inEntry = true) (hdata : send.data = ⟨m.st.sndbuf, false, false⟩)
    (hactive : m'.active = send :: m.active) (hsize : m'.st.sndbuf = m.st.sndbuf) : m'.cell = m.cell.save := by
  rw [cell_cons_some hactive (ActiveSend.saved_of_inEntry hentry), hsize, hdata]
  rfl

end SendMachine

theorem find?_eraseP {α : Type} {p : α → Bool} {l : List α} {a : α} (h : l.find? p = some a) :
    ∃ l₁ l₂, l = l₁ ++ a :: l₂ ∧ l.eraseP p = l₁ ++ l₂ ∧ p a ∧ ∀ b ∈ l₁, ¬ p b := by
  obtain ⟨ha, l₁, l₂, rfl, hl₁⟩ := List.find?_eq_some_iff_append.1 h
  have hnot : ∀ b ∈ l₁, ¬ p b := fun b hb => by simpa using hl₁ b hb
  refine ⟨l₁, l₂, rfl, ?_, ha, hnot⟩
  rw [List.eraseP_append_right _ hnot, List.eraseP_cons_of_pos ha]

section Steps
variable {ι : Type} [DecidableEq ι] {m m' : SendMachine ι} {a : SendAct ι} {w : ι} {send : ActiveSend ι}

namespace SendMachine

theorem perm_newest (h : m.newest w = some send) : m.active.Perm (send :: m.others w) := by
  obtain ⟨l₁, l₂, hactive, herase, -⟩ := find?_eraseP h
  rw [others, herase, hactive]
  exact List.perm_middle

theorem saved_perm_newest (h : m.newest w = some send) {v : Int} (hv : send.saved = some v) :
    m.cell.saved.Perm (v :: (m.others w).filterMap ActiveSend.saved) := by
  have hperm := (perm_newest h).filterMap ActiveSend.saved
  rwa [List.filterMap_cons_some hv] at hperm

/-- What a step does to the sends under way and to the size, and when it takes the last copy. -/
inductive Moves (m : SendMachine ι) (a : SendAct ι) (m' : SendMachine ι) : Prop
  | stays (hactive : m'.active = m.active) (hsize : m'.st.sndbuf = m.st.sndbuf) (hloses : ¬ m.Loses a)
  | enters {send : ActiveSend ι} (hfree : ¬ (m.newest send.thread).any fun other => other.phase.inEntry)
    (hentry : send.phase.inEntry = true) (hdata : send.data = ⟨m.st.sndbuf, false, false⟩)
    (hactive : m'.active = send :: m.active) (hsize : m'.st.sndbuf = m.st.sndbuf) (hloses : ¬ m.Loses a)
  | throttles {w : ι} {send send' : ActiveSend ι} (hsend : m.newest w = some send)
    (hentry : send.phase.inEntry = true) (horig : send'.data.origSndbuf = send.data.origSndbuf)
    (hspoofed : send'.data.spoofed = send.data.spoofed) (hactive : m'.active = send' :: m.others w)
    (hsize : m'.st.sndbuf = m.st.sndbuf)
    (hloses : m.Loses a ↔ send'.saved = none ∧ m.st.sndbuf = 0 ∧ send.data.origSndbuf ≠ 0 ∧
      ∀ v ∈ (m.others w).filterMap ActiveSend.saved, v = 0)
  | zeroes {w : ι} {send send' : ActiveSend ι} (hsend : m.newest w = some send) (hentry : send.phase.inEntry = true)
    (hentry' : send'.phase.inEntry = false) (hsaved : send'.saved = some send.data.origSndbuf)
    (hactive : m'.active = send' :: m.others w) (hsize : m'.st.sndbuf = 0)
    (hloses : m.Loses a ↔ m.st.sndbuf ≠ 0 ∧ send.data.origSndbuf = 0 ∧
      ∀ v ∈ (m.others w).filterMap ActiveSend.saved, v = 0)
  | returns {w : ι} {send : ActiveSend ι} (hsend : m.newest w = some send) (hentry : send.phase.inEntry = false)
    (hactive : m'.active = m.others w)
    (hsize : m'.st.sndbuf = if send.data.spoofed then send.data.origSndbuf else m.st.sndbuf)
    (hloses : m.Loses a ↔ send.data.spoofed ∧ m.st.sndbuf ≠ 0 ∧ send.data.origSndbuf = 0 ∧
      ∀ v ∈ (m.others w).filterMap ActiveSend.saved, v = 0)

theorem step_moves (h : m.step a = some m') : m.Moves a m' := by
  cases a with
  | enter w probe call =>
    rw [step] at h
    split_ifs at h with hfree
    split at h
    case h_1 =>
      cases h
      exact .stays rfl rfl id
    case h_2 phase data hentry =>
      cases h
      obtain ⟨hphase, rfl⟩ := SendProbe.entry_eq_some hentry
      exact .enters hfree hphase rfl rfl rfl id
  | throttle w now kmalloc =>
    obtain ⟨send, hsend, h⟩ := Option.bind_eq_some_iff.1 h
    obtain ⟨⟨send', st'⟩, hthrottle, rfl⟩ := Option.map_eq_some_iff.1 h
    obtain ⟨hentry, horig, hspoofed, hsize⟩ := ActiveSend.throttle_eq_some hthrottle
    exact .throttles hsend hentry horig hspoofed rfl hsize (by simp [Loses, hsend, hthrottle])
  | zero w =>
    obtain ⟨send, hsend, h⟩ := Option.bind_eq_some_iff.1 h
    obtain ⟨⟨send', st'⟩, hzero, rfl⟩ := Option.map_eq_some_iff.1 h
    obtain ⟨hentry, hentry', hsaved, hsize⟩ := ActiveSend.zero_eq_some hzero
    exact .zeroes hsend hentry hentry' hsaved rfl hsize (by simp [Loses, hsend])
  | ret w ret =>
    obtain ⟨send, hsend, h⟩ := Option.bind_eq_some_iff.1 h
    split_ifs at h with hentry
    cases h
    exact .returns hsend (Bool.not_eq_true _ ▸ hentry) rfl (send.probe.sndbuf_ret ..) (by simp [Loses, hsend])
  | change policy vpns rates =>
    cases h
    exact .stays rfl rfl id

/-- The steps of the machine are those of the users of a cell. -/
theorem step_use (h : m.step a = some m') : ∃ lost, SavedCell.Use 0 m.cell m'.cell lost ∧ (m.Loses a ↔ lost) := by
  cases step_moves h with
  | stays hactive hsize hloses =>
    refine ⟨_, ?_, iff_of_false hloses id⟩
    rw [cell_eq hactive hsize]
    exact .keep (.refl _)
  | enters _ hentry hdata hactive hsize hloses =>
    refine ⟨_, ?_, iff_of_false hloses id⟩
    rw [cell_enter hentry hdata hactive hsize]
    exact .save
  | @throttles w send send' hsend hentry horig hspoofed hactive hsize hloses =>
    have hperm := saved_perm_newest hsend (ActiveSend.saved_of_inEntry hentry)
    cases hsaved : send'.saved with
    | none =>
      rw [cell_cons_none hactive hsaved, hsize]
      refine ⟨_, .forget hperm, hloses.trans ?_⟩
      exact and_iff_right hsaved
    | some v =>
      have hv : v = send.data.origSndbuf := (ActiveSend.eq_of_saved hsaved).trans horig
      rw [cell_cons_some hactive hsaved, hsize, hv]
      refine ⟨_, .keep hperm, hloses.trans ?_⟩
      exact iff_of_false (fun h => Option.some_ne_none v (hsaved.symm.trans h.1)) id
  | zeroes hsend hentry _ hsaved hactive hsize hloses =>
    rw [cell_cons_some hactive hsaved, hsize]
    exact ⟨_, .overwrite (saved_perm_newest hsend (ActiveSend.saved_of_inEntry hentry)), hloses⟩
  | returns hsend hentry hactive hsize hloses =>
    have hsaved := ActiveSend.saved_of_sending hentry
    rw [cell_of_active hactive, hsize]
    split_ifs at hsaved ⊢ with hspoofed
    · exact ⟨_, .putBack (saved_perm_newest hsend hsaved), hloses.trans (and_iff_right hspoofed)⟩
    · have hperm := (perm_newest hsend).filterMap ActiveSend.saved
      rw [List.filterMap_cons_none hsaved] at hperm
      exact ⟨_, .keep hperm, iff_of_false (fun h => hspoofed (hloses.1 h).1) id⟩

end SendMachine

/-! ### Runs -/

variable {st : SendState} {acts : List (SendAct ι)}

/-- The size is somewhere as long as no step has taken the last copy of it. -/
theorem SendMachine.holds_run (hsize : st.sndbuf ≠ 0) :
    ∀ acts m, execs step (initial st : SendMachine ι) acts = some m →
      m.cell.Within st.sndbuf 0 ∧
        (m.cell.Holds st.sndbuf ↔ ∀ m' a rest, Visits step (initial st) acts m' (a :: rest) → ¬ m'.Loses a) := by
  refine execs_induction ⟨?_, ?_⟩ ?_
  · intro v hv
    exact .inl (List.mem_singleton.1 hv)
  · exact iff_of_true (List.mem_cons_self ..) fun m' a rest hvisits => absurd hvisits not_visits_nil
  intro acts m a m' hrun ih hstep
  obtain ⟨hwithin, hholds⟩ := ih
  obtain ⟨lost, huse, hloses⟩ := step_use hstep
  refine ⟨huse.within hwithin, ?_⟩
  rw [forall_visits_concat hrun, ← hholds, huse.holds_iff hsize hwithin, hloses]

/-- Whatever sends overlap on a socket, its buffer has its own size or none. With no send under way it has its own size
exactly if no step has taken the last copy of it. After such a step it has none, for good. -/
theorem udpSndbuf_restored_iff (hsize : st.sndbuf ≠ 0)
    (h : execs SendMachine.step (.initial st : SendMachine ι) acts = some m) :
    (m.st.sndbuf = st.sndbuf ∨ m.st.sndbuf = 0) ∧
      (m.active = [] → (m.st.sndbuf = st.sndbuf ↔
        ∀ m' a rest, Visits SendMachine.step (.initial st) acts m' (a :: rest) → ¬ m'.Loses a)) ∧
      ((∃ m' a rest, Visits SendMachine.step (.initial st) acts m' (a :: rest) ∧ m'.Loses a) → m.st.sndbuf = 0) := by
  obtain ⟨hwithin, hholds⟩ := SendMachine.holds_run hsize acts m h
  refine ⟨hwithin.cell_eq, fun hidle => ?_, ?_⟩
  · rw [← hholds]
    unfold SavedCell.Holds SendMachine.cell
    rw [hidle]
    exact eq_comm.trans List.mem_singleton.symm
  · rintro ⟨m', a, rest, hvisits, hloses⟩
    exact hwithin.cell_eq_fixed fun hheld => hholds.1 hheld m' a rest hvisits hloses

/-- A socket that sends through a VPN, of an app that has used up its tokens. -/
def floodedState : SendState where
  policy := some (oneTargetPolicy .udpSendmsg 10123)
  vpns := some [7]
  rates := [⟨10123, 1000, 0⟩]
  sndbuf := 212992

def floodingCall : SendCall where
  uid := 10123
  sk := some ⟨afInet, htonl 0x08080808, Vector.replicate 4 0, some (some 7)⟩
  msg := some ⟨none, true⟩

/-- One send behind the zero of the other, and the first to come is the first to return. -/
def sendsInTurn : List (SendAct Bool) :=
  [.enter true .udpSendmsg floodingCall, .throttle true 1000 true, .zero true,
    .enter false .udpSendmsg floodingCall, .throttle false 1000 true, .zero false, .ret true (-11), .ret false (-11)]

/-- Both sends save the size before either sets it to zero. -/
def sendsAtOnce : List (SendAct Bool) :=
  [.enter true .udpSendmsg floodingCall, .enter false .udpSendmsg floodingCall, .throttle true 1000 true,
    .throttle false 1000 true, .zero true, .zero false, .ret true (-11), .ret false (-11)]

theorem udpSndbuf_restored_iff_overlap :
    (∃ m, execs SendMachine.step (.initial floodedState) sendsInTurn = some m ∧ m.active = [] ∧ m.st.sndbuf = 0 ∧
      ¬ ∀ m' a rest, Visits SendMachine.step (.initial floodedState) sendsInTurn m' (a :: rest) → ¬ m'.Loses a) ∧
    ∃ m, execs SendMachine.step (.initial floodedState) sendsAtOnce = some m ∧ m.active = [] ∧ m.st.sndbuf = 212992 ∧
      ∀ m' a rest, Visits SendMachine.step (.initial floodedState) sendsAtOnce m' (a :: rest) → ¬ m'.Loses a := by
  have hturn : (execs SendMachine.step (.initial floodedState) sendsInTurn).map
      (fun m => (m.active.length, m.st.sndbuf)) = some (0, 0) := by decide +kernel
  have honce : (execs SendMachine.step (.initial floodedState) sendsAtOnce).map
      (fun m => (m.active.length, m.st.sndbuf)) = some (0, 212992) := by decide +kernel
  obtain ⟨m, hm, hend⟩ := Option.map_eq_some_iff.1 hturn
  obtain ⟨m₂, hm₂, hend₂⟩ := Option.map_eq_some_iff.1 honce
  have hidle : m.active = [] := List.length_eq_zero_iff.1 (congrArg Prod.fst hend)
  have hzero : m.st.sndbuf = 0 := congrArg Prod.snd hend
  have hidle₂ : m₂.active = [] := List.length_eq_zero_iff.1 (congrArg Prod.fst hend₂)
  have hfull : m₂.st.sndbuf = 212992 := congrArg Prod.snd hend₂
  refine ⟨⟨m, hm, hidle, hzero, fun hnone => ?_⟩, m₂, hm₂, hidle₂, hfull, ?_⟩
  · have hrestored := ((udpSndbuf_restored_iff (by decide) hm).2.1 hidle).2 hnone
    rw [hzero] at hrestored
    exact absurd hrestored (by decide)
  · exact ((udpSndbuf_restored_iff (by decide) hm₂).2.1 hidle₂).1 hfull

/-! ### One thread -/

namespace SendMachine

/-- All sends under way are of one thread. -/
def OneThread (m : SendMachine ι) : Prop := ∀ s ∈ m.active, ∀ t ∈ m.active, s.thread = t.thread

theorem OneThread.active_eq (h : m.OneThread) (hsend : m.newest w = some send) : m.active = send :: m.others w := by
  obtain ⟨l₁, l₂, hactive, herase, hthread, hothers⟩ := find?_eraseP hsend
  have hnil : l₁ = [] := by
    refine List.eq_nil_iff_forall_not_mem.2 fun other hother => hothers other hother ?_
    have hsame := h other (by simp [hactive, hother]) send (by simp [hactive])
    simpa [hsame] using hthread
  rw [others, herase, hactive, hnil]
  rfl

/-- The sends of one thread are nested: at most the newest is in its entry handler. -/
inductive Stacked (first : Int) (m : SendMachine ι) : Prop
  | resting (hall : ∀ send ∈ m.active, send.phase.inEntry = false) (hcell : m.cell.Nested first 0)
  | entering {send : ActiveSend ι} {rest : List (ActiveSend ι)} (hactive : m.active = send :: rest)
    (hentry : send.phase.inEntry = true) (hplain : send.data.spoofed = false)
    (hall : ∀ send ∈ rest, send.phase.inEntry = false) (hcell : m.cell.Entered first 0)

variable {first : Int}

theorem Stacked.of_inEntry (h : m.Stacked first) (hactive : m.active = send :: m.others w)
    (hentry : send.phase.inEntry = true) :
    send.data.spoofed = false ∧ (∀ send ∈ m.others w, send.phase.inEntry = false) ∧ m.cell.Entered first 0 := by
  cases h with
  | resting hall =>
    have := hall send (hactive ▸ List.mem_cons_self ..)
    exact absurd (hentry.symm.trans this) (by decide)
  | entering hactive' _ hplain hall hcell =>
    rw [hactive, List.cons.injEq] at hactive'
    obtain ⟨rfl, hrest⟩ := hactive'
    exact ⟨hplain, hrest ▸ hall, hcell⟩

theorem Stacked.of_sending (h : m.Stacked first) (hactive : m.active = send :: m.others w)
    (hentry : ¬ send.phase.inEntry = true) :
    (∀ send ∈ m.others w, send.phase.inEntry = false) ∧ m.cell.Nested first 0 := by
  cases h with
  | resting hall hcell => exact ⟨fun other hother => hall other (hactive ▸ List.mem_cons_of_mem _ hother), hcell⟩
  | entering hactive' hentry' =>
    rw [hactive, List.cons.injEq] at hactive'
    exact absurd (hactive'.1 ▸ hentry') hentry

omit [DecidableEq ι] in
theorem Stacked.of_eq (h : m.Stacked first) (hactive : m'.active = m.active) (hsize : m'.st.sndbuf = m.st.sndbuf) :
    m'.Stacked first := by
  have hcell := cell_eq hactive hsize
  cases h with
  | resting hall hnested => exact .resting (hactive ▸ hall) (hcell ▸ hnested)
  | entering hactive' hentry hplain hall hentered =>
    exact .entering (hactive.trans hactive') hentry hplain hall (hcell ▸ hentered)

theorem Stacked.step (h : m.Stacked first) (hone : m.OneThread) (hone' : m'.OneThread) (hstep : m.step a = some m') :
    m'.Stacked first := by
  cases step_moves hstep with
  | stays hactive hsize => exact h.of_eq hactive hsize
  | @enters send hfree hentry hdata hactive hsize =>
    cases h with
    | resting hall hcell =>
      refine .entering hactive hentry (congrArg SendData.spoofed hdata) hall ?_
      rw [cell_enter hentry hdata hactive hsize]
      exact hcell.save
    | @entering other rest hactive' hentry' =>
      -- the thread's own newest send is still in its entry handler
      have hthread : other.thread = send.thread := hone' other (by simp [hactive, hactive']) send (by simp [hactive])
      exact absurd (by simp [newest, hactive', hthread, hentry']) hfree
  | @throttles w send send' hsend hentry horig hspoofed hactive hsize =>
    have hactive₀ := hone.active_eq hsend
    obtain ⟨hplain, hall, hcell⟩ := h.of_inEntry hactive₀ hentry
    have hcell₀ := cell_cons_some hactive₀ (ActiveSend.saved_of_inEntry hentry)
    by_cases hentry' : send'.phase.inEntry = true
    · refine .entering hactive hentry' (hspoofed.trans hplain) hall ?_
      rwa [cell_cons_some hactive (ActiveSend.saved_of_inEntry hentry'), hsize, horig, ← hcell₀]
    · rw [Bool.not_eq_true] at hentry'
      have hnone : send'.saved = none := by
        rw [ActiveSend.saved_of_sending hentry', hspoofed, hplain]
        rfl
      refine .resting (hactive ▸ List.forall_mem_cons.2 ⟨hentry', hall⟩) ?_
      rw [cell_cons_none hactive hnone, hsize]
      exact hcell.forget (congrArg SavedCell.saved hcell₀)
  | zeroes hsend hentry hentry' hsaved hactive hsize =>
    have hactive₀ := hone.active_eq hsend
    obtain ⟨-, hall, hcell⟩ := h.of_inEntry hactive₀ hentry
    refine .resting (hactive ▸ List.forall_mem_cons.2 ⟨hentry', hall⟩) ?_
    have hover := hcell.overwrite
    rw [cell_cons_some hactive₀ (ActiveSend.saved_of_inEntry hentry)] at hover
    rwa [cell_cons_some hactive hsaved, hsize]
  | returns hsend hentry hactive hsize =>
    have hactive₀ := hone.active_eq hsend
    obtain ⟨hall, hcell⟩ := h.of_sending hactive₀ (by rw [hentry]; decide)
    refine .resting (hactive ▸ hall) ?_
    have hsaved := ActiveSend.saved_of_sending hentry
    rw [cell_of_active hactive, hsize]
    split_ifs at hsaved ⊢
    · exact hcell.putBack (congrArg SavedCell.saved (cell_cons_some hactive₀ hsaved))
    · rwa [cell_cons_none hactive₀ hsaved] at hcell

end SendMachine

/-- Sends that never overlap with those of another thread leave the size as it was. -/
theorem udpSndbuf_oneThread (h : execs SendMachine.step (.initial st : SendMachine ι) acts = some m)
    (hone : ∀ m' rest, Visits SendMachine.step (.initial st) acts m' rest → m'.OneThread) (hidle : m.active = []) :
    m.st.sndbuf = st.sndbuf := by
  have hstacked : ∀ acts m, execs SendMachine.step (.initial st : SendMachine ι) acts = some m →
      (∀ m' rest, Visits SendMachine.step (.initial st) acts m' rest → m'.OneThread) →
      m.Stacked st.sndbuf := by
    refine execs_induction (fun _ => .resting nofun ⟨0, rfl⟩) ?_
    intro acts m a m' hrun ih hstep hone
    have hbefore := ih fun m₁ rest hvisits => hone m₁ (rest ++ [a]) (hvisits.snoc a)
    exact hbefore.step (hone m [a] ((Visits.last hrun).snoc a))
      (hone m' [] (.last (execs_concat.2 ⟨m, hrun, hstep⟩))) hstep
  cases hstacked acts m h hone with
  | resting _ hcell =>
    refine hcell.cell_eq ?_
    rw [SendMachine.cell, hidle]
    rfl
  | entering hactive => cases hidle.symm.trans hactive

/-- `udpv6_sendmsg` that calls `udp_sendmsg`, both throttled. -/
theorem udpSndbuf_oneThread_nested :
    ∃ m : SendMachine Unit, execs SendMachine.step (.initial { floodedState with
          policy := some { oneTargetPolicy .udpSendmsg 10123 with activeHooksMask := 0xffffffff } })
        [.enter () .udpv6SendmsgLl floodingCall, .throttle () 1000 true, .zero (),
          .enter () .udpSendmsg floodingCall, .throttle () 1000 true, .zero (), .ret () (-11), .ret () (-11)] = some m ∧
      m.st.sndbuf = 212992 := by
  have hrun : (execs SendMachine.step (.initial { floodedState with
        policy := some { oneTargetPolicy .udpSendmsg 10123 with activeHooksMask := 0xffffffff } } : SendMachine Unit)
      [.enter () .udpv6SendmsgLl floodingCall, .throttle () 1000 true, .zero (),
        .enter () .udpSendmsg floodingCall, .throttle () 1000 true, .zero (), .ret () (-11), .ret () (-11)]).map
      (fun m => m.active.length) = some 0 := by decide +kernel
  obtain ⟨m, hm, hend⟩ := Option.map_eq_some_iff.1 hrun
  exact ⟨m, hm, udpSndbuf_oneThread hm (fun _ _ _ _ _ _ _ => rfl) (List.length_eq_zero_iff.1 hend)⟩

end Steps

end VpnHide
