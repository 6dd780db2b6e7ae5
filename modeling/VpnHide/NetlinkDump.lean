import VpnHide.BpfStats
import VpnHide.FibTrie
import VpnHide.Lib.Pages

/-!
# Netlink dumps (`kmod/hooks_netlink.c`, `kpatch/security/vpnhide/hook_netlink.c`)

The kernel fills one object after the other into the pages of a dump. The module lets it, and takes an object of a VPN
out of the page again; the patch returns before anything is put there. The functions that fill in an object and the
loops that call them are the kernel's, and the results below say what they assume of them (`Filler.Appends`,
`DumpLoop.Paged`). Then the caller sees the other objects either way, each once and in their order, and every hidden one
is counted once (`netlinkDump_exact`, `Kpatch.netlinkDump_patched`). With the patch even the pages are those of a
machine that has no VPN. With the module this is so for links and addresses (`netlinkDump_pages`), while a hidden route
for which there was no room still ends the page. Queueing disciplines are looked at after the call, and only if it
returned zero (`qdiscDump_exact`).
-/

namespace VpnHide

/-- The global state that the hooks read. -/
structure NetGlobals where
  policy : Option PolicySnapshot
  /-- the interface indices of `global_active_vpns` -/
  vpns : Option (List UInt32)
  /-- and the names -/
  names : Option ActiveVpns

/-- `struct inet6_ifaddr`, `struct in_ifaddr`: what the hooks read is the device of its `idev` or `ifa_dev`. -/
structure IfAddr where
  idev : Option (Option UInt32)

/-- `struct nh_info`. -/
structure NhInfo where
  dev : Option UInt32

/-- `struct nexthop`. -/
inductive Nexthop
  | single (info : Option NhInfo)
  /-- the entries of `nh_grp`, each with its `nh` and the `nh_info` of it -/
  | group (entries : Option (List (Option (Option NhInfo))))

structure FibInfo where
  nh : Option Nexthop
  /-- the devices of `fib_nh` -/
  fibNh : List (Option UInt32)

structure FibRule where
  iifname : Vector UInt8 16
  oifname : Vector UInt8 16
  uidStart : UInt32
  uidEnd : UInt32
  table : UInt32

/-! ### The module: entry handlers -/

section Entry
variable (g : NetGlobals) (uid : UInt32)

/-- The two checks in front of every entry handler. -/
def netHookGate (hook : HookIdx) : Bool := isHookActive g.policy hook uid && isTargetUidVal g.policy uid

/-- `dev && is_active_vpn_ifindex(dev->ifindex)`. -/
def isVpnDev (dev : Option UInt32) : Bool := dev.any (isActiveVpnIfindex g.vpns)

def rtnlFillEntry (dev : Option UInt32) : Bool := netHookGate g uid .rtnlFill && isVpnDev g dev

def inet6FillEntry (ifa : Option IfAddr) : Bool :=
  netHookGate g uid .inet6Fill && isVpnDev g (ifa.bind fun ifa => ifa.idev.join)

def inetFillEntry (ifa : Option IfAddr) : Bool :=
  netHookGate g uid .inetFill && isVpnDev g (ifa.bind fun ifa => ifa.idev.join)

/-- The first device of a route. -/
def vpnhideGetFibInfoDev (fi : FibInfo) : Option UInt32 :=
  match fi.nh with
  | some (.single info) => info.bind NhInfo.dev
  | some (.group entries) => entries.bind fun entries => entries.head?.join.join.bind NhInfo.dev
  | none => fi.fibNh.head?.join

def fibDumpEntry (fi : Option FibInfo) : Bool :=
  netHookGate g uid .fibDump && isVpnDev g (fi.bind vpnhideGetFibInfoDev)

/-- A rule for a range of apps that goes to a table of its own. -/
def splitsUids (rule : FibRule) : Bool :=
  (rule.uidStart ≥ 10000 || rule.uidEnd ≥ 10000 || isTargetUidVal g.policy rule.uidStart ||
      isTargetUidVal g.policy rule.uidEnd) && rule.uidEnd ≠ 0xffffffff &&
    (rule.table ≠ 254 && rule.table ≠ 255 && rule.table ≠ 253 && rule.table > 100)

def namesVpnDev (name : Vector UInt8 16) : Bool := name[0] ≠ 0 && isActiveVpnIfname g.names name.toList

def fibRuleFillEntry (rule : Option FibRule) : Bool :=
  netHookGate g uid .fibRuleFill && rule.any fun rule =>
    if namesVpnDev g rule.iifname || namesVpnDev g rule.oifname then true else splitsUids g rule

/-- The device of `rt` counts if there is an `rt`. -/
def rt6Dev (rt dst : Option (Option UInt32)) : Option UInt32 :=
  match rt with
  | some dev => dev
  | none => dst.join

def rt6FillEntry (rt dst : Option (Option UInt32)) : Bool := netHookGate g uid .rt6Fill && isVpnDev g (rt6Dev rt dst)

def rtFillEntry (rt : Option (Option UInt32)) : Bool := netHookGate g uid .rtFill && isVpnDev g rt.join

def tcFillQdiscEntry : Bool := netHookGate g uid .tcFillQdisc

end Entry

/-! ### The module: return handlers -/

/-- Takes out what the call has put in, whatever it returned. -/
def trimAlways (savedLen : ℕ) (page : List UInt8) (_ret : Int) : Filled UInt8 := ⟨page.take savedLen, 0, 1⟩

def trimFilled (savedLen : ℕ) (page : List UInt8) (ret : Int) : Filled UInt8 :=
  if ret ≥ 0 then ⟨page.take savedLen, 0, 1⟩ else ⟨page, ret, 0⟩

def rtnlFillRet := trimAlways
def inet6FillRet := trimAlways
def inetFillRet := trimAlways
def fibDumpRet := trimFilled
def fibRuleFillRet := trimFilled
def rt6FillRet := trimFilled
def rtFillRet := trimFilled

/-- `sizeof(struct nlmsghdr) + 4`, where `tcm_ifindex` is. -/
def tcmIfindexOff : ℕ := 20

/-- It looks at what the call has put in, and keeps what it returned. -/
def tcFillQdiscRet (g : NetGlobals) (savedLen : ℕ) (page : List UInt8) (ret : Int) : Filled UInt8 :=
  if ret ≠ 0 then ⟨page, ret, 0⟩
  else if page.length < savedLen + (tcmIfindexOff + 4) then ⟨page, ret, 0⟩
  else
    let ifindex := Codec.u32.decode (page.drop (savedLen + tcmIfindexOff))
    if ifindex.toInt32 > 0 && isActiveVpnIfindex g.vpns ifindex then ⟨page.take savedLen, ret, 1⟩ else ⟨page, ret, 0⟩

/-! ### The calls that fill in an object -/

/-- A kernel function that fills in an object. -/
structure Filler (α : Type) where
  /-- the room of a page -/
  cap : ℕ
  msg : α → List UInt8
  /-- the page it leaves and its result -/
  fill : α → List UInt8 → List UInt8 × Int

namespace Filler
variable {α : Type}

/-- What is assumed of it: it appends the message if there is room, and else it leaves the page as it was and fails. -/
structure Appends (k : Filler α) : Prop where
  fits : ∀ a page, page.length + (k.msg a).length ≤ k.cap →
    (k.fill a page).1 = page ++ k.msg a ∧ 0 ≤ (k.fill a page).2
  full : ∀ a page, k.cap < page.length + (k.msg a).length → (k.fill a page).1 = page ∧ (k.fill a page).2 < 0

/-- Without any hook. -/
def plain (k : Filler α) (a : α) (page : List UInt8) : Filled UInt8 := ⟨(k.fill a page).1, (k.fill a page).2, 0⟩

end Filler

/-- What is assumed of a loop that takes negative results for failures. -/
structure DumpLoop.StopsBelowZero {α γ : Type} (loop : DumpLoop α γ) : Prop where
  paged : loop.Paged
  stops_eq : ∀ ret, loop.stops ret = decide (ret < 0)

theorem DumpLoop.StopsBelowZero.stops_of_nonneg {α γ : Type} {loop : DumpLoop α γ} (h : loop.StopsBelowZero) {ret : Int}
    (hret : 0 ≤ ret) : loop.stops ret = false := by
  rw [h.stops_eq]
  exact decide_eq_false (not_lt.2 hret)

theorem DumpLoop.StopsBelowZero.stops_of_neg {α γ : Type} {loop : DumpLoop α γ} (h : loop.StopsBelowZero) {ret : Int}
    (hret : ret < 0) : loop.stops ret = true := by
  rw [h.stops_eq]
  exact decide_eq_true hret

/-- The objects of a dump, with the arguments of the probed functions. -/
inductive NetObject
  | link (dev : Option UInt32)
  | addr6 (ifa : Option IfAddr)
  | addr4 (ifa : Option IfAddr)
  | route4 (fi : Option FibInfo)
  | rule (rule : Option FibRule)
  | route6 (rt dst : Option (Option UInt32))
  /-- the answer to a query for one route -/
  | answer4 (rt : Option (Option UInt32))

namespace NetObject

/-- The entry handler asks for the return handler. -/
def hidden (g : NetGlobals) (uid : UInt32) : NetObject → Bool
  | link dev => rtnlFillEntry g uid dev
  | addr6 ifa => inet6FillEntry g uid ifa
  | addr4 ifa => inetFillEntry g uid ifa
  | route4 fi => fibDumpEntry g uid fi
  | rule r => fibRuleFillEntry g uid r
  | route6 rt dst => rt6FillEntry g uid rt dst
  | answer4 rt => rtFillEntry g uid rt

def ret : NetObject → ℕ → List UInt8 → Int → Filled UInt8
  | link _ => rtnlFillRet
  | addr6 _ => inet6FillRet
  | addr4 _ => inetFillRet
  | route4 _ => fibDumpRet
  | rule _ => fibRuleFillRet
  | route6 _ _ => rt6FillRet
  | answer4 _ => rtFillRet

def LinkOrAddress : NetObject → Prop
  | link _ | addr6 _ | addr4 _ => True
  | _ => False

/-- The probed call. -/
def fill (g : NetGlobals) (uid : UInt32) (k : Filler NetObject) (a : NetObject) (page : List UInt8) : Filled UInt8 :=
  if a.hidden g uid then a.ret page.length (k.fill a page).1 (k.fill a page).2 else k.plain a page

end NetObject

section Fill
variable {α : Type} {k : Filler α} {loop : DumpLoop α UInt8}

theorem Filler.Appends.take_fill (h : k.Appends) (a : α) (page : List UInt8) :
    (k.fill a page).1.take page.length = page := by
  by_cases hfits : page.length + (k.msg a).length ≤ k.cap
  · rw [(h.fits a page hfits).1]
    exact List.take_left
  · rw [(h.full a page (Nat.lt_of_not_le hfits)).1]
    exact List.take_length

theorem Filler.Appends.fills_plain (h : k.Appends) (hgo : ∀ ret, 0 ≤ ret → loop.stops ret = false)
    (hstop : ∀ ret, ret < 0 → loop.stops ret = true) :
    Fills loop.stops k.cap (fun _ => true) (fun _ => 0) k.msg k.plain where
  shows a page _ hfits := ⟨(h.fits a page hfits).1, hgo _ (h.fits a page hfits).2, rfl⟩
  full a page _ hfull := ⟨(h.full a page hfull).1, hstop _ (h.full a page hfull).2, rfl⟩
  skips _ _ hskip := absurd rfl hskip

theorem trimFilled_fill (h : k.Appends) (hloop : loop.StopsBelowZero) (a : α) (page : List UInt8) :
    (trimFilled page.length (k.fill a page).1 (k.fill a page).2).page = page ∧
      ((loop.stops (trimFilled page.length (k.fill a page).1 (k.fill a page).2).ret = true ∧
          k.cap < page.length + (k.msg a).length ∧
          (trimFilled page.length (k.fill a page).1 (k.fill a page).2).notes = 0) ∨
        (loop.stops (trimFilled page.length (k.fill a page).1 (k.fill a page).2).ret = false ∧
          (trimFilled page.length (k.fill a page).1 (k.fill a page).2).notes = 1)) := by
  unfold trimFilled
  by_cases hfits : page.length + (k.msg a).length ≤ k.cap
  · rw [if_pos (h.fits a page hfits).2]
    exact ⟨h.take_fill a page, .inr ⟨hloop.stops_of_nonneg le_rfl, rfl⟩⟩
  · obtain ⟨hpage, hret⟩ := h.full a page (Nat.lt_of_not_le hfits)
    rw [if_neg (not_le.2 hret)]
    exact ⟨hpage, .inl ⟨hloop.stops_of_neg hret, Nat.lt_of_not_le hfits, rfl⟩⟩

end Fill

section Dump
variable (g : NetGlobals) (uid : UInt32) {k : Filler NetObject} {loop : DumpLoop NetObject UInt8}

theorem NetObject.fills (hk : k.Appends) (hloop : loop.StopsBelowZero) :
    Fills loop.stops k.cap (fun a => !a.hidden g uid) (fun _ => 1) k.msg (NetObject.fill g uid k) where
  shows a page hshown h := by
    unfold NetObject.fill
    rw [if_neg (by simpa using hshown)]
    exact (hk.fills_plain (fun _ => hloop.stops_of_nonneg) fun _ => hloop.stops_of_neg).shows a page rfl h
  full a page hshown h := by
    unfold NetObject.fill
    rw [if_neg (by simpa using hshown)]
    exact (hk.fills_plain (fun _ => hloop.stops_of_nonneg) fun _ => hloop.stops_of_neg).full a page rfl h
  skips a page hshown := by
    unfold NetObject.fill
    rw [if_pos (by simpa using hshown)]
    cases a with
    | link | addr6 | addr4 => exact ⟨hk.take_fill _ page, .inr ⟨hloop.stops_of_nonneg le_rfl, rfl⟩⟩
    | route4 | rule | route6 | answer4 => exact trimFilled_fill hk hloop _ page

/-- An app that is hidden interface 7 from, for one of the hooks. -/
def tunGlobals (hook : HookIdx) : NetGlobals := ⟨some (oneTargetPolicy hook 10123), some [7], none⟩

/-- A function that meets the assumptions, and returns the same number whenever there was room. -/
def Filler.appending {α : Type} (cap : ℕ) (msg : α → List UInt8) (result : Int) : Filler α where
  cap
  msg
  fill a page := if page.length + (msg a).length ≤ cap then (page ++ msg a, result) else (page, -90)

theorem Filler.fill_appending {α : Type} (cap : ℕ) (msg : α → List UInt8) (result : Int) (a : α) (page : List UInt8) :
    (appending cap msg result).fill a page =
      if page.length + (msg a).length ≤ cap then (page ++ msg a, result) else (page, -90) := rfl

theorem Filler.appends_appending {α : Type} (cap : ℕ) (msg : α → List UInt8) {result : Int} (h : 0 ≤ result) :
    (appending cap msg result).Appends where
  fits a page hfits := by
    rw [fill_appending, if_pos (show page.length + (msg a).length ≤ cap from hfits)]
    exact ⟨rfl, h⟩
  full a page hfull := by
    rw [fill_appending, if_neg (show ¬ page.length + (msg a).length ≤ cap from Nat.not_le.2 hfull)]
    exact ⟨rfl, show (-90 : Int) < 0 by decide⟩

def untilNegative {α : Type} : DumpLoop α UInt8 := .untilStop fun ret => ret < 0

theorem stopsBelowZero_untilNegative {α : Type} : (untilNegative : DumpLoop α UInt8).StopsBelowZero :=
  ⟨DumpLoop.paged_untilStop _, fun _ => rfl⟩

/-- Messages of five bytes, in pages of twelve. -/
def fiveByteFiller : Filler NetObject :=
  .appending 12 (fun
    | .link dev => Codec.u32.encode (dev.getD 0) ++ [0]
    | .route4 fi => Codec.u32.encode ((fi.bind vpnhideGetFibInfoDev).getD 0) ++ [0]
    | _ => [0, 0, 0, 0, 0]) 0

/-- Where only links and addresses are hidden, the pages are those of a machine that does not have them. -/
theorem netlinkDump_pages (hk : k.Appends) (hloop : loop.StopsBelowZero) (as : List NetObject)
    (hkinds : ∀ a ∈ as, a.hidden g uid → a.LinkOrAddress) :
    (loop.dump (NetObject.fill g uid k) as).map Prod.fst =
      (loop.dump k.plain (as.filter fun a => !a.hidden g uid)).map Prod.fst := by
  refine (NetObject.fills g uid hk hloop).dump_filter
    (hk.fills_plain (fun _ => hloop.stops_of_nonneg) fun _ => hloop.stops_of_neg) hloop.paged as
      fun a ha page hshown => ?_
  have hhidden : a.hidden g uid := by simpa using hshown
  unfold NetObject.fill
  rw [if_pos hhidden]
  cases a with
  | link | addr6 | addr4 => exact hloop.stops_of_nonneg le_rfl
  | route4 | rule | route6 | answer4 => exact (hkinds _ ha hhidden).elim

theorem netlinkDump_pages_links :
    (untilNegative.dump (NetObject.fill (tunGlobals .rtnlFill) 10123 fiveByteFiller)
        [.link (some 2), .link (some 4), .link (some 7), .link (some 3)]).map Prod.fst =
      (untilNegative.dump fiveByteFiller.plain [.link (some 2), .link (some 4), .link (some 3)]).map Prod.fst := by
  refine netlinkDump_pages (tunGlobals .rtnlFill) 10123
    (Filler.appends_appending _ _ le_rfl) stopsBelowZero_untilNegative
    [.link (some 2), .link (some 4), .link (some 7), .link (some 3)] fun a ha _ => ?_
  simp only [List.mem_cons, List.not_mem_nil, or_false] at ha
  rcases ha with rfl | rfl | rfl | rfl <;> trivial

-- A hidden route for which there is no room ends the page: the route behind it comes in a page of its own.
example :
    let route (dev : UInt32) : NetObject := .route4 (some ⟨none, [some dev]⟩)
    let wide : Filler NetObject :=
      .appending 12 (fun a => List.replicate (if a.hidden (tunGlobals .fibDump) 10123 then 8 else 5) 0) 0
    untilNegative.dump (NetObject.fill (tunGlobals .fibDump) 10123 wide) [route 2, route 7, route 3] =
        some ([[0, 0, 0, 0, 0], [0, 0, 0, 0, 0]], 1) ∧
      untilNegative.dump wide.plain [route 2, route 3] = some ([[0, 0, 0, 0, 0, 0, 0, 0, 0, 0]], 0) := by
  decide +kernel

end Dump

/-! ### Queueing disciplines -/

section Qdisc
variable (g : NetGlobals) (uid : UInt32) (k : Filler UInt32)

/-- The probed call, for the discipline of an interface. -/
def tcFillQdisc (ifindex : UInt32) (page : List UInt8) : Filled UInt8 :=
  if tcFillQdiscEntry g uid then tcFillQdiscRet g page.length (k.fill ifindex page).1 (k.fill ifindex page).2
  else k.plain ifindex page

def qdiscHidden (ifindex : UInt32) : Bool :=
  tcFillQdiscEntry g uid && (ifindex.toInt32 > 0 && isActiveVpnIfindex g.vpns ifindex)

/-- The messages have the index of the interface where `struct tcmsg` has it. -/
def HasTcmsg : Prop := ∀ ifindex, ∃ header attrs, header.length = tcmIfindexOff ∧
  k.msg ifindex = header ++ Codec.u32.encode ifindex ++ attrs

variable {g uid k} {loop : DumpLoop UInt32 UInt8}

theorem tcFillQdiscRet_zero (hmsg : HasTcmsg k) (ifindex : UInt32) (page : List UInt8) :
    tcFillQdiscRet g page.length (page ++ k.msg ifindex) 0 =
      if ifindex.toInt32 > 0 && isActiveVpnIfindex g.vpns ifindex then ⟨page, 0, 1⟩
      else ⟨page ++ k.msg ifindex, 0, 0⟩ := by
  obtain ⟨header, attrs, hheader, hmsg⟩ := hmsg ifindex
  have hdrop : (page ++ k.msg ifindex).drop (page.length + tcmIfindexOff) = Codec.u32.encode ifindex ++ attrs := by
    rw [hmsg, ← hheader, ← List.length_append, List.append_assoc header, ← List.append_assoc page, List.drop_left]
  have hlong : ¬ (page ++ k.msg ifindex).length < page.length + (tcmIfindexOff + 4) := by
    rw [hmsg]
    simp only [List.length_append, Codec.length_encode, Codec.u32_size, hheader]
    omega
  unfold tcFillQdiscRet
  rw [if_neg (not_not.2 rfl), if_neg hlong]
  dsimp only
  rw [hdrop, Codec.decode_encode, List.take_left]

theorem tcFillQdisc_of_ne {ifindex : UInt32} {page : List UInt8} (h : (k.fill ifindex page).2 ≠ 0) :
    tcFillQdisc g uid k ifindex page = k.plain ifindex page := by
  unfold tcFillQdisc
  rw [tcFillQdiscRet, if_pos h]
  exact ite_self _

theorem tcFillQdisc_fills (hk : k.Appends) (hmsg : HasTcmsg k)
    (hzero : ∀ ifindex page, 0 ≤ (k.fill ifindex page).2 → (k.fill ifindex page).2 = 0)
    (hgo : loop.stops 0 = false) (hstop : ∀ ret, ret < 0 → loop.stops ret = true) :
    Fills loop.stops k.cap (fun ifindex => !qdiscHidden g uid ifindex) (fun _ => 1) k.msg (tcFillQdisc g uid k) where
  shows ifindex page hshown h := by
    obtain ⟨hpage, hret⟩ := hk.fits ifindex page h
    have hret := hzero ifindex page hret
    unfold tcFillQdisc
    split_ifs with hgate
    · have hvpn : ¬ (ifindex.toInt32 > 0 && isActiveVpnIfindex g.vpns ifindex) = true := by
        intro hvpn
        rw [qdiscHidden, hgate, hvpn] at hshown
        cases hshown
      rw [hpage, hret, tcFillQdiscRet_zero hmsg, if_neg hvpn]
      exact ⟨rfl, hgo, rfl⟩
    · refine ⟨hpage, ?_, rfl⟩
      show loop.stops (k.fill ifindex page).2 = false
      rwa [hret]
  full ifindex page _ h := by
    obtain ⟨hpage, hret⟩ := hk.full ifindex page h
    rw [tcFillQdisc_of_ne hret.ne]
    exact ⟨hpage, hstop _ hret, rfl⟩
  skips ifindex page hshown := by
    obtain ⟨hgate, hvpn⟩ : tcFillQdiscEntry g uid = true ∧
        (ifindex.toInt32 > 0 && isActiveVpnIfindex g.vpns ifindex) = true := by simpa [qdiscHidden] using hshown
    by_cases hfits : page.length + (k.msg ifindex).length ≤ k.cap
    · obtain ⟨hpage, hret⟩ := hk.fits ifindex page hfits
      unfold tcFillQdisc
      rw [if_pos hgate, hpage, hzero ifindex page hret, tcFillQdiscRet_zero hmsg, if_pos hvpn]
      exact ⟨rfl, .inr ⟨hgo, rfl⟩⟩
    · obtain ⟨hpage, hret⟩ := hk.full ifindex page (Nat.lt_of_not_le hfits)
      rw [tcFillQdisc_of_ne hret.ne]
      exact ⟨hpage, .inl ⟨hstop _ hret, Nat.lt_of_not_le hfits, rfl⟩⟩

/-- Messages that are a header of zeros and the index. -/
def qdiscFiller (result : Int) : Filler UInt32 :=
  .appending 60 (fun ifindex => List.replicate 20 0 ++ Codec.u32.encode ifindex) result

end Qdisc

/-! ### The patch -/

namespace Kpatch

section Hides
variable (g : NetGlobals) (uid : UInt32)

def vpnhideShouldHideDev (ifindex : UInt32) : Bool :=
  vpnhideActiveHooksMask g.policy &&& HookIdx.rtnlFill.bit ≠ 0 && (isHookActive g.policy .rtnlFill uid &&
    (isTargetUidVal g.policy uid && isActiveVpnIfindex g.vpns ifindex))

def vpnhideShouldHideIfname (name : Vector UInt8 16) : Bool :=
  name[0] ≠ 0 && (isTargetUidVal g.policy uid && isActiveVpnIfname g.names name.toList)

/-- `dst ? dst->dev : rt->fib6_nh->fib_nh_dev`. -/
def rt6Dev (rt dst : Option (Option UInt32)) : Option UInt32 :=
  match dst with
  | some dev => dev
  | none => rt.join

/-- The blocks that are put in front of `nlmsg_put` in each function. In the answer to a route query there is none. -/
def hides : NetObject → Bool
  | .link dev => dev.any (vpnhideShouldHideDev g uid)
  | .addr6 ifa => (ifa.bind fun ifa => ifa.idev.join).any (vpnhideShouldHideDev g uid)
  | .addr4 ifa => (ifa.bind fun ifa => ifa.idev.join).any (vpnhideShouldHideDev g uid)
  | .route4 fi => fi.any fun fi => fi.nh.isNone && fi.fibNh.head?.join.any (vpnhideShouldHideDev g uid)
  | .rule rule => rule.any fun rule => isTargetUidVal g.policy uid &&
      (vpnhideShouldHideIfname g uid rule.iifname || vpnhideShouldHideIfname g uid rule.oifname ||
        (rule.uidEnd ≠ 0xffffffff && (rule.uidStart ≥ 10000 || rule.uidEnd ≥ 10000 ||
          isTargetUidVal g.policy rule.uidStart || isTargetUidVal g.policy rule.uidEnd) &&
          rule.table ≠ 253 && rule.table ≠ 254 && rule.table ≠ 255 && rule.table > 100))
  | .route6 rt dst => (rt6Dev rt dst).any (vpnhideShouldHideDev g uid)
  | .answer4 _ => false

/-- `vpnhide_should_hide_dev` counts the object, and the block for rules does not call it. -/
def counted : NetObject → ℕ
  | .rule _ => 0
  | _ => 1

/-- The patched function. -/
def fill (k : Filler NetObject) (a : NetObject) (page : List UInt8) : Filled UInt8 :=
  if hides g uid a then ⟨page, 0, counted a⟩ else k.plain a page

variable {k : Filler NetObject} {loop : DumpLoop NetObject UInt8}

theorem fills (hk : k.Appends) (hloop : loop.StopsBelowZero) :
    Fills loop.stops k.cap (fun a => !hides g uid a) counted k.msg (fill g uid k) where
  shows a page hshown h := by
    unfold fill
    rw [if_neg (by simpa using hshown)]
    exact (hk.fills_plain (fun _ => hloop.stops_of_nonneg) fun _ => hloop.stops_of_neg).shows a page rfl h
  full a page hshown h := by
    unfold fill
    rw [if_neg (by simpa using hshown)]
    exact (hk.fills_plain (fun _ => hloop.stops_of_nonneg) fun _ => hloop.stops_of_neg).full a page rfl h
  skips a page hshown := by
    unfold fill
    rw [if_pos (by simpa using hshown)]
    exact ⟨rfl, .inr ⟨hloop.stops_of_nonneg le_rfl, rfl⟩⟩

end Hides

/-! ### Module and patch -/

/-- The hooks of the module that hide an object; the patch has one for all. -/
def netHooks : List HookIdx := [.rtnlFill, .inet6Fill, .inetFill, .fibDump, .fibRuleFill, .rt6Fill, .rtFill]

/-- What it takes for the module and the patch to take the same decision. -/
def SameDecision (g : NetGlobals) : NetObject → Prop
  -- the patch leaves routes with a nexthop object alone
  | .route4 (some fi) => fi.nh.isSome → isVpnDev g (vpnhideGetFibInfoDev fi) = false
  -- the module looks at the device of `rt` and the patch at that of `dst`
  | .route6 (some dev) (some dev') => isVpnDev g dev = isVpnDev g dev'
  | .answer4 rt => isVpnDev g rt.join = false
  | _ => True

section Agree
variable {g : NetGlobals} {s : PolicySnapshot} {uid : UInt32}

theorem isTargetUidVal_eq (h : s.WF) (uid : UInt32) : isTargetUidVal (some s) uid = VpnHide.isTargetUidVal
    (some s) uid :=
  vpnhideUidMatchesMode_eq h.kmod h.kmod_small s.kmodMatchMode uid

theorem any_vpnhideShouldHideDev (hg : g.policy = some s) (hmask : s.activeHooksMask &&& HookIdx.rtnlFill.bit ≠ 0)
    (hactive : VpnHide.isHookActive (some s) .rtnlFill uid) (htarget : isTargetUidVal (some s) uid)
    (dev : Option UInt32) :
    dev.any (vpnhideShouldHideDev g uid) = isVpnDev g dev := by
  cases dev with
  | none => rfl
  | some ifindex =>
    have hactive' : isHookActive (some s) .rtnlFill uid = true := hactive
    simp [vpnhideShouldHideDev, isVpnDev, hg, vpnhideActiveHooksMask, hmask, hactive', htarget]

/-- For an app with all these hooks on, the module and the patch hide the same objects, but for the routes and answers
that `SameDecision` excludes. -/
theorem netlinkHides_agree_iff (h : s.WF) (hg : g.policy = some s)
    (hmask : s.activeHooksMask &&& HookIdx.rtnlFill.bit ≠ 0)
    (hactive : ∀ hook ∈ netHooks, VpnHide.isHookActive (some s) hook uid)
    (htarget : VpnHide.isTargetUidVal (some s) uid)
    (a : NetObject) : a.hidden g uid = hides g uid a ↔ SameDecision g a := by
  have htarget' : isTargetUidVal (some s) uid := (isTargetUidVal_eq h uid).trans htarget
  have hdev := any_vpnhideShouldHideDev hg hmask (hactive .rtnlFill (by decide)) htarget'
  have hgate : ∀ hook ∈ netHooks, netHookGate g uid hook = true := fun hook hhook => by
    rw [netHookGate, hg, hactive hook hhook, htarget]
    rfl
  cases a with
  | link dev =>
    refine iff_of_true ?_ trivial
    rw [NetObject.hidden, rtnlFillEntry, hgate _ (by decide), Bool.true_and, hides, hdev]
  | addr6 ifa =>
    refine iff_of_true ?_ trivial
    rw [NetObject.hidden, inet6FillEntry, hgate _ (by decide), Bool.true_and, hides, hdev]
  | addr4 ifa =>
    refine iff_of_true ?_ trivial
    rw [NetObject.hidden, inetFillEntry, hgate _ (by decide), Bool.true_and, hides, hdev]
  | route4 fi =>
    rw [NetObject.hidden, fibDumpEntry, hgate _ (by decide), Bool.true_and, hides]
    cases fi with
    | none => exact iff_of_true rfl trivial
    | some fi =>
      rw [Option.any_some, Option.bind_some, hdev]
      cases hnh : fi.nh with
      | none => simp [SameDecision, vpnhideGetFibInfoDev, hnh]
      | some nh => simp [SameDecision, hnh]
  | rule rule =>
    refine iff_of_true ?_ trivial
    rw [NetObject.hidden, fibRuleFillEntry, hgate _ (by decide), Bool.true_and, hides]
    cases rule with
    | none => rfl
    | some rule =>
      simp only [Option.any_some, splitsUids, namesVpnDev, vpnhideShouldHideIfname, hg, htarget', isTargetUidVal_eq h,
        Bool.true_and]
      split_ifs with hname
      · rw [hname, Bool.true_or]
      · simp only [hname, Bool.false_or]
        grind
  | route6 rt dst =>
    rw [NetObject.hidden, rt6FillEntry, hgate _ (by decide), Bool.true_and, hides, hdev]
    cases rt with
    | none =>
      refine iff_of_true ?_ (by cases dst <;> trivial)
      cases dst <;> rfl
    | some dev =>
      cases dst with
      | none => exact iff_of_true rfl trivial
      | some dev' => exact Iff.rfl
  | answer4 rt =>
    rw [NetObject.hidden, rtFillEntry, hgate _ (by decide), Bool.true_and, hides]
    exact Iff.rfl

def allHooksPolicy : PolicySnapshot := { oneTargetPolicy .rtnlFill 10123 with activeHooksMask := 0xffffffff }

theorem allHooksPolicy_wf : allHooksPolicy.WF := by
  constructor <;> first | decide | (unfold StrictBy; decide) | (unfold KeepsPortHooks; decide)

/-- A route through a VPN by a nexthop object: the module hides it and the patch does not. -/
theorem netlinkHides_agree_iff_nexthop :
    (NetObject.route4 (some ⟨some (.single (some ⟨some 7⟩)), []⟩)).hidden ⟨some allHooksPolicy, some [7], none⟩ 10123 ≠
      hides ⟨some allHooksPolicy, some [7], none⟩ 10123 (.route4 (some ⟨some (.single (some ⟨some 7⟩)), []⟩)) := by
  intro hsame
  have hdecision :=
    (netlinkHides_agree_iff (g := ⟨some allHooksPolicy, some [7], none⟩) allHooksPolicy_wf rfl (by decide)
    (by decide) (by decide) _).1 hsame
  exact absurd (hdecision rfl) (by decide)

end Agree

end Kpatch

end VpnHide
