import VpnHide.Abi
import VpnHide.Lib.CString
import VpnHide.Lib.RunningMax

/-!
# The choice of a cover interface (`update_spoof_ip` in `daemon/network.c`)

The daemon scores the interfaces that have a route and keeps the data of the best one so far in separate variables. The
addresses are set for every new best interface. The MTUs are set only if it has the address, and the link-local address
only if it has one, so these may be left from an interface that was best before (`scoreInterfaces_eq_iff`).
-/

namespace VpnHide

/-- `struct iface_info`, without the score. A link-local address is the text of an address or empty. -/
structure IfaceInfo where
  name : List UInt8
  ipv4 : List UInt8
  ipv6 : List UInt8
  ipv6Linklocal : List UInt8
  ipv4Mtu : UInt32
  ipv6Mtu : UInt32
  hasIpv4 : Bool
  hasIpv6 : Bool
  linklocal_ne : ipv6Linklocal ≠ bytesOf "none"

def vpnhideDaemonIsCellularUplink (ifname : List UInt8) : Bool :=
  strncmpEq 5 ifname (bytesOf "rmnet") || strncmpEq 5 ifname (bytesOf "ccmni") || strncmpEq 4 ifname (bytesOf "epdg") ||
    strncmpEq 5 ifname (bytesOf "r_net") || strncmpEq 3 ifname (bytesOf "pdp")

/-- `info->score`. -/
def IfaceInfo.score (info : IfaceInfo) : ℤ :=
  (if strncmpEq 3 info.name (bytesOf "eth") then 100000
    else if strncmpEq 4 info.name (bytesOf "wlan") || strncmpEq 2 info.name (bytesOf "ap") then 50000
    else if vpnhideDaemonIsCellularUplink info.name then 10000
    else 1000) + (if info.hasIpv4 then 5000 else 0) + (if info.hasIpv6 then 5000 else 0)

/-- The variables of the loop. -/
@[ext] structure CoverChoice where
  bestIfname : List UInt8
  bestScore : ℤ
  newIpv4 : List UInt8
  newIpv6 : List UInt8
  newIpv6Linklocal : List UInt8
  newIpv4Mtu : UInt32
  newIpv6Mtu : UInt32
  deriving DecidableEq

def CoverChoice.init : CoverChoice := ⟨[], -1, bytesOf "none", bytesOf "none", bytesOf "none", 0, 0⟩

/-- What is set for a new best interface. -/
def CoverChoice.adopt (c : CoverChoice) (info : IfaceInfo) : CoverChoice where
  bestIfname := info.name.take (ifNamSiz - 1)
  bestScore := info.score
  newIpv4 := if info.hasIpv4 then info.ipv4 else bytesOf "none"
  newIpv6 := if info.hasIpv6 then info.ipv6 else bytesOf "none"
  newIpv6Linklocal := if info.ipv6Linklocal ≠ [] then info.ipv6Linklocal else c.newIpv6Linklocal
  newIpv4Mtu := if info.hasIpv4 then info.ipv4Mtu else c.newIpv4Mtu
  newIpv6Mtu := if info.hasIpv6 then info.ipv6Mtu else c.newIpv6Mtu

def scoreInterface (c : CoverChoice) (info : IfaceInfo) : CoverChoice :=
  if ¬ info.hasIpv4 ∧ ¬ info.hasIpv6 then c
  else if info.score > c.bestScore then c.adopt info
  else c

def scoreInterfaces (interfaces : List IfaceInfo) : CoverChoice := interfaces.foldl scoreInterface .init

/-! ### The data of one interface -/

def IfaceInfo.hasEgress (info : IfaceInfo) : Bool := info.hasIpv4 || info.hasIpv6

/-- What there is of one interface, and nothing else. -/
def coverOf : Option IfaceInfo → CoverChoice
  | none => .init
  | some info =>
    { bestIfname := info.name.take (ifNamSiz - 1)
      bestScore := info.score
      newIpv4 := if info.hasIpv4 then info.ipv4 else bytesOf "none"
      newIpv6 := if info.hasIpv6 then info.ipv6 else bytesOf "none"
      newIpv6Linklocal := if info.ipv6Linklocal ≠ [] then info.ipv6Linklocal else bytesOf "none"
      newIpv4Mtu := if info.hasIpv4 then info.ipv4Mtu else 0
      newIpv6Mtu := if info.hasIpv6 then info.ipv6Mtu else 0 }

/-- The first one with the best score, among those with a route. -/
def bestInterface (interfaces : List IfaceInfo) : Option IfaceInfo :=
  firstMax IfaceInfo.score (interfaces.filter IfaceInfo.hasEgress)

/-- The interfaces with a route that were the best one so far. -/
def bestSoFar (interfaces : List IfaceInfo) : List IfaceInfo :=
  records IfaceInfo.score none (interfaces.filter IfaceInfo.hasEgress)

/-- The last one has what the ones before it have: an IPv4 or IPv6 address, if there was one with an MTU last, and a
link-local address, if there was any. -/
def OneSource (best : List IfaceInfo) : Prop :=
  ∀ info ∈ best.getLast?,
    (info.hasIpv4 ∨ ∀ r ∈ (best.filter IfaceInfo.hasIpv4).getLast?, r.ipv4Mtu = 0) ∧
    (info.hasIpv6 ∨ ∀ r ∈ (best.filter IfaceInfo.hasIpv6).getLast?, r.ipv6Mtu = 0) ∧
    (info.ipv6Linklocal ≠ [] ∨ ∀ r ∈ best, r.ipv6Linklocal = [])

theorem IfaceInfo.score_pos (info : IfaceInfo) : -1 < info.score := by
  unfold IfaceInfo.score
  split_ifs <;> decide

/-- The loop is a fold over the interfaces that were the best one so far. -/
theorem scoreInterfaces_eq_foldl (interfaces : List IfaceInfo) :
    scoreInterfaces interfaces = (bestSoFar interfaces).foldl CoverChoice.adopt .init := by
  have hskip : scoreInterfaces interfaces = (interfaces.filter IfaceInfo.hasEgress).foldl
      (fun c info => if info.score > c.bestScore then c.adopt info else c) .init := by
    rw [scoreInterfaces, List.foldl_filter]
    refine congrArg (List.foldl · _ _) (funext fun c => funext fun info => ?_)
    rw [scoreInterface, IfaceInfo.hasEgress]
    cases info.hasIpv4 <;> cases info.hasIpv6 <;> rfl
  have hbetter (best : Option IfaceInfo) (info : IfaceInfo) :
      info.score > best.elim (-1) IfaceInfo.score ↔ Beats IfaceInfo.score best info := by
    cases best with
    | none => exact iff_of_true info.score_pos nofun
    | some b => exact (beats_some IfaceInfo.score).symm
  rw [hskip, bestSoFar]
  refine foldl_eq_foldl_records IfaceInfo.score (fun c best => c.bestScore = best.elim (-1) IfaceInfo.score)
    (fun c best info hc hbeats => ⟨if_pos ?_, rfl⟩) (fun c best info hc hbeats => if_neg ?_) rfl _
  · rwa [hc, hbetter]
  · rwa [hc, hbetter]

/-- A variable that is set only for interfaces that have the item. -/
theorem foldl_adopt_eq_iff {γ : Type} (field : CoverChoice → γ) (has : IfaceInfo → Bool) (item : IfaceInfo → γ)
    (hadopt : ∀ c info, field (c.adopt info) = if has info then item info else field c) {best : List IfaceInfo}
    {info : IfaceInfo} (hlast : best.getLast? = some info) :
    field (best.foldl CoverChoice.adopt .init) = (if has info then item info else field .init) ↔
      has info ∨ ((best.filter has).getLast?.map item).getD (field .init) = field .init := by
  have hfold : field (best.foldl CoverChoice.adopt .init) =
      ((best.filter has).getLast?.map item).getD (field .init) := by
    rw [← foldl_ite]
    exact (List.foldl_hom field fun c info => (hadopt c info).symm).symm
  by_cases hhas : has info
  · obtain ⟨front, rfl⟩ := List.getLast?_eq_some_iff.1 hlast
    simp [hadopt, hhas]
  · rw [if_neg hhas, hfold, or_iff_right hhas]

theorem getD_map_eq_zero_iff {o : Option IfaceInfo} {mtu : IfaceInfo → UInt32} :
    (o.map mtu).getD 0 = 0 ↔ ∀ r ∈ o, mtu r = 0 := by
  cases o <;> simp

/-- No other address can be taken for the one that is missing. -/
theorem getD_linklocal_eq_iff (best : List IfaceInfo) :
    ((best.filter fun info => info.ipv6Linklocal ≠ []).getLast?.map IfaceInfo.ipv6Linklocal).getD (bytesOf "none") =
      bytesOf "none" ↔ ∀ r ∈ best, r.ipv6Linklocal = [] := by
  cases hlast : (best.filter fun info => info.ipv6Linklocal ≠ []).getLast? with
  | none =>
    rw [List.getLast?_eq_none_iff, List.filter_eq_nil_iff] at hlast
    simpa using hlast
  | some r =>
    have hr := List.mem_filter.1 (List.mem_of_getLast? hlast)
    refine iff_of_false (by simpa using r.linklocal_ne) fun hnone => ?_
    simpa [hnone r hr.1] using hr.2

/-- The data is that of the best interface alone, unless an interface that was best before had an item that it lacks. -/
theorem scoreInterfaces_eq_iff (interfaces : List IfaceInfo) :
    scoreInterfaces interfaces = coverOf (bestInterface interfaces) ↔ OneSource (bestSoFar interfaces) := by
  rw [scoreInterfaces_eq_foldl, bestInterface, ← getLast?_records, ← bestSoFar, OneSource]
  generalize bestSoFar interfaces = best
  cases hlast : best.getLast? with
  | none =>
    obtain rfl := List.getLast?_eq_none_iff.1 hlast
    exact iff_of_true rfl nofun
  | some info =>
    have hmtu4 := foldl_adopt_eq_iff CoverChoice.newIpv4Mtu IfaceInfo.hasIpv4 IfaceInfo.ipv4Mtu (fun _ _ => rfl) hlast
    have hmtu6 := foldl_adopt_eq_iff CoverChoice.newIpv6Mtu IfaceInfo.hasIpv6 IfaceInfo.ipv6Mtu (fun _ _ => rfl) hlast
    have hlinklocal := foldl_adopt_eq_iff CoverChoice.newIpv6Linklocal (fun info => info.ipv6Linklocal ≠ [])
      IfaceInfo.ipv6Linklocal (fun _ _ => by simp [CoverChoice.adopt]) hlast
    rw [show CoverChoice.init.newIpv4Mtu = 0 from rfl, getD_map_eq_zero_iff] at hmtu4
    rw [show CoverChoice.init.newIpv6Mtu = 0 from rfl, getD_map_eq_zero_iff] at hmtu6
    rw [show CoverChoice.init.newIpv6Linklocal = bytesOf "none" from rfl, getD_linklocal_eq_iff] at hlinklocal
    simp only [decide_eq_true_eq] at hlinklocal
    obtain ⟨front, rfl⟩ := List.getLast?_eq_some_iff.1 hlast
    rw [CoverChoice.ext_iff]
    constructor
    · rintro ⟨-, -, -, -, h1, h2, h3⟩ _ ⟨⟩
      exact ⟨hmtu4.1 h2, hmtu6.1 h3, hlinklocal.1 h1⟩
    · intro h
      obtain ⟨h1, h2, h3⟩ := h info rfl
      refine ⟨?_, ?_, ?_, ?_, hlinklocal.2 h3, hmtu4.2 h1, hmtu6.2 h2⟩ <;> rw [List.foldl_append] <;> rfl

theorem fe80_ne_none : bytesOf "fe80::1" ≠ bytesOf "none" := by decide +kernel

theorem nil_ne_none : [] ≠ bytesOf "none" := by decide +kernel

/-- `eth0` is better than `wlan0` and has IPv4 only, yet the link-local address and an MTU are those of `wlan0`. -/
theorem scoreInterfaces_mixes :
    let wlan0 : IfaceInfo :=
      ⟨bytesOf "wlan0", bytesOf "192.0.2.1", bytesOf "2001:db8::1", bytesOf "fe80::1", 1400, 1400,
        true, true, fe80_ne_none⟩
    let eth0 : IfaceInfo := ⟨bytesOf "eth0", bytesOf "192.0.2.2", [], [], 1500, 0, true, false, nil_ne_none⟩
    bestInterface [wlan0, eth0] = some eth0 ∧ scoreInterfaces [wlan0, eth0] =
      ⟨bytesOf "eth0", 105000, bytesOf "192.0.2.2", bytesOf "none", bytesOf "fe80::1", 1500, 1400⟩ := by
  refine ⟨rfl, ?_⟩
  decide +kernel

end VpnHide
