import VpnHide.Json
import VpnHide.Layout

/-!
# Resolving a configuration (`kmod/vpnhide_policy.c`)

The controller turns a configuration into uid lists and port targets. Every array grows one element at a
time; `grow` is what `grow_array` answers for an array that already holds so many elements. Errors carry
the return value and the text left for the user.
-/

namespace VpnHide

inductive ListMode where
  | blacklist
  | allowlist
  deriving DecidableEq, Repr

structure PolicySummary where
  mode : ListMode
  configuredEntries : ℕ
  rejectedCoreUids : ℕ
  kmodTargets : ℕ
  lsposedEntries : ℕ
  portTargets : ℕ
  deriving DecidableEq, Repr

/-- The return value and the contents of `error` after a failed resolution. -/
structure ResolveError where
  code : Errno
  error : String
  deriving DecidableEq, Repr

def readMode (root : JsonObject) : ListMode :=
  match root.getObject "globalConfig" with
  | none => .blacklist
  | some global =>
    match global.getString "listMode" with
    | none => .blacklist
    | some mode => if strEq mode "ALLOWLIST" || strEq mode "allowlist" then .allowlist else .blacklist

/-- `(uid_t)json_object_get_number(o, "uid")`. -/
def uidOf (o : JsonObject) : UInt32 := UInt32.ofInt (o.getNumber "uid")

/-- `(int)json_object_get_number(o, "userId")`. -/
def userOf (o : JsonObject) : Int32 := Int32.ofInt (o.getNumber "userId")

/-- The uids the controller takes from a configuration; it passes over all others. -/
def ConfiguredUid (uid : UInt32) : Prop := ¬ (uid = 0 ∨ uid % 100000 < 10000)

instance (uid : UInt32) : Decidable (ConfiguredUid uid) := inferInstanceAs (Decidable (¬ _))

section Code
variable (grow : ℕ → Except Errno Unit)

/-- `grow_array`, with the text its caller reports. -/
def growArray (count : ℕ) (error : String) : Except ResolveError Unit :=
  (grow count).mapError fun code => ⟨code, error⟩

/-! ### Uid lists -/

def addUidDistinct (vector : List UInt32) (uid : UInt32) : Except Errno (List UInt32) :=
  if uid = 0 then .ok vector
  else if uid ∈ vector then .ok vector
  else do
    grow vector.length
    return vector ++ [uid]

structure TargetLists where
  kmod : List UInt32
  lsposed : List UInt32
  rejectedCoreUids : ℕ

def addFlagged (app : JsonObject) (flag error : String) (vector : List UInt32) :
    Except ResolveError (List UInt32) :=
  if app.getBoolean flag = some true then
    (addUidDistinct grow vector (uidOf app)).mapError fun _ => ⟨.enomem, error⟩
  else .ok vector

/-- The body of the loop in `vpnhide_resolve_targets`. -/
def resolveTarget (lists : TargetLists) (app : JsonObject) : Except ResolveError TargetLists :=
  let uid := uidOf app
  if ¬ ConfiguredUid uid then
    .ok (if uid ≠ 0 then { lists with rejectedCoreUids := lists.rejectedCoreUids + 1 } else lists)
  else do
    let kmod ← addFlagged grow app "kmod" "cannot grow configured kernel UID set" lists.kmod
    let lsposed ← addFlagged grow app "lsposed" "cannot grow configured framework UID set" lists.lsposed
    return { lists with kmod := kmod, lsposed := lsposed }

/-- `vpnhide_resolve_targets`, its pointer arguments given. -/
def vpnhideResolveTargets (root : JsonObject) :
    Except ResolveError (List UInt32 × List UInt32 × PolicySummary) := do
  let lists ← (root.objects "apps").foldlM (resolveTarget grow) ⟨[], [], 0⟩
  return (lists.kmod, lists.lsposed, {
    mode := readMode root
    configuredEntries := (root.getArray "apps").length
    rejectedCoreUids := lists.rejectedCoreUids
    kmodTargets := lists.kmod.length
    lsposedEntries := lists.lsposed.length
    portTargets := 0 })

/-! ### Port rules -/

/-- The protocol `add_port_rule` reads, `VH_PROTO_BOTH` when there is none. -/
def ruleProtocol (rule : JsonObject) : Except ResolveError UInt8 :=
  match rule.getString "protocol" with
  | none => .ok protoBoth
  | some protocol =>
    if strEq protocol "TCP" then .ok protoTcp
    else if strEq protocol "UDP" then .ok protoUdp
    else if strEq protocol "BOTH" then .ok protoBoth
    else .error ⟨.einval, "invalid port protocol"⟩

/-- `add_port_rule` on the rules of a target. -/
def addPortRule (rules : List PortRule) (rule : JsonObject) : Except ResolveError (List PortRule) :=
  let start := rule.getNumber "startPort"
  let stop := rule.getNumber "endPort"
  if rule.getBoolean "enabled" = some false then .ok rules
  else do
    rejectIf (start < 0 ∨ stop < 0 ∨ start > 65535 ∨ stop > 65535 ∨ start > stop)
      ⟨.einval, "invalid port range"⟩
    let proto ← ruleProtocol rule
    growArray grow rules.length "out of memory while adding port rule"
    return rules ++ [⟨UInt16.ofInt start, UInt16.ofInt stop, proto⟩]

/-- `set_full_range_port_rules`; its failure leaves no text. -/
def setFullRangePortRules (target : PortTarget) : Except ResolveError PortTarget := do
  growArray grow 0 ""
  return { target with mode := portPolicyDenyAll, rules := [⟨0, 65535, protoBoth⟩] }

structure Package where
  name : Option String
  userId : Int32
  uid : UInt32

def packageOf (app : JsonObject) : Package := ⟨app.getString "packageName", userOf app, uidOf app⟩

/-- Whether a rule of `portRules` is for the app: by uid, or by name and user. -/
def ruleMatches (package : Package) (rule : JsonObject) : Bool :=
  (uidOf rule ≠ 0 && package.uid ≠ 0 && uidOf rule == package.uid) ||
    match rule.getString "packageName", package.name with
    | some name, some packageName =>
      strEq name packageName && (!rule.hasValue "userId" || userOf rule == package.userId)
    | _, _ => false

def resolveNamedPortRules (portRules massRules : List JsonObject) (package : Package)
    (fullRangeFallback : Bool) (target : PortTarget) : Except ResolveError PortTarget := do
  let rules ← portRules.foldlM
    (fun rules rule => if ruleMatches package rule then addPortRule grow rules rule else .ok rules)
    target.rules
  let rules ← massRules.foldlM (addPortRule grow) rules
  let target := { target with rules := rules }
  if fullRangeFallback ∧ rules.length = 0 then setFullRangePortRules grow target
  else return target

/-! ### Complementing -/

def portRuleAllows (allowed : List PortRule) (port : ℕ) (protocol : UInt8) : Bool :=
  allowed.any fun rule => rule.startPort.toNat ≤ port && port ≤ rule.endPort.toNat &&
    (rule.protocol == protoBoth || rule.protocol == protocol)

/-- The `protocol` of the complementing loop: what to block at a port, `none` for `-1`. -/
def blockedProtocol (allowed : List PortRule) (port : ℕ) : Option UInt8 :=
  if port < 65536 then
    let tcpBlocked := !portRuleAllows allowed port protoTcp
    let udpBlocked := !portRuleAllows allowed port protoUdp
    if tcpBlocked && udpBlocked then some protoBoth
    else if tcpBlocked then some protoTcp
    else if udpBlocked then some protoUdp
    else none
  else none

/-- The variables of the complementing loop. `rangeStart` is read only while a range is open. -/
structure ComplementState where
  rangeStart : ℕ
  rangeProtocol : Option UInt8
  rules : List PortRule

/-- The body of the complementing loop. -/
def complementPort (allowed : List PortRule) (s : ComplementState) (port : ℕ) :
    Except ResolveError ComplementState :=
  let protocol := blockedProtocol allowed port
  if protocol ≠ s.rangeProtocol then
    match s.rangeProtocol with
    | none => .ok ⟨port, protocol, s.rules⟩
    | some rangeProtocol => do
      growArray grow s.rules.length "out of memory while complementing port rules"
      return ⟨port, protocol,
        s.rules ++ [⟨UInt16.ofNat s.rangeStart, UInt16.ofNat (port - 1), rangeProtocol⟩]⟩
  else .ok s

def resolveAllowlistExceptionRules (portRules massRules : List JsonObject) (package : Package) :
    Except ResolveError PortTarget := do
  let allowed ← resolveNamedPortRules grow portRules massRules package false ⟨0, 0, []⟩
  if allowed.rules.length = 0 then return ⟨0, portPolicyUnrestricted, []⟩
  else do
    let s ← (List.range 65537).foldlM (complementPort grow allowed.rules) ⟨0, none, []⟩
    return ⟨0, portPolicyRules, s.rules⟩

/-! ### Port targets -/

/-- The mode and rules of one app under the list mode. -/
def resolveAppRules (root : JsonObject) (mode : ListMode) (app : JsonObject) :
    Except ResolveError PortTarget :=
  let portRules := root.objects "portRules"
  let massRules := root.objects "massPortRules"
  match mode with
  | .allowlist => resolveAllowlistExceptionRules grow portRules massRules (packageOf app)
  | .blacklist => do
    let target ← resolveNamedPortRules grow portRules massRules (packageOf app) true ⟨0, 0, []⟩
    return { target with mode := portPolicyRules }

/-- The body of the loop in `vpnhide_resolve_port_rules`. -/
def resolvePortApp (root : JsonObject) (mode : ListMode) (result : List PortTarget) (app : JsonObject) :
    Except ResolveError (List PortTarget) :=
  if app.getBoolean "portHiding" ≠ some true then .ok result
  else if ¬ ConfiguredUid (uidOf app) then .ok result
  else if result.any (·.uid == uidOf app) then .ok result
  else do
    growArray grow result.length "cannot grow configured port set"
    let target ← resolveAppRules grow root mode app
    return result ++ [{ target with uid := uidOf app }]

/-- `vpnhide_resolve_port_rules`, its pointer arguments given. -/
def vpnhideResolvePortRules (root : JsonObject) (summary : PolicySummary) :
    Except ResolveError (List PortTarget × PolicySummary) := do
  let result ← (root.objects "apps").foldlM (resolvePortApp grow root summary.mode) []
  return (result, { summary with portTargets := result.length })

end Code

end VpnHide
