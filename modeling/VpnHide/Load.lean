import VpnHide.Resolved
import VpnHide.Pack

/-!
# Loading a configuration (`kmod/vpnhide_ctl.c`)

The `load` command up to the ioctl: global settings, per-app hook masks, the resolved lists, interface
prefixes. Whatever in-range configuration it is given, the input it hands to `pack_policy_v4` has the
shape the kernel accepts (`LoadedFrom.shape`).
-/

namespace VpnHide
open JsonObject

/-! ### The code -/

/-- `sort_uids`: the inner loop, over the first `n` pairs of neighbours. -/
def bubblePass : ℕ → List UInt32 → List UInt32
  | n + 1, a :: b :: rest => if a > b then b :: bubblePass n (a :: rest) else a :: bubblePass n (b :: rest)
  | _, arr => arr

def sortUids (arr : List UInt32) : List UInt32 :=
  (List.range (arr.length - 1)).foldl (fun arr i => bubblePass (arr.length - i - 1) arr) arr

def vpnhidePortHookMask : UInt32 := ((1 : UInt32) <<< 13) ||| ((1 : UInt32) <<< 16)

/-- The controller forces the hooks that the kernel forces. -/
example : vpnhidePortHookMask = portHookMask := by decide

/-- What `load` reads from `globalConfig`. -/
structure GlobalSettings where
  kernelMask : UInt32
  javaMask : UInt32
  debugLogging : Int32
  haveGlobalConfig : Bool
  allowlistMode : Bool

def readGlobalSettings (root : JsonObject) : GlobalSettings :=
  match root.getObject "globalConfig" with
  | none => ⟨0 ||| vpnhidePortHookMask, 0, 0, false, false⟩
  | some global => {
    kernelMask := UInt32.ofInt (global.getNumber "kernelHookMask") ||| vpnhidePortHookMask
    javaMask := UInt32.ofInt (global.getNumber "javaHookMask")
    debugLogging := Int32.ofInt (global.getNumber "debugLogging")
    haveGlobalConfig := true
    allowlistMode := match global.getString "listMode" with
      | none => false
      | some mode => strEq mode "ALLOWLIST" || strEq mode "allowlist" }

namespace GlobalSettings
variable (g : GlobalSettings)

def activeMask : UInt32 := if g.haveGlobalConfig then g.kernelMask else 0xFFFFFFFF

def activeJavaMask : UInt32 := if g.haveGlobalConfig then g.javaMask else 0xFFFFFFFF

/-- The hook mask entry of an app. In an allowlist the bits an app sets are exceptions. -/
def appHookMask (app : JsonObject) : AppHookMaskV3 :=
  let hasKernel := app.hasValue "kernelHookMask"
  let hasJava := app.hasValue "javaHookMask"
  let rawKernelMask := if hasKernel then UInt32.ofInt (app.getNumber "kernelHookMask") else 0
  let rawJavaMask := if hasJava then UInt32.ofInt (app.getNumber "javaHookMask") else 0
  { uid := uidOf app
    kernelMask := (if g.allowlistMode then g.activeMask &&& ~~~rawKernelMask else rawKernelMask) |||
      vpnhidePortHookMask
    javaMask := if g.allowlistMode then g.activeJavaMask &&& ~~~rawJavaMask else rawJavaMask
    hasKernelOverride := if hasKernel then 1 else 0
    hasJavaOverride := if hasJava then 1 else 0
    reserved := Vector.replicate 2 0 }

end GlobalSettings

/-- A name in a zeroed slot of `MAX_IFACE_LEN` bytes: `strncpy`, and the last byte cleared. -/
def ifaceName (s : String) : Vector UInt8 maxIfaceLen :=
  .ofFn fun i => if i.val < maxIfaceLen - 1 then (cString s).getD i.val 0 else 0

def readIfaces (root : JsonObject) : IfaceIoctlData :=
  let prefixes := root.getArray "ifacePrefixes"
  { count := Int32.ofNat (if prefixes.length < maxIfacePrefixes then prefixes.length else maxIfacePrefixes)
    prefixes := .ofFn fun i => match prefixes[i.val]?.bind Json.getString with
      | some name => ifaceName name
      | none => Vector.replicate maxIfaceLen 0 }

def vpnhideListModeName : ListMode → String
  | .allowlist => "ALLOWLIST"
  | .blacklist => "BLACKLIST"

def ResolveError.text (e : ResolveError) : String := if e.error.isEmpty then "unknown error" else e.error

section Code
variable (grow : ℕ → Except Errno Unit)

/-- `append_app_hook_mask`; failure is the return value `-1`. -/
def appendAppHookMask (vector : List AppHookMaskV3) (mask : AppHookMaskV3) :
    Except Unit (List AppHookMaskV3) :=
  if vector.any (·.uid == mask.uid) then .ok vector
  else do
    (grow vector.length).mapError fun _ => ()
    return vector ++ [mask]

def collectHookMask (g : GlobalSettings) (vector : List AppHookMaskV3) (app : JsonObject) :
    Except String (List AppHookMaskV3) :=
  if uidOf app ≠ 0 ∧ (app.hasValue "kernelHookMask" ∨ app.hasValue "javaHookMask") then
    (appendAppHookMask grow vector (g.appHookMask app)).mapError fun _ =>
      "Out of memory while building app hook masks"
  else .ok vector

/-- The `load` command up to `pack_policy_v4`; errors are the texts printed. -/
def loadInput (root : JsonObject) : Except String PolicyInput := do
  let global := readGlobalSettings root
  let masks ← (root.objects "apps").foldlM (collectHookMask grow global) []
  let (targets, lsposed, summary) ← (vpnhideResolveTargets grow root).mapError fun e =>
    "Policy rejected (" ++ vpnhideListModeName (readMode root) ++ "): " ++ e.text
  let (ports, _) ← (vpnhideResolvePortRules grow root summary).mapError fun e =>
    "Port policy rejected: " ++ e.text
  return {
    kmod := sortUids targets
    lsposed := sortUids lsposed
    ports := ports
    masks := masks
    ifaces := readIfaces root
    activeMask := global.activeMask
    javaMask := global.activeJavaMask
    debugEnabled := if global.haveGlobalConfig ∧ global.debugLogging ≠ 0 then 1 else 0
    matchMode := if global.allowlistMode then matchExclude else matchInclude }

end Code

def loadRequest (payload : List UInt8) : PolicyIoctl where
  abiVersion := policyAbiVersionV4
  payloadSize := UInt32.ofNat payload.length
  payloadPtr := .mapped payload
  expectedGeneration := 0

/-! ### Sorting -/

theorem bubblePass_perm (n : ℕ) (arr : List UInt32) : (bubblePass n arr).Perm arr := by
  fun_induction bubblePass n arr with
  | case1 n a b rest _ ih => exact (ih.cons b).trans (.swap a b rest)
  | case2 n a b rest _ ih => exact ih.cons a
  | case3 => exact .refl _

theorem sortUids_perm (arr : List UInt32) : (sortUids arr).Perm arr := by
  suffices h : ∀ (steps : List ℕ) (arr : List UInt32),
      (steps.foldl (fun arr i => bubblePass (arr.length - i - 1) arr) arr).Perm arr from h _ arr
  intro steps
  induction steps with
  | nil => exact fun arr => .refl arr
  | cons i rest ih => exact fun arr => (ih _).trans (bubblePass_perm _ _)

/-! ### Hook masks -/

variable {grow : ℕ → Except Errno Unit}

/-- Valid entries, at most one for each uid. -/
structure MasksShape (masks : List AppHookMaskV3) : Prop where
  valid : ∀ m ∈ masks, m.Valid
  nodup : (masks.map (·.uid)).Nodup

theorem GlobalSettings.appHookMask_valid {g : GlobalSettings} {app : JsonObject} (h : uidOf app ≠ 0) :
    (g.appHookMask app).Valid := by
  have hflag (b : Bool) : (if b then (1 : UInt8) else 0) ≤ 1 := by cases b <;> decide
  exact ⟨h, hflag _, hflag _, zeroed_replicate 2⟩

/-- The app states a hook mask, for the key `k`. -/
def picksMask (k : ℕ) (app : JsonObject) : Bool :=
  (uidOf app).toNat = k ∧ uidOf app ≠ 0 ∧ (app.hasValue "kernelHookMask" ∨ app.hasValue "javaHookMask")

/-- Every uid has the entry of the first app that states one for it. -/
abbrev MasksOf (g : GlobalSettings) (apps : List JsonObject) (masks : List AppHookMaskV3) : Prop :=
  FirstWins maskKey picksMask (fun app m => g.appHookMask app = m) apps masks

theorem collectHookMask_firstWins {g : GlobalSettings} {done : List JsonObject} {app : JsonObject}
    {masks masks' : List AppHookMaskV3} (h : MasksOf g done masks)
    (hstep : collectHookMask grow g masks app = .ok masks') : MasksOf g (done ++ [app]) masks' := by
  unfold collectHookMask at hstep
  by_cases hstates : uidOf app ≠ 0 ∧ (app.hasValue "kernelHookMask" ∨ app.hasValue "javaHookMask")
  case neg =>
    rw [if_neg hstates] at hstep
    obtain rfl := Except.ok.inj hstep
    exact h.skip fun k hk => absurd (of_decide_eq_true hk).2 hstates
  rw [if_pos hstates, mapError_eq_ok, appendAppHookMask] at hstep
  have hpick (k : ℕ) : picksMask k app ↔ k = maskKey (g.appHookMask app) := by
    rw [picksMask, decide_eq_true_eq, and_iff_left hstates]
    exact eq_comm
  have hany : masks.any (·.uid == (g.appHookMask app).uid) = true ↔
      lookupBy maskKey masks (maskKey (g.appHookMask app)) ≠ none := by
    rw [ne_eq, lookupBy_eq_none, List.any_eq_true]
    simp [maskKey, UInt32.toNat_inj]
  by_cases hold : masks.any (·.uid == (g.appHookMask app).uid)
  · rw [if_pos hold] at hstep
    obtain rfl := Except.ok.inj hstep
    exact h.skip fun k hk => (hpick k).1 hk ▸ hany.1 hold
  · rw [if_neg hold] at hstep
    obtain ⟨_, -, hstep⟩ := bind_eq_ok.1 hstep
    obtain rfl := Except.ok.inj hstep
    rw [hany, ne_eq, not_not] at hold
    exact h.add hpick hold rfl

theorem MasksOf.collect {g : GlobalSettings} {apps : List JsonObject} {masks : List AppHookMaskV3}
    (h : apps.foldlM (collectHookMask grow g) [] = .ok masks) : MasksOf g apps masks :=
  foldlM_invariant (P := MasksOf g) (fun _ _ _ _ _ hdone hstep => collectHookMask_firstWins hdone hstep) .nil h

theorem MasksOf.shape {g : GlobalSettings} {apps : List JsonObject} {masks : List AppHookMaskV3}
    (h : MasksOf g apps masks) : MasksShape masks where
  valid m hm := by
    obtain ⟨app, -, hpick, rfl⟩ := h.of_mem hm
    exact GlobalSettings.appHookMask_valid (of_decide_eq_true hpick).2.1
  nodup := nodup_map_maskKey.1 h.nodup

/-! ### The input of a load -/

theorem readGlobalSettings_allowlistMode (root : JsonObject) :
    (readGlobalSettings root).allowlistMode ↔ readMode root = .allowlist := by
  unfold readGlobalSettings readMode
  cases root.getObject "globalConfig" with
  | none => simp
  | some global =>
    cases hmode : global.getString "listMode" with
    | none => simp [hmode]
    | some mode => cases h : strEq mode "ALLOWLIST" <;> simp [hmode, h]

theorem readIfaces_count (root : JsonObject) : (readIfaces root).count.toUInt32.toNat ≤ maxIfacePrefixes := by
  have hle (n : ℕ) (h : n ≤ 32) : (Int32.ofNat n).toUInt32.toNat ≤ 32 := by
    have : (Int32.ofNat n).toUInt32.toNat = n % 2 ^ 32 := rfl
    omega
  refine hle _ ?_
  by_cases h : (root.getArray "ifacePrefixes").length < maxIfacePrefixes
  · rw [if_pos h]
    exact Nat.le_of_lt h
  · rw [if_neg h]
    exact Nat.le_refl _

/-- What `load` hands to `pack_policy_v4`. -/
structure LoadedFrom (root : JsonObject) (a : PolicyInput) : Prop where
  kmod : UidsOf "kmod" (root.objects "apps") a.kmod
  lsposed : UidsOf "lsposed" (root.objects "apps") a.lsposed
  ports : PortsOf root (readMode root) (root.objects "apps") a.ports
  masks : MasksShape a.masks
  ifaces : a.ifaces.count.toUInt32.toNat ≤ maxIfacePrefixes
  matchMode : a.matchMode = if readMode root = .allowlist then matchExclude else matchInclude

/-- The same in terms of what the code reads. -/
structure LoadedRead (grow : ℕ → Except Errno Unit) (root : JsonObject) (a : PolicyInput) : Prop where
  kmod : UidsRead "kmod" (root.objects "apps") a.kmod
  lsposed : UidsRead "lsposed" (root.objects "apps") a.lsposed
  ports : FirstWins PortTarget.key picksPorts (MadePorts grow root (readMode root)) (root.objects "apps") a.ports
  masks : MasksOf (readGlobalSettings root) (root.objects "apps") a.masks
  ifaces : a.ifaces = readIfaces root
  activeMask : a.activeMask = (readGlobalSettings root).activeMask
  javaMask : a.javaMask = (readGlobalSettings root).activeJavaMask
  matchMode : a.matchMode = if (readGlobalSettings root).allowlistMode then matchExclude else matchInclude

theorem UidsRead.perm {flag : String} {apps : List JsonObject} {uids uids' : List UInt32}
    (h : UidsRead flag apps uids) (hp : uids'.Perm uids) : UidsRead flag apps uids' :=
  ⟨fun uid => by rw [hp.mem_iff, h.mem], hp.nodup_iff.2 h.nodup⟩

theorem loadInput_read {root : JsonObject} {a : PolicyInput} (h : loadInput grow root = .ok a) :
    LoadedRead grow root a := by
  obtain ⟨masks, hmasks, h⟩ := bind_eq_ok.1 h
  obtain ⟨⟨targets, lsposed, summary⟩, htargets, h⟩ := bind_eq_ok.1 h
  obtain ⟨⟨ports, _⟩, hports, h⟩ := bind_eq_ok.1 h
  obtain rfl := Except.ok.inj h
  obtain ⟨hkmod, hlsposed, hmode⟩ := vpnhideResolveTargets_read (mapError_eq_ok.1 htargets)
  have hports := vpnhideResolvePortRules_firstWins (mapError_eq_ok.1 hports)
  rw [hmode] at hports
  exact ⟨hkmod.perm (sortUids_perm _), hlsposed.perm (sortUids_perm _), hports, MasksOf.collect hmasks, rfl, rfl,
    rfl, rfl⟩

theorem loadInput_ok {root : JsonObject} {a : PolicyInput} (hrange : root.InRange)
    (h : loadInput grow root = .ok a) : LoadedFrom root a := by
  have hread := loadInput_read h
  exact {
    kmod := hread.kmod.uidsOf hrange.apps
    lsposed := hread.lsposed.uidsOf hrange.apps
    ports := .of_firstWins hrange hrange.apps hread.ports
    masks := hread.masks.shape
    ifaces := hread.ifaces ▸ readIfaces_count root
    matchMode := hread.matchMode.trans (if_congr (readGlobalSettings_allowlistMode root) rfl rfl) }

/-- `load` hands over nothing that the kernel would reject. -/
theorem LoadedFrom.shape {root : JsonObject} {a : PolicyInput} (h : LoadedFrom root a) : a.Shape where
  kmod_ne := h.kmod.zero_notMem
  kmod_nodup := h.kmod.nodup
  lsposed_ne := h.lsposed.zero_notMem
  lsposed_nodup := h.lsposed.nodup
  ports_ne t ht := (h.ports.configured t ht).ne_zero
  ports_nodup := h.ports.nodup
  modes t ht := (h.ports.valid t ht).mode
  rules t ht := (h.ports.valid t ht).rules
  masks := h.masks.valid
  masks_nodup := h.masks.nodup
  ifaces := h.ifaces
  matchMode := by
    rw [h.matchMode]
    split <;> decide

end VpnHide
