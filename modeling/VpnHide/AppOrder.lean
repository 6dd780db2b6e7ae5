import VpnHide.EndToEnd

/-!
# The order of the apps

Several apps may share a uid. The uid lists are unions, but a uid gets the hook masks and the port target of
the first app that asks for them, so the policy depends on the order of `apps` (`load_apps_order_matters`)
exactly through those first apps (`load_apps_order`).
-/

namespace VpnHide
open JsonObject

variable {grow : ℕ → Except Errno Unit} {root root' : JsonObject} {uid : UInt32}

/-- The same configuration with the elements of `apps` in another order. -/
structure AppsPermuted (root root' : JsonObject) : Prop where
  apps : (root.getArray "apps").Perm (root'.getArray "apps")
  others : ∀ name, name ≠ "apps" → root'.getValue name = root.getValue name

/-- No allocation fails. -/
def neverFails : ℕ → Except Errno Unit := fun _ => .ok ()

/-- The two apps state the same hook masks. -/
def SameMasks (app app' : JsonObject) : Prop :=
  ∀ name, name = "kernelHookMask" ∨ name = "javaHookMask" →
    app.hasValue name = app'.hasValue name ∧ app.getNumber name = app'.getNumber name

/-- The same rules of `portRules` are for both apps. -/
def SameRules (root app app' : JsonObject) : Prop :=
  ∀ rule ∈ root.objects "portRules", ruleMatches (packageOf app) rule = ruleMatches (packageOf app') rule

/-- Where both orders have a first app with a mask for the uid, these state the same masks. -/
def MaskOrderAgrees (root root' : JsonObject) (uid : UInt32) : Prop :=
  ∀ app app', (root.objects "apps").find? (picksMask uid.toNat) = some app →
    (root'.objects "apps").find? (picksMask uid.toNat) = some app' → SameMasks app app'

/-- Where both orders have a first app that hides ports for the uid, the same rules are for both. -/
def PortOrderAgrees (root root' : JsonObject) (uid : UInt32) : Prop :=
  ∀ app app', (root.objects "apps").find? (picksPorts uid.toNat) = some app →
    (root'.objects "apps").find? (picksPorts uid.toNat) = some app' → SameRules root app app'

/-! ### Allocation decides only between success and failure -/

theorem addPortRule_neverFails {rules rules' : List PortRule} {rule : JsonObject}
    (h : addPortRule grow rules rule = .ok rules') : addPortRule neverFails rules rule = .ok rules' := by
  unfold addPortRule at h ⊢
  by_cases hoff : rule.getBoolean "enabled" = some false
  · rw [if_pos hoff] at h ⊢
    exact h
  · rw [if_neg hoff, bind_eq_ok] at h ⊢
    obtain ⟨u, hrange, h⟩ := h
    obtain ⟨proto, hproto, h⟩ := bind_eq_ok.1 h
    obtain ⟨_, -, h⟩ := bind_eq_ok.1 h
    exact ⟨u, hrange, bind_eq_ok.2 ⟨proto, hproto, h⟩⟩

theorem resolveNamedPortRules_neverFails {portRules massRules : List JsonObject} {package : Package}
    {fallback : Bool} {target t : PortTarget}
    (h : resolveNamedPortRules grow portRules massRules package fallback target = .ok t) :
    resolveNamedPortRules neverFails portRules massRules package fallback target = .ok t := by
  obtain ⟨named, hnamed, h⟩ := bind_eq_ok.1 h
  obtain ⟨rules, hrules, h⟩ := bind_eq_ok.1 h
  refine bind_eq_ok.2 ⟨named, foldlM_ok_mono ?_ hnamed, bind_eq_ok.2 ⟨rules,
    foldlM_ok_mono (fun _ _ _ => addPortRule_neverFails) hrules, ?_⟩⟩
  · intro rules rule rules' hstep
    split_ifs at hstep ⊢
    · exact addPortRule_neverFails hstep
    · exact hstep
  · dsimp only at h ⊢
    split_ifs at h ⊢
    · obtain ⟨_, -, h⟩ := bind_eq_ok.1 h
      exact h
    · exact h

theorem complementPort_neverFails {allowed : List PortRule} {s s' : ComplementState} {port : ℕ}
    (h : complementPort grow allowed s port = .ok s') : complementPort neverFails allowed s port = .ok s' := by
  unfold complementPort at h ⊢
  dsimp only at h ⊢
  split_ifs at h ⊢
  · cases hopen : s.rangeProtocol with
    | none =>
      simp only [hopen] at h ⊢
      exact h
    | some rangeProtocol =>
      simp only [hopen] at h ⊢
      obtain ⟨_, -, h⟩ := bind_eq_ok.1 h
      exact h
  · exact h

theorem resolveAppRules_neverFails {mode : ListMode} {app : JsonObject} {t : PortTarget}
    (h : resolveAppRules grow root mode app = .ok t) : resolveAppRules neverFails root mode app = .ok t := by
  cases mode with
  | blacklist =>
    obtain ⟨named, hnamed, h⟩ := bind_eq_ok.1 h
    exact bind_eq_ok.2 ⟨named, resolveNamedPortRules_neverFails hnamed, h⟩
  | allowlist =>
    obtain ⟨allowed, hallowed, h⟩ := bind_eq_ok.1 h
    refine bind_eq_ok.2 ⟨allowed, resolveNamedPortRules_neverFails hallowed, ?_⟩
    split_ifs at h ⊢
    · exact h
    · obtain ⟨s, hs, h⟩ := bind_eq_ok.1 h
      exact bind_eq_ok.2 ⟨s, foldlM_ok_mono (fun _ _ _ => complementPort_neverFails) hs, h⟩

/-! ### An app counts through its masks and its rules -/

theorem SameMasks.appHookMask {app app' : JsonObject} (h : SameMasks app app') (huid : uidOf app = uidOf app')
    (g : GlobalSettings) : g.appHookMask app = g.appHookMask app' := by
  obtain ⟨hk, hkn⟩ := h "kernelHookMask" (.inl rfl)
  obtain ⟨hj, hjn⟩ := h "javaHookMask" (.inr rfl)
  simp only [GlobalSettings.appHookMask, hk, hkn, hj, hjn, huid]

theorem resolveNamedPortRules_congr {portRules massRules : List JsonObject} {package package' : Package}
    (h : ∀ rule ∈ portRules, ruleMatches package rule = ruleMatches package' rule) (fallback : Bool)
    (target : PortTarget) :
    resolveNamedPortRules grow portRules massRules package fallback target =
      resolveNamedPortRules grow portRules massRules package' fallback target := by
  have hfold (rules : List PortRule) :
      portRules.foldlM (fun rules rule => if ruleMatches package rule then addPortRule grow rules rule else .ok rules)
          rules =
        portRules.foldlM (fun rules rule => if ruleMatches package' rule then addPortRule grow rules rule
          else .ok rules) rules := by
    induction portRules generalizing rules with
    | nil => rfl
    | cons rule rest ih =>
      obtain ⟨hrule, hrest⟩ := List.forall_mem_cons.1 h
      rw [List.foldlM_cons, List.foldlM_cons, hrule]
      exact bind_congr_ok fun rules' _ => ih hrest rules'
  unfold resolveNamedPortRules
  rw [hfold]

theorem resolveAppRules_congr {app app' : JsonObject} (h : SameRules root app app') (mode : ListMode) :
    resolveAppRules grow root mode app = resolveAppRules grow root mode app' := by
  cases mode with
  | blacklist =>
    show resolveNamedPortRules .. >>= _ = resolveNamedPortRules .. >>= _
    rw [resolveNamedPortRules_congr h]
  | allowlist =>
    show resolveAllowlistExceptionRules .. = resolveAllowlistExceptionRules ..
    unfold resolveAllowlistExceptionRules
    rw [resolveNamedPortRules_congr h]

/-! ### The permuted configuration -/

namespace AppsPermuted
variable (hp : AppsPermuted root root')
include hp

theorem objects_apps : (root.objects "apps").Perm (root'.objects "apps") := hp.apps.filterMap _

theorem objects {name : String} (h : name ≠ "apps") : root'.objects name = root.objects name := by
  rw [JsonObject.objects, JsonObject.objects, getArray, getArray, hp.others name h]

theorem getObject {name : String} (h : name ≠ "apps") : root'.getObject name = root.getObject name := by
  rw [JsonObject.getObject, JsonObject.getObject, hp.others name h]

theorem readMode : VpnHide.readMode root' = VpnHide.readMode root := by
  rw [VpnHide.readMode, VpnHide.readMode, hp.getObject (by decide)]

theorem readGlobalSettings : VpnHide.readGlobalSettings root' = VpnHide.readGlobalSettings root := by
  rw [VpnHide.readGlobalSettings, VpnHide.readGlobalSettings, hp.getObject (by decide)]

theorem resolveAppRules (mode : ListMode) (app : JsonObject) :
    VpnHide.resolveAppRules grow root' mode app = VpnHide.resolveAppRules grow root mode app := by
  unfold VpnHide.resolveAppRules
  rw [hp.objects (by decide), hp.objects (by decide)]

end AppsPermuted

/-! ### Loading without allocation failures -/

theorem addFlagged_neverFails (app : JsonObject) (flag error : String) (uids : List UInt32) :
    ∃ uids', addFlagged neverFails app flag error uids = .ok uids' := by
  unfold addFlagged addUidDistinct
  split_ifs <;> exact ⟨_, rfl⟩

theorem resolveTarget_neverFails (lists : TargetLists) (app : JsonObject) :
    ∃ lists', resolveTarget neverFails lists app = .ok lists' := by
  unfold resolveTarget
  by_cases huid : ConfiguredUid (uidOf app)
  · obtain ⟨kmod, hk⟩ := addFlagged_neverFails app "kmod" "cannot grow configured kernel UID set" lists.kmod
    obtain ⟨lsposed, hl⟩ :=
      addFlagged_neverFails app "lsposed" "cannot grow configured framework UID set" lists.lsposed
    rw [if_neg (not_not.2 huid)]
    exact ⟨_, bind_eq_ok.2 ⟨kmod, hk, bind_eq_ok.2 ⟨lsposed, hl, rfl⟩⟩⟩
  · rw [if_pos huid]
    exact ⟨_, rfl⟩

theorem collectHookMask_neverFails (g : GlobalSettings) (masks : List AppHookMaskV3) (app : JsonObject) :
    ∃ masks', collectHookMask neverFails g masks app = .ok masks' := by
  unfold collectHookMask appendAppHookMask
  split_ifs <;> exact ⟨_, rfl⟩

theorem resolvePortApp_neverFails {mode : ListMode} {ports : List PortTarget} {app : JsonObject}
    (h : picksPorts (uidOf app).toNat app → lookupBy PortTarget.key ports (uidOf app).toNat = none →
      ∃ t, resolveAppRules neverFails root mode app = .ok t) :
    ∃ ports', resolvePortApp neverFails root mode ports app = .ok ports' := by
  unfold resolvePortApp
  by_cases hset : app.getBoolean "portHiding" = some true
  case neg => exact ⟨ports, if_pos hset⟩
  rw [if_neg (not_not.2 hset)]
  by_cases huid : ConfiguredUid (uidOf app)
  case neg => exact ⟨ports, if_pos huid⟩
  rw [if_neg (not_not.2 huid)]
  by_cases hold : ports.any (·.uid == uidOf app)
  · exact ⟨ports, if_pos hold⟩
  · rw [if_neg hold]
    rw [any_uid_iff, ne_eq, not_not] at hold
    obtain ⟨t, ht⟩ := h (decide_eq_true ⟨rfl, huid, hset⟩) hold
    exact ⟨_, bind_eq_ok.2 ⟨(), rfl, bind_eq_ok.2 ⟨t, ht, rfl⟩⟩⟩

/-- The loop over the apps resolves the rules of the first app of each uid and of no other. -/
theorem resolvePortApps_neverFails {mode : ListMode} {apps : List JsonObject}
    (h : ∀ uid app, apps.find? (picksPorts uid) = some app → ∃ t, resolveAppRules neverFails root mode app = .ok t) :
    ∃ ports, apps.foldlM (resolvePortApp neverFails root mode) [] = .ok ports := by
  refine foldlM_progress (P := FirstWins PortTarget.key picksPorts (MadePorts neverFails root mode)) ?_ .nil
  intro done app rest ports happs hdone
  obtain ⟨ports', hports'⟩ : ∃ ports', resolvePortApp neverFails root mode ports app = .ok ports' := by
    refine resolvePortApp_neverFails fun hpick hnew => h (uidOf app).toNat app ?_
    have hbefore : done.find? (picksPorts (uidOf app).toNat) = none := by
      cases hd : done.find? (picksPorts (uidOf app).toNat) with
      | none => rfl
      | some first =>
        obtain ⟨t, ht, -⟩ := hdone.found _ first hd
        rw [hnew] at ht
        cases ht
    rw [happs, List.find?_append, hbefore, Option.none_or, List.find?_cons_of_pos hpick]
  exact ⟨ports', hports', resolvePortApp_firstWins hdone hports'⟩

theorem loadInput_neverFails
    (h : ∀ uid app, (root.objects "apps").find? (picksPorts uid) = some app →
      ∃ t, resolveAppRules neverFails root (readMode root) app = .ok t) :
    ∃ a, loadInput neverFails root = .ok a := by
  obtain ⟨masks, hmasks⟩ : ∃ masks,
      (root.objects "apps").foldlM (collectHookMask neverFails (readGlobalSettings root)) [] = .ok masks :=
    foldlM_progress (P := fun _ _ => True)
    (fun _ app _ masks _ _ => (collectHookMask_neverFails _ masks app).imp fun _ hm => ⟨hm, trivial⟩) trivial
  obtain ⟨lists, hlists⟩ : ∃ lists, (root.objects "apps").foldlM (resolveTarget neverFails) ⟨[], [], 0⟩ = .ok lists :=
    foldlM_progress (P := fun _ _ => True)
    (fun _ app _ lists _ _ => (resolveTarget_neverFails lists app).imp fun _ hl => ⟨hl, trivial⟩) trivial
  obtain ⟨ports, hports⟩ := resolvePortApps_neverFails h
  exact ⟨_, bind_eq_ok.2 ⟨masks, hmasks,
    bind_eq_ok.2 ⟨_, mapError_eq_ok.2 (bind_eq_ok.2 ⟨lists, hlists, rfl⟩),
      bind_eq_ok.2 ⟨_, mapError_eq_ok.2 (bind_eq_ok.2 ⟨ports, hports, rfl⟩), rfl⟩⟩⟩⟩

/-! ### Two orders -/

theorem find?_perm_isSome {α : Type} {p : α → Bool} {xs ys : List α} (h : xs.Perm ys) {y : α}
    (hy : ys.find? p = some y) : ∃ x, xs.find? p = some x := by
  cases hx : xs.find? p with
  | some x => exact ⟨x, rfl⟩
  | none =>
    have hmem := h.mem_iff.2 (List.mem_of_find?_eq_some hy)
    exact absurd (List.find?_some hy) (List.find?_eq_none.1 hx y hmem)

theorem picksMask_uid {k : ℕ} {app : JsonObject} (h : picksMask k app = true) : (uidOf app).toNat = k :=
  (of_decide_eq_true h).1

theorem picksPorts_uid {k : ℕ} {app : JsonObject} (h : picksPorts k app = true) : (uidOf app).toNat = k :=
  (of_decide_eq_true h).1

theorem uidOf_eq_of_find? {picks : JsonObject → Bool} {k : ℕ}
    (hpicks : ∀ {app}, picks app = true → (uidOf app).toNat = k)
    {apps apps' : List JsonObject} {app app' : JsonObject} (h : apps.find? picks = some app)
    (h' : apps'.find? picks = some app') : uidOf app = uidOf app' :=
  UInt32.toNat_inj.1 ((hpicks (List.find?_some h)).trans (hpicks (List.find?_some h')).symm)

theorem MadePorts.resolves {app app' : JsonObject} {t : PortTarget} (h : MadePorts grow root (readMode root) app t)
    (hp : AppsPermuted root root') (hsame : SameRules root app app') (huid : uidOf app = uidOf app') :
    MadePorts neverFails root' (readMode root') app' t := by
  obtain ⟨t₀, ht₀, rfl⟩ := h
  refine ⟨t₀, ?_, by rw [huid]⟩
  rw [hp.readMode, hp.resolveAppRules, ← resolveAppRules_congr hsame]
  exact resolveAppRules_neverFails ht₀

theorem MadePorts.unique {mode : ListMode} {app : JsonObject} {t t' : PortTarget}
    (h : MadePorts grow root mode app t) (h' : MadePorts neverFails root mode app t') : t = t' := by
  obtain ⟨t₀, ht₀, rfl⟩ := h
  obtain ⟨t₁, ht₁, rfl⟩ := h'
  rw [resolveAppRules_neverFails ht₀] at ht₁
  rw [Except.ok.inj ht₁]

/-- The answers of a policy do not depend on the order of the apps, except through the first app of each uid that states
a hook mask and the first that hides ports. The targets and the uids of the framework list never depend on it; the hook
masks of a uid are the same if the first apps of the two orders state the same masks, and the blocked ports are the same
if the same rules are for both. If that holds for every uid, one order loads if the other one does. -/
theorem load_apps_order (hp : AppsPermuted root root') {a : PolicyInput} (h : loadInput grow root = .ok a) :
    (∀ grow' a', loadInput grow' root' = .ok a' → ∀ uid,
      (a.policy.Targets uid ↔ a'.policy.Targets uid) ∧
      (Policy.Selects a.policy.lsposed a.policy.lsposedMode uid ↔
        Policy.Selects a'.policy.lsposed a'.policy.lsposedMode uid) ∧
      (MaskOrderAgrees root root' uid → a.policy.overrides uid = a'.policy.overrides uid ∧
        a.policy.javaHooks = a'.policy.javaHooks ∧ a.policy.hookMask uid = a'.policy.hookMask uid) ∧
      (PortOrderAgrees root root' uid → ∀ port proto,
        a.policy.Blocks uid port proto ↔ a'.policy.Blocks uid port proto)) ∧
    ((∀ uid, PortOrderAgrees root root' uid) → ∃ a', loadInput neverFails root' = .ok a') := by
  have hread := loadInput_read h
  have hperm := hp.objects_apps
  constructor
  · intro grow' a' h' uid
    have hread' := loadInput_read h'
    have hmode : a'.matchMode = a.matchMode := by
      rw [hread.matchMode, hread'.matchMode, hp.readGlobalSettings]
    have hactive : a'.activeMask = a.activeMask := by
      rw [hread.activeMask, hread'.activeMask, hp.readGlobalSettings]
    refine ⟨?_, ?_, fun hagree => ?_, fun hagree port proto => ?_⟩
    · -- the uid lists are unions over the apps
      have hmem : uid ∈ a.policy.kmod ↔ uid ∈ a'.policy.kmod := by
        refine (hread.kmod.mem uid).trans (Iff.trans ?_ (hread'.kmod.mem uid).symm)
        simp only [hperm.mem_iff]
      have hkmodMode : a'.policy.kmodMode = a.policy.kmodMode := hmode
      rw [Policy.Targets, Policy.Targets, Policy.Selects, Policy.Selects, hmem, hkmodMode]
    · have hmem : uid ∈ a.policy.lsposed ↔ uid ∈ a'.policy.lsposed := by
        refine (hread.lsposed.mem uid).trans (Iff.trans ?_ (hread'.lsposed.mem uid).symm)
        simp only [hperm.mem_iff]
      have hlsposedMode : a'.policy.lsposedMode = a.policy.lsposedMode := hmode
      rw [Policy.Selects, Policy.Selects, hmem, hlsposedMode]
    · -- the first app of the uid that states a mask decides, and the two orders agree on it
      have hlookup : lookupBy maskKey a.masks uid.toNat = lookupBy maskKey a'.masks uid.toNat := by
        refine hread.masks.agree hread'.masks hperm fun app app' happ happ' m m' hm hm' => ?_
        have huid : uidOf app = uidOf app' := uidOf_eq_of_find? picksMask_uid happ happ'
        rw [← hm, ← hm', hp.readGlobalSettings]
        exact (hagree app app' happ happ').appHookMask huid _
      have hover : a.policy.overrides uid = a'.policy.overrides uid :=
        congrArg (Option.map forcePortHooks) hlookup
      refine ⟨hover, ?_, ?_⟩
      · show a.javaMask = a'.javaMask
        rw [hread.javaMask, hread'.javaMask, hp.readGlobalSettings]
      · have hhooks : a.policy.activeHooks = a'.policy.activeHooks := congrArg (· ||| portHookMask) hactive.symm
        rw [Policy.hookMask, Policy.hookMask, hover, hhooks]
    · have hlookup : lookupBy PortTarget.key a.ports uid.toNat = lookupBy PortTarget.key a'.ports uid.toNat := by
        refine hread.ports.agree hread'.ports hperm fun app app' happ happ' t t' ht ht' => ?_
        have huid : uidOf app = uidOf app' := uidOf_eq_of_find? picksPorts_uid happ happ'
        exact (ht'.unique (ht.resolves hp (hagree app app' happ happ') huid)).symm
      have hports : a.policy.ports uid = a'.policy.ports uid := by
        show Option.map _ (lookupBy PortTarget.key a.ports uid.toNat) = _
        rw [hlookup]
        rfl
      have hportMode : a.policy.portMode = a'.policy.portMode := hmode.symm
      rw [Policy.Blocks, Policy.Blocks, hports, hportMode]
  · intro hagree
    refine loadInput_neverFails fun k app' happ' => ?_
    obtain ⟨app, happ⟩ := find?_perm_isSome hperm happ'
    obtain ⟨t, -, ht⟩ := hread.ports.found k app happ
    have huid : uidOf app = uidOf app' := uidOf_eq_of_find? picksPorts_uid happ happ'
    obtain rfl := picksPorts_uid (List.find?_some happ)
    obtain ⟨t₀, ht₀, -⟩ := ht.resolves hp (hagree _ app app' happ happ') huid
    exact ⟨t₀, ht₀⟩

/-- Two packages that share a uid, each with its own hook mask and its own rule. -/
def sharedUidConfig (apps : List Json) : JsonObject :=
  [("apps", .array apps),
   ("portRules", .array [
      .object [("packageName", .string "com.example.web"), ("startPort", .number 8000), ("endPort", .number 9000)],
      .object [("packageName", .string "com.example.mail"), ("startPort", .number 143), ("endPort", .number 143)]])]

def sharedApp (packageName : String) (kernelHookMask : ℤ) : Json :=
  .object [("uid", .number 10123), ("packageName", .string packageName), ("kmod", .boolean true),
    ("portHiding", .boolean true), ("kernelHookMask", .number kernelHookMask)]

theorem sharedUidConfig_permuted {apps apps' : List Json} (h : apps.Perm apps') :
    AppsPermuted (sharedUidConfig apps) (sharedUidConfig apps') where
  apps := h
  others name hname := by
    have hne : (name == "apps") = false := beq_eq_false_iff_ne.2 hname
    simp [sharedUidConfig, getValue, List.lookup_cons, hne]

theorem load_apps_order_sample :
    let web := sharedApp "com.example.web" 1
    let mail := sharedApp "com.example.mail" 2
    ∃ a a', loadInput neverFails (sharedUidConfig [web, mail, .null]) = .ok a ∧
      loadInput neverFails (sharedUidConfig [.null, web, mail]) = .ok a' ∧
      (a.policy.Targets 10123 ↔ a'.policy.Targets 10123) ∧
      (Policy.Selects a.policy.lsposed a.policy.lsposedMode 10123 ↔
        Policy.Selects a'.policy.lsposed a'.policy.lsposedMode 10123) ∧
      a.policy.hookMask 10123 = a'.policy.hookMask 10123 ∧
      (a.policy.Blocks 10123 8080 protoTcp ↔ a'.policy.Blocks 10123 8080 protoTcp) := by
  intro web mail
  have hp : AppsPermuted (sharedUidConfig [web, mail, .null]) (sharedUidConfig [.null, web, mail]) :=
    sharedUidConfig_permuted (@List.perm_append_comm _ [web, mail] [.null])
  have happs : (sharedUidConfig [web, mail, .null]).objects "apps" =
      (sharedUidConfig [.null, web, mail]).objects "apps" := rfl
  have hmask (uid : UInt32) : MaskOrderAgrees (sharedUidConfig [web, mail, .null])
      (sharedUidConfig [.null, web, mail]) uid := by
    intro app app' h h'
    rw [happs, h'] at h
    cases h
    exact fun _ _ => ⟨rfl, rfl⟩
  have hport (uid : UInt32) : PortOrderAgrees (sharedUidConfig [web, mail, .null])
      (sharedUidConfig [.null, web, mail]) uid := by
    intro app app' h h'
    rw [happs, h'] at h
    cases h
    exact fun _ _ => rfl
  have hrun : (loadInput neverFails (sharedUidConfig [web, mail, .null])).toBool = true := by decide +kernel
  cases h : loadInput neverFails (sharedUidConfig [web, mail, .null]) with
  | error e =>
    rw [h] at hrun
    cases hrun
  | ok a =>
    obtain ⟨hsame, hloads⟩ := load_apps_order hp h
    obtain ⟨a', h'⟩ := hloads hport
    obtain ⟨htargets, hlsposed, hmasks, hports⟩ := hsame neverFails a' h' 10123
    exact ⟨a, a', rfl, h', htargets, hlsposed, (hmasks (hmask _)).2.2, hports (hport _) 8080 protoTcp⟩

/-- The order matters: with the web package first the shared uid may not reach port 8080, with the mail
package first it may, and its hook mask is another one. -/
theorem load_apps_order_matters :
    let web := sharedApp "com.example.web" 1
    let mail := sharedApp "com.example.mail" 2
    AppsPermuted (sharedUidConfig [web, mail]) (sharedUidConfig [mail, web]) ∧
    ∃ a a', loadInput neverFails (sharedUidConfig [web, mail]) = .ok a ∧
      loadInput neverFails (sharedUidConfig [mail, web]) = .ok a' ∧
      a.policy.hookMask 10123 ≠ a'.policy.hookMask 10123 ∧
      a.policy.Blocks 10123 8080 protoTcp ∧ ¬ a'.policy.Blocks 10123 8080 protoTcp := by
  intro web mail
  refine ⟨sharedUidConfig_permuted (.swap ..), ?_⟩
  have hrun : (match loadInput neverFails (sharedUidConfig [web, mail]),
      loadInput neverFails (sharedUidConfig [mail, web]) with
      | .ok a, .ok a' => decide (a.policy.hookMask 10123 ≠ a'.policy.hookMask 10123)
      | _, _ => false) = true := by
    decide +kernel
  cases h : loadInput neverFails (sharedUidConfig [web, mail]) with
  | error e => simp [h] at hrun
  | ok a =>
    cases h' : loadInput neverFails (sharedUidConfig [mail, web]) with
    | error e => simp [h, h'] at hrun
    | ok a' =>
      rw [h, h'] at hrun
      refine ⟨a, a', rfl, rfl, of_decide_eq_true hrun, ?_, ?_⟩
      · rw [(loadInput_ok (by decide +kernel) h).blocks_iff (by decide) (.inl rfl)]
        decide +kernel
      · rw [(loadInput_ok (by decide +kernel) h').blocks_iff (by decide) (.inl rfl)]
        decide +kernel

end VpnHide
