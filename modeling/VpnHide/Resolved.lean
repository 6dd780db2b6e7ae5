import VpnHide.RuleSets
import VpnHide.Lib.FirstWins
import Mathlib.Data.List.Find

/-!
# The lists of a resolved configuration

What the two resolution loops leave behind, over all apps passed so far: each uid list holds the
configured uids of the apps that set its flag, once each (`UidsOf`), and every configured uid with an app
that asks for port hiding has the target of the first such app (`PortsOf`). Both are first shown for the uids
as the code reads them; for ids in range these are the uids the document states.
-/

namespace VpnHide
open JsonObject

variable {grow : ℕ → Except Errno Unit}

/-! ### Uid lists -/

/-- The list holds the configured uids of the apps that set the flag. -/
structure UidsOf (flag : String) (apps : List JsonObject) (uids : List UInt32) : Prop where
  mem : ∀ uid, uid ∈ uids ↔ ConfiguredUid uid ∧ ∃ app ∈ apps, app.HasUid uid ∧ app.Sets flag
  nodup : uids.Nodup

theorem ConfiguredUid.ne_zero {uid : UInt32} (h : ConfiguredUid uid) : uid ≠ 0 := fun h0 => h (.inl h0)

theorem UidsOf.zero_notMem {flag : String} {apps : List JsonObject} {uids : List UInt32}
    (h : UidsOf flag apps uids) : 0 ∉ uids :=
  fun h0 => ((h.mem 0).1 h0).1.ne_zero rfl

theorem addUidDistinct_ok {uids uids' : List UInt32} {uid : UInt32} (hne : uid ≠ 0)
    (h : addUidDistinct grow uids uid = .ok uids') :
    (∀ x, x ∈ uids' ↔ x ∈ uids ∨ x = uid) ∧ (uids.Nodup → uids'.Nodup) := by
  unfold addUidDistinct at h
  rw [if_neg hne] at h
  split_ifs at h with hmem
  · obtain rfl := Except.ok.inj h
    refine ⟨fun x => ⟨.inl, ?_⟩, id⟩
    rintro (hx | rfl)
    · exact hx
    · exact hmem
  · obtain ⟨_, -, h⟩ := bind_eq_ok.1 h
    obtain rfl := Except.ok.inj h
    refine ⟨fun x => by simp, fun hn => ?_⟩
    simpa [List.nodup_append] using ⟨hn, fun x hx heq => hmem (heq ▸ hx)⟩

/-- The same for the uids as they are read. -/
structure UidsRead (flag : String) (apps : List JsonObject) (uids : List UInt32) : Prop where
  mem : ∀ uid, uid ∈ uids ↔ ConfiguredUid uid ∧ ∃ app ∈ apps, uidOf app = uid ∧ app.Sets flag
  nodup : uids.Nodup

namespace UidsRead
variable {flag : String} {done : List JsonObject} {uids : List UInt32} {app : JsonObject}

theorem nil : UidsRead flag [] [] := ⟨by simp, List.nodup_nil⟩

theorem pass (h : UidsRead flag done uids) (huid : ¬ ConfiguredUid (uidOf app)) :
    UidsRead flag (done ++ [app]) uids where
  nodup := h.nodup
  mem uid := by
    rw [h.mem]
    refine and_congr_right fun hc => ?_
    have hother : uidOf app ≠ uid := fun heq => huid (heq ▸ hc)
    simp [List.mem_append, or_and_right, exists_or, hother]

theorem add {error : String} {uids' : List UInt32} (h : UidsRead flag done uids)
    (huid : ConfiguredUid (uidOf app)) (hadd : addFlagged grow app flag error uids = .ok uids') :
    UidsRead flag (done ++ [app]) uids' := by
  unfold addFlagged at hadd
  split_ifs at hadd with hset
  · obtain ⟨hmem, hnodup⟩ := addUidDistinct_ok huid.ne_zero (mapError_eq_ok.1 hadd)
    refine ⟨fun uid => ?_, hnodup h.nodup⟩
    have hlast : uid = uidOf app ↔ ConfiguredUid uid ∧ uidOf app = uid ∧ app.Sets flag := by
      refine ⟨?_, fun h => h.2.1.symm⟩
      rintro rfl
      exact ⟨huid, rfl, hset⟩
    rw [hmem, h.mem, hlast, ← and_or_left]
    simp [or_and_right, exists_or]
  · obtain rfl := Except.ok.inj hadd
    refine ⟨fun uid => ?_, h.nodup⟩
    have hunset : ¬ app.Sets flag := hset
    simp [h.mem, or_and_right, exists_or, hunset]

theorem uidsOf {apps : List JsonObject} (h : UidsRead flag apps uids) (hrange : ∀ app ∈ apps, app.IdsInRange) :
    UidsOf flag apps uids where
  nodup := h.nodup
  mem uid := by
    rw [h.mem]
    refine and_congr_right fun _ => exists_congr fun app => and_congr_right fun happ => ?_
    rw [(hrange app happ).uidOf_eq_iff]

end UidsRead

theorem resolveTarget_ok {done : List JsonObject} {app : JsonObject} {lists lists' : TargetLists}
    (hkmod : UidsRead "kmod" done lists.kmod) (hlsposed : UidsRead "lsposed" done lists.lsposed)
    (h : resolveTarget grow lists app = .ok lists') :
    UidsRead "kmod" (done ++ [app]) lists'.kmod ∧ UidsRead "lsposed" (done ++ [app]) lists'.lsposed := by
  unfold resolveTarget at h
  dsimp only at h
  by_cases huid : ConfiguredUid (uidOf app)
  · rw [if_neg (not_not.2 huid)] at h
    obtain ⟨kmod, hk, h⟩ := bind_eq_ok.1 h
    obtain ⟨lsposed, hl, h⟩ := bind_eq_ok.1 h
    obtain rfl := Except.ok.inj h
    exact ⟨hkmod.add huid hk, hlsposed.add huid hl⟩
  · rw [if_pos huid] at h
    obtain rfl := Except.ok.inj h
    split_ifs <;> exact ⟨hkmod.pass huid, hlsposed.pass huid⟩

theorem vpnhideResolveTargets_read {root : JsonObject} {kmod lsposed : List UInt32} {summary : PolicySummary}
    (h : vpnhideResolveTargets grow root = .ok (kmod, lsposed, summary)) :
    UidsRead "kmod" (root.objects "apps") kmod ∧ UidsRead "lsposed" (root.objects "apps") lsposed ∧
      summary.mode = readMode root := by
  obtain ⟨lists, hlists, h⟩ := bind_eq_ok.1 h
  obtain ⟨rfl, rfl, rfl⟩ : lists.kmod = kmod ∧ lists.lsposed = lsposed ∧ _ = summary := by
    simpa using Except.ok.inj h
  have hinv : UidsRead "kmod" (root.objects "apps") lists.kmod ∧
      UidsRead "lsposed" (root.objects "apps") lists.lsposed :=
    foldlM_invariant (P := fun done lists => UidsRead "kmod" done lists.kmod ∧
        UidsRead "lsposed" done lists.lsposed)
      (fun _ app _ _ _ ⟨hkmod, hlsposed⟩ hstep => resolveTarget_ok hkmod hlsposed hstep)
      ⟨UidsRead.nil, UidsRead.nil⟩ hlists
  exact ⟨hinv.1, hinv.2, rfl⟩

/-! ### Port targets -/

/-- The entry of an app that is to have a port target. -/
def HidesFor (uid : UInt32) (app : JsonObject) : Bool := app.HasUid uid ∧ app.Sets "portHiding"

/-- Every configured uid has the target of the first app that asks for one, and there are no others. -/
structure PortsOf (root : JsonObject) (mode : ListMode) (apps : List JsonObject) (ports : List PortTarget) :
    Prop where
  found : ∀ uid app, ConfiguredUid uid → apps.find? (HidesFor uid) = some app →
    ∃ t, lookupBy PortTarget.key ports uid.toNat = some t ∧ TargetFor root mode app t
  missing : ∀ uid, ConfiguredUid uid → apps.find? (HidesFor uid) = none →
    lookupBy PortTarget.key ports uid.toNat = none
  configured : ∀ t ∈ ports, ConfiguredUid t.uid
  valid : ∀ t ∈ ports, t.Valid
  nodup : (ports.map (·.uid)).Nodup

/-- The app asks for a target, with the key `k`. -/
def picksPorts (k : ℕ) (app : JsonObject) : Bool :=
  (uidOf app).toNat = k ∧ ConfiguredUid (uidOf app) ∧ app.Sets "portHiding"

/-- The target an app gets if it is the first of its uid. -/
def MadePorts (grow : ℕ → Except Errno Unit) (root : JsonObject) (mode : ListMode) (app : JsonObject)
    (t : PortTarget) : Prop :=
  ∃ t₀, resolveAppRules grow root mode app = .ok t₀ ∧ { t₀ with uid := uidOf app } = t

section Ports
variable {root : JsonObject} {mode : ListMode} {done : List JsonObject} {ports : List PortTarget}
  {app : JsonObject}

theorem any_uid_iff {uid : UInt32} :
    ports.any (·.uid == uid) = true ↔ lookupBy PortTarget.key ports uid.toNat ≠ none := by
  rw [ne_eq, lookupBy_eq_none, List.any_eq_true]
  simp [PortTarget.key, UInt32.toNat_inj]

theorem resolvePortApp_firstWins {ports' : List PortTarget}
    (h : FirstWins PortTarget.key picksPorts (MadePorts grow root mode) done ports)
    (hstep : resolvePortApp grow root mode ports app = .ok ports') :
    FirstWins PortTarget.key picksPorts (MadePorts grow root mode) (done ++ [app]) ports' := by
  unfold resolvePortApp at hstep
  by_cases hset : app.getBoolean "portHiding" = some true
  case neg =>
    rw [if_pos hset] at hstep
    obtain rfl := Except.ok.inj hstep
    exact h.skip fun k hk => absurd hk (by simp [picksPorts, Sets, hset])
  rw [if_neg (not_not.2 hset)] at hstep
  by_cases huid : ConfiguredUid (uidOf app)
  case neg =>
    rw [if_pos huid] at hstep
    obtain rfl := Except.ok.inj hstep
    exact h.skip fun k hk => absurd hk (by simp [picksPorts, huid])
  rw [if_neg (not_not.2 huid)] at hstep
  have hpick (k : ℕ) : picksPorts k app ↔ k = (uidOf app).toNat := by
    have hsets : app.Sets "portHiding" := hset
    simp [picksPorts, huid, hsets, eq_comm]
  by_cases hold : ports.any (·.uid == uidOf app)
  · rw [if_pos hold] at hstep
    obtain rfl := Except.ok.inj hstep
    exact h.skip fun k hk => (hpick k).1 hk ▸ any_uid_iff.1 hold
  · rw [if_neg hold] at hstep
    obtain ⟨_, -, hstep⟩ := bind_eq_ok.1 hstep
    obtain ⟨t, ht, hstep⟩ := bind_eq_ok.1 hstep
    obtain rfl := Except.ok.inj hstep
    refine h.add hpick ?_ ⟨t, ht, rfl⟩
    rw [any_uid_iff, ne_eq, not_not] at hold
    exact hold

theorem vpnhideResolvePortRules_firstWins {summary summary' : PolicySummary}
    (h : vpnhideResolvePortRules grow root summary = .ok (ports, summary')) :
    FirstWins PortTarget.key picksPorts (MadePorts grow root summary.mode) (root.objects "apps") ports := by
  obtain ⟨result, hresult, h⟩ := bind_eq_ok.1 h
  obtain ⟨rfl, -⟩ : result = ports ∧ _ = summary' := by simpa using Except.ok.inj h
  exact foldlM_invariant (P := FirstWins PortTarget.key picksPorts (MadePorts grow root summary.mode))
    (fun _ app _ _ _ hdone hstep => resolvePortApp_firstWins hdone hstep) .nil hresult

theorem MadePorts.targetFor {t : PortTarget} (h : MadePorts grow root mode app t) (hrange : root.InRange)
    (ha : app.IdsInRange) : TargetFor root mode app t := by
  obtain ⟨t₀, ht₀, rfl⟩ := h
  have hfor := resolveAppRules_spec hrange ha ht₀
  exact ⟨⟨hfor.valid.mode, hfor.valid.rules⟩, hfor.blocks⟩

theorem find?_picksPorts {apps : List JsonObject} (hrange : ∀ app ∈ apps, app.IdsInRange) {uid : UInt32}
    (hc : ConfiguredUid uid) : apps.find? (picksPorts uid.toNat) = apps.find? (HidesFor uid) := by
  have hsame : ∀ app ∈ apps, picksPorts uid.toNat app = HidesFor uid app := by
    intro app happ
    rw [Bool.eq_iff_iff]
    simp only [picksPorts, HidesFor, decide_eq_true_eq, UInt32.toNat_inj, ← (hrange app happ).uidOf_eq_iff]
    refine ⟨fun h => ⟨h.1, h.2.2⟩, fun h => ⟨h.1, ?_, h.2⟩⟩
    rw [h.1]
    exact hc
  exact List.find?_congr hsame

theorem PortsOf.of_firstWins {apps : List JsonObject} (hrange : root.InRange)
    (happs : ∀ app ∈ apps, app.IdsInRange)
    (h : FirstWins PortTarget.key picksPorts (MadePorts grow root mode) apps ports) :
    PortsOf root mode apps ports := by
  have horigin {t : PortTarget} (ht : t ∈ ports) : ConfiguredUid t.uid ∧ t.Valid := by
    obtain ⟨app, happ, hpick, hmade⟩ := h.of_mem ht
    have hfor := hmade.targetFor hrange (happs app happ)
    obtain ⟨t₀, -, rfl⟩ := hmade
    exact ⟨(of_decide_eq_true hpick).2.1, hfor.valid⟩
  constructor
  · intro uid app hc hfind
    rw [← find?_picksPorts happs hc] at hfind
    obtain ⟨t, ht, hmade⟩ := h.found _ app hfind
    exact ⟨t, ht, hmade.targetFor hrange (happs app (List.mem_of_find?_eq_some hfind))⟩
  · intro uid hc hfind
    rw [← find?_picksPorts happs hc] at hfind
    exact h.missing _ hfind
  · exact fun t ht => (horigin ht).1
  · exact fun t ht => (horigin ht).2
  · have hkeys := h.nodup
    rw [show PortTarget.key = UInt32.toNat ∘ (·.uid) from rfl, ← List.map_map] at hkeys
    exact nodup_map_toNat.1 hkeys

end Ports

end VpnHide
