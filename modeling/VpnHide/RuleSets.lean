import VpnHide.Intent
import VpnHide.ReadBack
import VpnHide.Lib.Result
import VpnHide.Lib.Runs

/-!
# Compiling port rules

A target's rules are the enabled rules of the configuration, one by one and in order
(`resolveNamedPortRules_compiles`); in an allowlist they are then complemented, port by port
(`complement_covers_iff`). Either way the target of an app refuses what the configuration asks for
(`resolveAppRules_spec`).
-/

namespace VpnHide
open JsonObject

variable {grow : ℕ → Except Errno Unit} {port : UInt16} {proto : UInt8}

/-! ### One rule -/

/-- A rule of the configuration and the rule it is compiled to. -/
structure Compiles (rule : JsonObject) (r : PortRule) : Prop where
  start : rule.getNumber "startPort" = r.startPort.toNat
  stop : rule.getNumber "endPort" = r.endPort.toNat
  le : r.startPort ≤ r.endPort
  protocol : ruleProtocol rule = .ok r.protocol

theorem strEq_false_of_ne {s a b : String} (h : strEq s a = true) (hne : cString a ≠ cString b) :
    strEq s b = false := by
  simp only [strEq, beq_iff_eq, beq_eq_false_iff_ne] at h ⊢
  exact h ▸ hne

theorem ruleProtocol_covers {rule : JsonObject} {p : UInt8} (h : ruleProtocol rule = .ok p) :
    (p = protoBoth ∨ p = proto) ↔ rule.CoversProtocol proto := by
  unfold ruleProtocol at h
  unfold CoversProtocol
  have htcp : proto = protoTcp ↔ protoTcp = proto := eq_comm
  have hudp : proto = protoUdp ↔ protoUdp = proto := eq_comm
  have hsep : protoTcp ≠ protoBoth ∧ protoUdp ≠ protoBoth := by decide
  cases hs : rule.getString "protocol" with
  | none =>
    rw [hs] at h
    obtain rfl := Except.ok.inj h
    simp
  | some protocol =>
    simp only [hs] at h
    split_ifs at h with h₁ h₂ h₃
    · obtain rfl := Except.ok.inj h
      simp [h₁, strEq_false_of_ne h₁ (b := "BOTH") (by decide), strEq_false_of_ne h₁ (b := "UDP") (by decide),
        hsep, htcp]
    · obtain rfl := Except.ok.inj h
      simp [h₂, strEq_false_of_ne h₂ (b := "BOTH") (by decide), strEq_false_of_ne h₂ (b := "TCP") (by decide),
        hsep, hudp]
    · obtain rfl := Except.ok.inj h
      simp [h₃]

theorem ruleProtocol_le {rule : JsonObject} {p : UInt8} (h : ruleProtocol rule = .ok p) : p ≤ protoBoth := by
  unfold ruleProtocol at h
  split at h
  · obtain rfl := Except.ok.inj h
    decide
  · split_ifs at h <;> obtain rfl := Except.ok.inj h <;> decide

theorem Compiles.covers_iff {rule : JsonObject} {r : PortRule} (h : Compiles rule r) :
    r.Covers port proto ↔ rule.CoversPort port proto := by
  rw [PortRule.Covers, CoversPort, ruleProtocol_covers h.protocol, h.start, h.stop,
    UInt16.le_iff_toNat_le, UInt16.le_iff_toNat_le, Int.ofNat_le, Int.ofNat_le]

theorem addPortRule_ok {rules rules' : List PortRule} {rule : JsonObject}
    (h : addPortRule grow rules rule = .ok rules') :
    (¬ rule.Enabled ∧ rules' = rules) ∨ (rule.Enabled ∧ ∃ r, Compiles rule r ∧ rules' = rules ++ [r]) := by
  unfold addPortRule at h
  dsimp only at h
  split_ifs at h with hoff
  · exact .inl ⟨not_not.2 hoff, (Except.ok.inj h).symm⟩
  · simp only [bind_eq_ok, rejectIf_eq_ok, exists_const, pure, Except.pure, Except.ok.injEq, not_or,
      not_lt, gt_iff_lt] at h
    obtain ⟨⟨hs₀, he₀, hs, he, hle⟩, p, hp, _, -, rfl⟩ := h
    have hconv {n : ℤ} (h₀ : 0 ≤ n) (h₁ : n ≤ 65535) : n = ((UInt16.ofInt n).toNat : ℤ) := by
      simp only [UInt16.toNat, UInt16.ofInt, UInt16.toBitVec_ofNat', BitVec.toNat_ofNat]
      omega
    refine .inr ⟨hoff, _, ⟨hconv hs₀ hs, hconv he₀ he, ?_, hp⟩, rfl⟩
    rw [UInt16.le_iff_toNat_le, ← Int.ofNat_le, ← hconv hs₀ hs, ← hconv he₀ he]
    exact hle

/-! ### The rules of an app -/

abbrev CompilesAll : List JsonObject → List PortRule → Prop := List.Forall₂ Compiles

theorem CompilesAll.eq_nil_iff {rs : List JsonObject} {rules : List PortRule} (h : CompilesAll rs rules) :
    rules = [] ↔ rs = [] := by
  cases h <;> simp

theorem CompilesAll.exists_covers_iff {rs : List JsonObject} {rules : List PortRule}
    (h : CompilesAll rs rules) :
    (∃ r ∈ rules, r.Covers port proto) ↔ ∃ rule ∈ rs, rule.CoversPort port proto := by
  induction h with
  | nil => simp
  | cons hr _ ih => simp [ih, hr.covers_iff]

theorem CompilesAll.valid {rs : List JsonObject} {rules : List PortRule} (h : CompilesAll rs rules) :
    ∀ r ∈ rules, r.startPort ≤ r.endPort ∧ r.protocol ≤ protoBoth := by
  intro r hr
  obtain ⟨i, hi, rfl⟩ := List.getElem_of_mem hr
  have hc := h.get (h.length_eq ▸ hi) hi
  exact ⟨hc.le, ruleProtocol_le hc.protocol⟩

theorem CompilesAll.addPortRule {rs : List JsonObject} {rules rules' : List PortRule} {rule : JsonObject}
    (h : CompilesAll rs rules) (hadd : addPortRule grow rules rule = .ok rules') :
    CompilesAll (rs ++ [rule].filter fun rule => rule.Enabled) rules' := by
  rcases addPortRule_ok hadd with ⟨hoff, rfl⟩ | ⟨hon, r, hr, rfl⟩
  · simpa [hoff] using h
  · simpa [hon] using List.rel_append h (.cons hr .nil)

theorem CompilesAll.addPortRules {rs massRules : List JsonObject} {rules rules' : List PortRule}
    (h : CompilesAll rs rules) (hloop : massRules.foldlM (VpnHide.addPortRule grow) rules = .ok rules') :
    CompilesAll (rs ++ massRules.filter fun rule => rule.Enabled) rules' := by
  refine foldlM_invariant (P := fun done rules => CompilesAll
    (rs ++ done.filter fun rule => rule.Enabled) rules) ?_ (by simpa using h) hloop
  intro done rule rules rules' _ hdone hstep
  rw [List.filter_append, ← List.append_assoc]
  exact hdone.addPortRule hstep

/-- The loop over `portRules`, which passes over the rules that are not for the app. -/
theorem compilesAll_named {package : Package} {portRules : List JsonObject} {rules : List PortRule}
    (hloop : portRules.foldlM (fun rules rule =>
      if ruleMatches package rule then addPortRule grow rules rule else .ok rules) [] = .ok rules) :
    CompilesAll ((portRules.filter (ruleMatches package)).filter fun rule => rule.Enabled) rules := by
  refine foldlM_invariant (P := fun done rules => CompilesAll
    ((done.filter (ruleMatches package)).filter fun rule => rule.Enabled) rules) ?_ .nil hloop
  intro done rule rules rules' _ hdone hstep
  rw [List.filter_append, List.filter_append]
  split_ifs at hstep with hmatch
  · rw [List.filter_cons_of_pos hmatch]
    exact hdone.addPortRule hstep
  · obtain rfl := Except.ok.inj hstep
    rw [List.filter_cons_of_neg hmatch]
    simpa using hdone

theorem ruleMatches_iff {rule app : JsonObject} (hr : rule.IdsInRange) (ha : app.IdsInRange) :
    ruleMatches (packageOf app) rule ↔ rule.IsFor app := by
  have hzero : uidOf rule = 0 ↔ rule.getNumber "uid" = 0 := hr.uidOf_eq_iff 0
  have huid : uidOf rule = uidOf app ↔ rule.getNumber "uid" = app.getNumber "uid" := by
    rw [hr.uidOf_eq_iff, HasUid, ha.toNat_uidOf]
  have hkey : (uidOf rule ≠ 0 ∧ uidOf app ≠ 0 ∧ uidOf rule = uidOf app) ↔
      rule.getNumber "uid" ≠ 0 ∧ rule.getNumber "uid" = app.getNumber "uid" := by
    rw [← huid, ne_eq, ne_eq, ne_eq, ← hzero]
    exact ⟨fun h => ⟨h.1, h.2.2⟩, fun h => ⟨h.1, h.2 ▸ h.1, h.2⟩⟩
  have huser := hr.userOf_eq_iff ha
  unfold ruleMatches IsFor samePackage packageOf
  rw [Bool.or_eq_true, ← hkey]
  refine or_congr (by simp [and_assoc]) ?_
  cases rule.getString "packageName" <;> cases app.getString "packageName" <;> simp [huser]

/-- Every rule that applies is compiled, in order; the full range stands in for an empty list if the
caller asks for that. -/
theorem resolveNamedPortRules_compiles {root app : JsonObject} (hrange : root.InRange)
    (ha : app.IdsInRange) {fallback : Bool} {t : PortTarget}
    (h : resolveNamedPortRules grow (root.objects "portRules") (root.objects "massPortRules")
      (packageOf app) fallback ⟨0, 0, []⟩ = .ok t) :
    ∃ rules, CompilesAll (root.rulesFor app) rules ∧
      t.rules = if fallback ∧ rules = [] then [⟨0, 65535, protoBoth⟩] else rules := by
  obtain ⟨named, hnamed, h⟩ := bind_eq_ok.1 h
  obtain ⟨rules, hrules, h⟩ := bind_eq_ok.1 h
  have hall := (compilesAll_named hnamed).addPortRules hrules
  have hfor : (root.objects "portRules").filter (ruleMatches (packageOf app)) =
      (root.objects "portRules").filter fun rule => rule.IsFor app := by
    refine List.filter_congr fun rule hrule => ?_
    rw [Bool.eq_iff_iff, decide_eq_true_eq]
    exact ruleMatches_iff (hrange.portRules rule hrule) ha
  rw [hfor, ← List.filter_append] at hall
  refine ⟨rules, hall, ?_⟩
  simp only [List.length_eq_zero_iff] at h
  split_ifs at h ⊢
  · obtain ⟨_, -, h⟩ := bind_eq_ok.1 h
    obtain rfl := Except.ok.inj h
    rfl
  · obtain rfl := Except.ok.inj h
    rfl

/-! ### Complementing -/

/-- The rule that blocks a run of ports. -/
def runRule (run : ℕ × ℕ × UInt8) : PortRule := ⟨UInt16.ofNat run.1, UInt16.ofNat run.2.1, run.2.2⟩

/-- The loop variables are those of a scan for runs. -/
structure ComplementState.Scans (s : ComplementState) (t : RunScan UInt8) : Prop where
  start : s.rangeStart = t.start
  label : s.rangeProtocol = t.label
  rules : s.rules = t.runs.map runRule

theorem ComplementState.Scans.step {allowed : List PortRule} {s s' : ComplementState} {t : RunScan UInt8}
    {port : ℕ} (h : s.Scans t) (hstep : complementPort grow allowed s port = .ok s') :
    s'.Scans (t.step (blockedProtocol allowed) port) := by
  unfold complementPort at hstep
  unfold RunScan.step RunScan.close
  rw [← h.label, ← h.start]
  dsimp only at hstep
  split_ifs at hstep ⊢
  · cases hl : s.rangeProtocol with
    | none =>
      rw [hl] at hstep
      obtain rfl := Except.ok.inj hstep
      exact ⟨rfl, rfl, h.rules⟩
    | some p =>
      rw [hl] at hstep
      obtain ⟨_, -, hstep⟩ := bind_eq_ok.1 hstep
      obtain rfl := Except.ok.inj hstep
      exact ⟨rfl, rfl, by simp [h.rules, runRule]⟩
  · obtain rfl := Except.ok.inj hstep
    exact h

/-- The rules of the complement are the runs of ports with the same protocols to block. -/
theorem complement_rules {allowed : List PortRule} {s : ComplementState} {n : ℕ}
    (h : (List.range n).foldlM (complementPort grow allowed) ⟨0, none, []⟩ = .ok s) :
    s.rules = (RunScan.scan (blockedProtocol allowed) n).runs.map runRule := by
  have hscan : s.Scans (RunScan.scan (blockedProtocol allowed) n) := by
    refine foldlM_invariant (P := fun done s => s.Scans
      (done.foldl (RunScan.step (blockedProtocol allowed)) ⟨0, none, []⟩)) ?_ ⟨rfl, rfl, rfl⟩ h
    intro done port s s' _ hs hstep
    rw [List.foldl_append]
    exact hs.step hstep
  exact hscan.rules

theorem blockedProtocol_lt {allowed : List PortRule} {port : ℕ} {p : UInt8}
    (h : blockedProtocol allowed port = some p) : port < 65536 := by
  unfold blockedProtocol at h
  by_contra hge
  rw [if_neg hge] at h
  cases h

theorem blockedProtocol_le {allowed : List PortRule} {port : ℕ} {p : UInt8}
    (h : blockedProtocol allowed port = some p) : p ≤ protoBoth := by
  unfold blockedProtocol at h
  dsimp only at h
  split_ifs at h <;> obtain rfl := Option.some.inj h <;> decide

theorem portRuleAllows_iff {allowed : List PortRule} :
    portRuleAllows allowed port.toNat proto ↔ ∃ r ∈ allowed, r.Covers port proto := by
  simp [portRuleAllows, PortRule.Covers, UInt16.le_iff_toNat_le, and_assoc]

/-- A protocol is blocked at a port exactly if no allowed rule covers it there. -/
theorem blockedProtocol_iff {allowed : List PortRule} (hproto : Transport proto) :
    (∃ p, blockedProtocol allowed port.toNat = some p ∧ (p = protoBoth ∨ p = proto)) ↔
      ¬ ∃ r ∈ allowed, r.Covers port proto := by
  have hport : port.toNat < 65536 := port.toNat_lt
  have hne : protoTcp ≠ protoBoth ∧ protoUdp ≠ protoBoth ∧ protoTcp ≠ protoUdp := by decide
  rw [← portRuleAllows_iff, blockedProtocol, if_pos hport]
  rcases hproto with rfl | rfl <;> cases portRuleAllows allowed port.toNat protoTcp <;>
    cases portRuleAllows allowed port.toNat protoUdp <;> simp [hne, hne.2.2.symm]

theorem mem_complement {allowed : List PortRule} {a e : ℕ} {p : UInt8}
    (h : (a, e, p) ∈ (RunScan.scan (blockedProtocol allowed) 65537).runs) :
    a ≤ e ∧ e < 65536 ∧ p ≤ protoBoth := by
  obtain ⟨hae, -, hrun⟩ := (RunScan.inv_scan (blockedProtocol allowed) 65537).sound a e p h
  have hlast := hrun e hae (Nat.le_refl e)
  exact ⟨hae, blockedProtocol_lt hlast, blockedProtocol_le hlast⟩

theorem runRule_covers_iff {a e : ℕ} {p : UInt8} (hae : a ≤ e) (he : e < 65536) :
    (runRule (a, e, p)).Covers port proto ↔ (a ≤ port.toNat ∧ port.toNat ≤ e) ∧ (p = protoBoth ∨ p = proto) := by
  have ha : (UInt16.ofNat a).toNat = a := UInt16.toNat_ofNat_of_lt' (Nat.lt_of_le_of_lt hae he)
  have he : (UInt16.ofNat e).toNat = e := UInt16.toNat_ofNat_of_lt' he
  simp only [runRule, PortRule.Covers, UInt16.le_iff_toNat_le, ha, he, and_assoc]

/-- The complement covers what the allowed rules do not. -/
theorem complement_covers_iff {allowed : List PortRule} {s : ComplementState}
    (h : (List.range 65537).foldlM (complementPort grow allowed) ⟨0, none, []⟩ = .ok s)
    (hproto : Transport proto) :
    (∃ r ∈ s.rules, r.Covers port proto) ↔ ¬ ∃ r ∈ allowed, r.Covers port proto := by
  have hend : blockedProtocol allowed 65536 = none := rfl
  rw [complement_rules h, ← blockedProtocol_iff hproto]
  simp only [RunScan.mem_runs hend (Nat.le_of_lt port.toNat_lt)]
  constructor
  · rintro ⟨_, hr, hcovers⟩
    obtain ⟨⟨a, e, p⟩, hrun, rfl⟩ := List.mem_map.1 hr
    obtain ⟨hae, he, -⟩ := mem_complement hrun
    obtain ⟨hport, hp⟩ := (runRule_covers_iff hae he).1 hcovers
    exact ⟨p, ⟨a, e, hrun, hport⟩, hp⟩
  · rintro ⟨p, ⟨a, e, hrun, hport⟩, hp⟩
    obtain ⟨hae, he, -⟩ := mem_complement hrun
    exact ⟨_, List.mem_map_of_mem hrun, (runRule_covers_iff hae he).2 ⟨hport, hp⟩⟩

theorem complement_valid {allowed : List PortRule} {s : ComplementState}
    (h : (List.range 65537).foldlM (complementPort grow allowed) ⟨0, none, []⟩ = .ok s) :
    ∀ r ∈ s.rules, r.startPort ≤ r.endPort ∧ r.protocol ≤ protoBoth := by
  rw [complement_rules h]
  intro r hr
  obtain ⟨⟨a, e, p⟩, hrun, rfl⟩ := List.mem_map.1 hr
  obtain ⟨hae, he, hp⟩ := mem_complement hrun
  refine ⟨?_, hp⟩
  rw [runRule, UInt16.le_iff_toNat_le, UInt16.toNat_ofNat_of_lt' (Nat.lt_of_le_of_lt hae he),
    UInt16.toNat_ofNat_of_lt' he]
  exact hae

/-- The ranges are in order, and two that touch block different protocols. -/
theorem complement_separated {allowed : List PortRule} {s : ComplementState}
    (h : (List.range 65537).foldlM (complementPort grow allowed) ⟨0, none, []⟩ = .ok s) :
    s.rules.Pairwise fun r r' => r.endPort < r'.startPort ∧
      (r.endPort.toNat + 1 = r'.startPort.toNat → r.protocol ≠ r'.protocol) := by
  rw [complement_rules h, List.pairwise_map]
  refine (RunScan.runs_separated (blockedProtocol allowed) 65537).imp_of_mem ?_
  rintro ⟨a, e, p⟩ ⟨a', e', p'⟩ hr hr' ⟨hlt, hgap⟩
  obtain ⟨hae, he, -⟩ := mem_complement hr
  obtain ⟨hae', he', -⟩ := mem_complement hr'
  have hend : (UInt16.ofNat e).toNat = e := UInt16.toNat_ofNat_of_lt' he
  have hstart : (UInt16.ofNat a').toNat = a' := UInt16.toNat_ofNat_of_lt' (Nat.lt_of_le_of_lt hae' he')
  simp only [runRule, UInt16.lt_iff_toNat_lt, hend, hstart]
  refine ⟨hlt, fun hnext hsame => ?_⟩
  have := hgap hsame
  dsimp only at this
  omega

theorem complement_total (hgrow : ∀ n, grow n = .ok ()) (allowed : List PortRule) (ports : List ℕ)
    (s : ComplementState) : ∃ s', ports.foldlM (complementPort grow allowed) s = .ok s' := by
  refine foldlM_progress (P := fun _ _ => True) ?_ trivial
  intro _ port _ s _ _
  unfold complementPort growArray
  dsimp only
  split_ifs
  · cases s.rangeProtocol with
    | none => exact ⟨_, rfl, trivial⟩
    | some p =>
      dsimp only
      rw [hgrow]
      exact ⟨_, rfl, trivial⟩
  · exact ⟨_, rfl, trivial⟩

section Allowlist
variable {portRules massRules : List JsonObject} {package : Package} {allowed : PortTarget}

theorem resolveAllowlistExceptionRules_nil
    (h : resolveNamedPortRules grow portRules massRules package false ⟨0, 0, []⟩ = .ok allowed)
    (hnil : allowed.rules = []) :
    resolveAllowlistExceptionRules grow portRules massRules package = .ok ⟨0, portPolicyUnrestricted, []⟩ := by
  rw [resolveAllowlistExceptionRules, h]
  show (if allowed.rules.length = 0 then _ else _) = _
  rw [hnil]
  rfl

theorem resolveAllowlistExceptionRules_eq_ok
    (h : resolveNamedPortRules grow portRules massRules package false ⟨0, 0, []⟩ = .ok allowed)
    (hne : allowed.rules ≠ []) {t : PortTarget} :
    resolveAllowlistExceptionRules grow portRules massRules package = .ok t ↔
      ∃ s, (List.range 65537).foldlM (complementPort grow allowed.rules) ⟨0, none, []⟩ = .ok s ∧
        ⟨0, portPolicyRules, s.rules⟩ = t := by
  rw [resolveAllowlistExceptionRules, h]
  show (if allowed.rules.length = 0 then _ else _) = _ ↔ _
  rw [if_neg (mt List.length_eq_zero_iff.1 hne), bind_eq_ok]
  simp only [pure, Except.pure, Except.ok.injEq]

/-- Complementing the rules that are allowed: none of them gives an unrestricted target. Any others give rules in order
of their ports, apart from each other and as few as their protocols let them be, that cover exactly what no allowed rule
covers. Only an allocation can fail. -/
theorem resolveAllowlistExceptionRules_canonical
    (h : resolveNamedPortRules grow portRules massRules package false ⟨0, 0, []⟩ = .ok allowed) :
    (allowed.rules = [] → resolveAllowlistExceptionRules grow portRules massRules package =
      .ok ⟨0, portPolicyUnrestricted, []⟩) ∧
    (allowed.rules ≠ [] →
      ((∀ n, grow n = .ok ()) → ∃ t, resolveAllowlistExceptionRules grow portRules massRules package = .ok t) ∧
      ∀ t, resolveAllowlistExceptionRules grow portRules massRules package = .ok t →
        t.mode = portPolicyRules ∧ (∀ r ∈ t.rules, r.startPort ≤ r.endPort) ∧
        (t.rules.Pairwise fun r r' => r.endPort < r'.startPort ∧
          (r.endPort.toNat + 1 = r'.startPort.toNat → r.protocol ≠ r'.protocol)) ∧
        ∀ port proto, Transport proto →
          ((∃ r ∈ t.rules, r.Covers port proto) ↔ ¬ ∃ r ∈ allowed.rules, r.Covers port proto)) := by
  refine ⟨resolveAllowlistExceptionRules_nil h, fun hne => ⟨fun hgrow => ?_, fun t ht => ?_⟩⟩
  · obtain ⟨s, hs⟩ := complement_total hgrow allowed.rules (List.range 65537) ⟨0, none, []⟩
    exact ⟨_, (resolveAllowlistExceptionRules_eq_ok h hne).2 ⟨s, hs, rfl⟩⟩
  · obtain ⟨s, hs, rfl⟩ := (resolveAllowlistExceptionRules_eq_ok h hne).1 ht
    exact ⟨rfl, fun r hr => (complement_valid hs r hr).1, complement_separated hs,
      fun port proto hproto => complement_covers_iff hs hproto⟩

/-- With port 80 allowed for both protocols and ports 100 to 65535 for TCP, UDP is blocked on port 200. -/
theorem resolveAllowlistExceptionRules_canonical_sample :
    ∃ t, resolveAllowlistExceptionRules (fun _ => .ok ()) []
      [[("enabled", .boolean true), ("startPort", .number 80), ("endPort", .number 80)],
       [("enabled", .boolean true), ("startPort", .number 100), ("endPort", .number 65535),
         ("protocol", .string "TCP")]]
      ⟨none, 0, 10123⟩ = .ok t ∧
      (∃ r ∈ t.rules, r.Covers 200 protoUdp) ∧ ¬ ∃ r ∈ t.rules, r.Covers 80 protoUdp := by
  obtain ⟨-, hrules⟩ := @resolveAllowlistExceptionRules_canonical (fun _ => .ok ()) []
    [[("enabled", .boolean true), ("startPort", .number 80), ("endPort", .number 80)],
     [("enabled", .boolean true), ("startPort", .number 100), ("endPort", .number 65535), ("protocol", .string "TCP")]]
    ⟨none, 0, 10123⟩ ⟨0, 0, [⟨80, 80, protoBoth⟩, ⟨100, 65535, protoTcp⟩]⟩ rfl
  obtain ⟨htotal, hspec⟩ := hrules (List.cons_ne_nil _ _)
  obtain ⟨t, ht⟩ := htotal fun _ => rfl
  obtain ⟨-, -, -, hcovers⟩ := hspec t ht
  refine ⟨t, ht, (hcovers 200 protoUdp (.inr rfl)).2 (by decide), ?_⟩
  rw [hcovers 80 protoUdp (.inr rfl), not_not]
  exact ⟨⟨80, 80, protoBoth⟩, List.mem_cons_self, by decide⟩

end Allowlist

/-! ### The target of an app -/

theorem covers_fullRange : (⟨0, 65535, protoBoth⟩ : PortRule).Covers port proto := by
  have := port.toNat_lt
  refine ⟨?_, ?_, .inl rfl⟩ <;> rw [UInt16.le_iff_toNat_le]
  · exact Nat.zero_le _
  · exact Nat.le_of_lt_succ this

theorem blocks_rules_iff {uid : UInt32} {rules : List PortRule} :
    (⟨uid, portPolicyRules, rules⟩ : PortTarget).Blocks port proto ↔ ∃ r ∈ rules, r.Covers port proto := by
  have hmode : portPolicyRules ≠ portPolicyUnrestricted ∧ portPolicyRules ≠ portPolicyDenyAll := by decide
  simp [PortTarget.Blocks, hmode]

/-- A valid target that refuses what the configuration asks for. -/
structure TargetFor (root : JsonObject) (mode : ListMode) (app : JsonObject) (t : PortTarget) : Prop where
  valid : t.Valid
  blocks : ∀ {port proto}, Transport proto → (t.Blocks port proto ↔ root.BlockedFor mode app port proto)

theorem resolveAppRules_blacklist {root app : JsonObject} {t : PortTarget} (hrange : root.InRange)
    (ha : app.IdsInRange) (h : resolveAppRules grow root .blacklist app = .ok t) :
    TargetFor root .blacklist app t := by
  obtain ⟨named, hnamed, ht⟩ := bind_eq_ok.1 h
  obtain rfl := Except.ok.inj ht
  obtain ⟨rules, hall, hrules⟩ := resolveNamedPortRules_compiles hrange ha hnamed
  refine ⟨⟨show portPolicyRules ≤ portPolicyDenyAll by decide, ?_⟩, fun {port proto} _ => ?_⟩
  · rw [hrules]
    split_ifs
    · simp
    · exact hall.valid
  · rw [blocks_rules_iff, hrules, BlockedFor, ← hall.exists_covers_iff, ← hall.eq_nil_iff]
    by_cases hnil : rules = []
    · simp [hnil, covers_fullRange]
    · simp [hnil]

theorem resolveAppRules_allowlist {root app : JsonObject} {t : PortTarget} (hrange : root.InRange)
    (ha : app.IdsInRange) (h : resolveAppRules grow root .allowlist app = .ok t) :
    TargetFor root .allowlist app t := by
  obtain ⟨allowed, hallowed, -⟩ := bind_eq_ok.1 h
  obtain ⟨rules, hall, hrules⟩ := resolveNamedPortRules_compiles hrange ha hallowed
  rw [if_neg (by simp)] at hrules
  have hblocked {port : UInt16} {proto : UInt8} : root.BlockedFor .allowlist app port proto ↔
      rules ≠ [] ∧ ¬ ∃ r ∈ rules, r.Covers port proto := by
    rw [BlockedFor, hall.exists_covers_iff, ne_eq, ne_eq, hall.eq_nil_iff]
    simp only [not_exists, not_and]
  by_cases hnil : rules = []
  · obtain rfl := Except.ok.inj ((resolveAllowlistExceptionRules_nil hallowed (hrules.trans hnil)).symm.trans h)
    refine ⟨⟨by decide, by simp⟩, fun {port proto} _ => ?_⟩
    simp [hblocked, hnil, PortTarget.Blocks]
  · obtain ⟨s, hs, rfl⟩ := (resolveAllowlistExceptionRules_eq_ok hallowed (hrules ▸ hnil)).1 h
    rw [hrules] at hs
    refine ⟨⟨show portPolicyRules ≤ portPolicyDenyAll by decide, complement_valid hs⟩, fun {port proto} hproto => ?_⟩
    rw [blocks_rules_iff, complement_covers_iff hs hproto, hblocked]
    simp [hnil]

theorem resolveAppRules_spec {root app : JsonObject} {mode : ListMode} {t : PortTarget}
    (hrange : root.InRange) (ha : app.IdsInRange) (h : resolveAppRules grow root mode app = .ok t) :
    TargetFor root mode app t := by
  cases mode with
  | blacklist => exact resolveAppRules_blacklist hrange ha h
  | allowlist => exact resolveAppRules_allowlist hrange ha h

end VpnHide
