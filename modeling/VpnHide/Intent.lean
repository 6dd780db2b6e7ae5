import VpnHide.Resolve

/-!
# What a configuration asks for

The decisions a configuration stands for, read off the document itself: numbers are compared as they
are written, rules are not compiled, and nothing is sorted or complemented. `JsonObject.InRange` says
that the ids of a document survive the conversion to the C types; the conversion lemmas below rest
on it.
-/

namespace VpnHide

/-- `TCP` or `UDP`, the protocols a hook asks about. -/
def Transport (proto : UInt8) : Prop := proto = protoTcp ∨ proto = protoUdp

namespace JsonObject

/-! ### Rules and apps -/

/-- An app or a rule states this uid. -/
def HasUid (o : JsonObject) (uid : UInt32) : Prop := o.getNumber "uid" = uid.toNat

def Sets (app : JsonObject) (flag : String) : Prop := app.getBoolean flag = some true

instance (o : JsonObject) (uid : UInt32) : Decidable (o.HasUid uid) := inferInstanceAs (Decidable (_ = _))

instance (app : JsonObject) (flag : String) : Decidable (app.Sets flag) :=
  inferInstanceAs (Decidable (_ = _))

def samePackage (rule app : JsonObject) : Bool :=
  match rule.getString "packageName", app.getString "packageName" with
  | some name, some packageName => strEq name packageName
  | _, _ => false

/-- The rule is for the app: by uid, or by package name and, if the rule states one, user. -/
def IsFor (rule app : JsonObject) : Prop :=
  (rule.getNumber "uid" ≠ 0 ∧ rule.getNumber "uid" = app.getNumber "uid") ∨
  (rule.samePackage app ∧ (¬ rule.hasValue "userId" ∨ rule.getNumber "userId" = app.getNumber "userId"))

instance (rule app : JsonObject) : Decidable (rule.IsFor app) := inferInstanceAs (Decidable (_ ∨ _))

/-- The rule is not switched off. -/
def Enabled (rule : JsonObject) : Prop := rule.getBoolean "enabled" ≠ some false

instance (rule : JsonObject) : Decidable rule.Enabled := inferInstanceAs (Decidable (_ ≠ _))

def CoversProtocol (rule : JsonObject) (proto : UInt8) : Prop :=
  match rule.getString "protocol" with
  | none => True
  | some protocol => strEq protocol "BOTH" ∨ strEq protocol "TCP" ∧ proto = protoTcp ∨
      strEq protocol "UDP" ∧ proto = protoUdp

instance (rule : JsonObject) (proto : UInt8) : Decidable (rule.CoversProtocol proto) := by
  unfold CoversProtocol
  split <;> infer_instance

/-- The rule speaks about the port under the protocol. -/
def CoversPort (rule : JsonObject) (port : UInt16) (proto : UInt8) : Prop :=
  rule.getNumber "startPort" ≤ port.toNat ∧ port.toNat ≤ rule.getNumber "endPort" ∧
    rule.CoversProtocol proto

instance (rule : JsonObject) (port : UInt16) (proto : UInt8) : Decidable (rule.CoversPort port proto) :=
  inferInstanceAs (Decidable (_ ∧ _ ∧ _))

/-! ### Decisions -/

/-- The rules in force for an app: those of `portRules` that are for it and all of `massPortRules`, as far
as they are enabled. -/
def rulesFor (root app : JsonObject) : List JsonObject :=
  ((root.objects "portRules").filter (fun rule => rule.IsFor app) ++ root.objects "massPortRules").filter
    fun rule => rule.Enabled

/-- The first app with this uid that asks for port hiding; its rules decide. -/
def hidingApp (root : JsonObject) (uid : UInt32) : Option JsonObject :=
  (root.objects "apps").find? fun app => app.HasUid uid ∧ app.Sets "portHiding"

/-- The kernel hooks shall act on the uid. -/
def WantsTarget (root : JsonObject) (uid : UInt32) : Prop :=
  match readMode root with
  | .blacklist => ∃ app ∈ root.objects "apps", app.HasUid uid ∧ app.Sets "kmod"
  | .allowlist => ¬ ∃ app ∈ root.objects "apps", app.HasUid uid ∧ app.Sets "kmod"

instance (root : JsonObject) (uid : UInt32) : Decidable (root.WantsTarget uid) := by
  unfold WantsTarget
  split <;> infer_instance

/-- An app that asks for port hiding shall not reach the port: in a blacklist where a rule says so, or
everywhere without a rule; in an allowlist where no rule allows it, or nowhere without a rule. -/
def BlockedFor (root : JsonObject) (mode : ListMode) (app : JsonObject) (port : UInt16) (proto : UInt8) :
    Prop :=
  match mode with
  | .blacklist => root.rulesFor app = [] ∨ ∃ rule ∈ root.rulesFor app, rule.CoversPort port proto
  | .allowlist => root.rulesFor app ≠ [] ∧ ∀ rule ∈ root.rulesFor app, ¬ rule.CoversPort port proto

instance (root : JsonObject) (mode : ListMode) (app : JsonObject) (port : UInt16) (proto : UInt8) :
    Decidable (root.BlockedFor mode app port proto) := by
  unfold BlockedFor
  have := decidable_of_iff _ (List.isEmpty_iff (l := root.rulesFor app))
  split <;> infer_instance

/-- Connections of the uid to the local port shall be refused. Without an app that asks for port hiding,
everything is refused in an allowlist and nothing in a blacklist. -/
def WantsBlocked (root : JsonObject) (uid : UInt32) (port : UInt16) (proto : UInt8) : Prop :=
  match root.hidingApp uid with
  | some app => root.BlockedFor (readMode root) app port proto
  | none => readMode root = .allowlist

instance (root : JsonObject) (uid : UInt32) (port : UInt16) (proto : UInt8) :
    Decidable (root.WantsBlocked uid port proto) := by
  unfold WantsBlocked
  split <;> infer_instance

/-! ### Conversions -/

/-- The ids of an app or a rule are integers of the C types they are read as. -/
@[mk_iff] structure IdsInRange (o : JsonObject) : Prop where
  uid_nonneg : 0 ≤ o.getNumber "uid"
  uid_lt : o.getNumber "uid" < 2 ^ 32
  user_ge : -2 ^ 31 ≤ o.getNumber "userId"
  user_lt : o.getNumber "userId" < 2 ^ 31

@[mk_iff] structure InRange (root : JsonObject) : Prop where
  apps : ∀ app ∈ root.objects "apps", app.IdsInRange
  portRules : ∀ rule ∈ root.objects "portRules", rule.IdsInRange

instance (o : JsonObject) : Decidable o.IdsInRange := decidable_of_iff _ (idsInRange_iff o).symm

instance (root : JsonObject) : Decidable root.InRange := decidable_of_iff _ (inRange_iff root).symm

variable {o rule app : JsonObject}

theorem IdsInRange.toNat_uidOf (h : o.IdsInRange) : ((uidOf o).toNat : ℤ) = o.getNumber "uid" := by
  have := h.uid_nonneg
  have := h.uid_lt
  simp only [uidOf, UInt32.toNat, UInt32.ofInt, UInt32.toBitVec_ofNat', BitVec.toNat_ofNat]
  omega

theorem IdsInRange.uidOf_eq_iff (h : o.IdsInRange) (uid : UInt32) : uidOf o = uid ↔ o.HasUid uid := by
  rw [HasUid, ← h.toNat_uidOf, ← UInt32.toNat_inj]
  exact Int.ofNat_inj.symm

theorem IdsInRange.toInt_userOf (h : o.IdsInRange) : (userOf o).toInt = o.getNumber "userId" := by
  rw [userOf, Int32.toInt_ofInt, Int.bmod_eq_of_le (by simpa using h.user_ge) (by simpa using h.user_lt)]

theorem IdsInRange.userOf_eq_iff (hr : rule.IdsInRange) (ha : app.IdsInRange) :
    userOf rule = userOf app ↔ rule.getNumber "userId" = app.getNumber "userId" := by
  rw [← hr.toInt_userOf, ← ha.toInt_userOf, Int32.toInt_inj]

end JsonObject

end VpnHide
