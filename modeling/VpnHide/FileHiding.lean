import Mathlib.Data.Int.Bitwise
import VpnHide.Load
import VpnHide.Parson

/-!
# The daemon's file hiding settings (`susfs_refresh_enabled`)

The controller parses the configuration, the daemon searches its text: for quoted words, for the next colon, for a
number or `true` behind it. The two agree exactly on the files whose text is laid out as the search expects
(`susfsRefreshEnabled_agrees_iff`).
-/

namespace VpnHide

/-! ### The code -/

/-- The static settings that are refreshed. -/
structure FileHidingState where
  susfsEnabled : Bool
  useNomount : Bool
  deriving DecidableEq, Repr

def FileHidingState.init : FileHidingState := ⟨true, false⟩

/-- The size of the buffer that the file is read into. -/
def configBufferSize : ℕ := 131072

def quoted (word : String) : List UInt8 := quoteByte :: bytesOf word ++ [quoteByte]

def isBlank (c : UInt8) : Bool := c == ' '.toUInt8 || c == '\t'.toUInt8

/-- The part for `useNoMountForFileHiding`, from the first `"globalConfig"` on. -/
def readNomount (global : List UInt8) : Bool :=
  let apps := strstr (quoted "apps") global
  match strstr (quoted "useNoMountForFileHiding") global with
  | none => false
  | some nomount =>
    -- a pointer into the buffer is the text from there on, so the one in front is the longer text
    if apps.all fun apps => apps.length < nomount.length then
      match strchr ':'.toUInt8 nomount with
      | none => false
      | some nomount => strncmpEq 4 (nomount.tail.dropWhile isBlank) (bytesOf "true")
    else false

/-- The part for `kernelHookMask`; `none` where the function returns. -/
def readHookMask (global : List UInt8) : Option UInt64 :=
  let apps := strstr (quoted "apps") global
  match strstr (quoted "kernelHookMask") global with
  | none => none
  | some mask =>
    if apps.any fun apps => mask.length < apps.length then none
    else match strchr ':'.toUInt8 mask with
      | none => none
      | some mask => strtoull mask.tail

/-- `susfs_refresh_enabled`. The path may be missing, and so may the file. -/
def susfsRefreshEnabled (path file : Option (List UInt8)) (st : FileHidingState) : FileHidingState :=
  if (path.getD []).headD 0 = 0 then ⟨true, false⟩
  else match file with
    | none => { st with useNomount := false }
    | some contents =>
      match strstr (quoted "globalConfig") (cstr (contents.take (configBufferSize - 1))) with
      | none => { st with useNomount := false }
      | some global =>
        match readHookMask global with
        | none => { st with useNomount := readNomount global }
        | some value => ⟨value &&& ((1 : UInt64) <<< 18) != 0 && !readNomount global, readNomount global⟩

/-! ### The document -/

/-- What the configuration says about file hiding. -/
structure HidingSettings where
  mask : ℤ
  useNomount : Bool
  deriving DecidableEq, Repr

/-- The state in which the daemon should be. -/
def HidingSettings.state (c : HidingSettings) : FileHidingState := ⟨c.mask.testBit 18 && !c.useNomount, c.useNomount⟩

/-- The settings of a configuration file: a JSON object whose `globalConfig` object has an integer `kernelHookMask` and,
if it has one, a boolean `useNoMountForFileHiding`. -/
def documentSettings (file : List UInt8) : Option HidingSettings :=
  match jsonParseString (cstr file) with
  | some (.object root) =>
    match root.lookup (bytesOf "globalConfig") with
    | some (.object global) =>
      match global.lookup (bytesOf "kernelHookMask"), global.lookup (bytesOf "useNoMountForFileHiding") with
      | some (.number x), none => if x.den = 1 then some ⟨x.num, false⟩ else none
      | some (.number x), some (.boolean b) => if x.den = 1 then some ⟨x.num, b⟩ else none
      | _, _ => none
    | _ => none
  | _ => none

/-! ### The controller's reading -/

def decodeText (chars : List UInt8) : Option String := String.fromUTF8? ⟨chars.toArray⟩

mutual

/-- The document that the controller's getters are modelled on: its texts are UTF-8 and its numbers integers. -/
def JsonValue.toJson : JsonValue → Option Json
  | .null => some .null
  | .boolean b => some (.boolean b)
  | .number x => if x.den = 1 then some (.number x.num) else none
  | .string chars => (decodeText chars).map .string
  | .array items => (itemsToJson items).map .array
  | .object members => (membersToJson members).map .object

def itemsToJson : List JsonValue → Option (List Json)
  | [] => some []
  | value :: items => do
    let value ← value.toJson
    let items ← itemsToJson items
    return value :: items

def membersToJson : List (List UInt8 × JsonValue) → Option JsonObject
  | [] => some []
  | (name, value) :: members => do
    let name ← decodeText name
    let value ← value.toJson
    let members ← membersToJson members
    return (name, value) :: members

end

theorem decodeText_eq_some {chars : List UInt8} {text : String} (h : decodeText chars = some text) :
    bytesOf text = chars := by
  unfold decodeText String.fromUTF8? at h
  split_ifs at h
  cases h
  rfl

theorem bytesOf_inj {a b : String} (h : bytesOf a = bytesOf b) : a = b :=
  String.toByteArray_inj.1 (ByteArray.ext (Array.ext' h))

theorem getValue_of_lookup {members : Members} {o : JsonObject} (h : membersToJson members = some o) {name : String}
    {value : JsonValue} (hvalue : members.lookup (bytesOf name) = some value) :
    ∃ j, value.toJson = some j ∧ o.getValue name = some j := by
  induction members generalizing o with
  | nil => cases hvalue
  | cons m members ih =>
    obtain ⟨key, v⟩ := m
    rw [membersToJson] at h
    simp only [Option.bind_eq_bind, Option.bind_eq_some_iff] at h
    obtain ⟨text, htext, j, hj, rest, hrest, heq⟩ := h
    cases heq
    have hkey := decodeText_eq_some htext
    rw [List.lookup_cons, ← hkey] at hvalue
    rw [JsonObject.getValue, List.lookup_cons]
    by_cases hname : name = text
    · subst hname
      rw [beq_self_eq_true] at hvalue ⊢
      cases hvalue
      exact ⟨j, hj, rfl⟩
    · rw [beq_false_of_ne fun h => hname (bytesOf_inj h)] at hvalue
      rw [beq_false_of_ne hname]
      exact ih hrest hvalue

theorem ofInt_testBit (m : ℤ) : (UInt32.ofInt m).toNat.testBit 18 = m.testBit 18 := by
  have hofInt : (UInt32.ofInt m).toNat = (m % 2 ^ 32).toNat := by
    rw [UInt32.ofInt, UInt32.toNat_ofNat', Nat.mod_eq_of_lt]
    omega
  rw [hofInt]
  cases m with
  | ofNat n =>
    have hmod : ((Int.ofNat n) % 2 ^ 32).toNat = n % 2 ^ 32 := by
      rw [Int.ofNat_eq_natCast]
      omega
    rw [hmod, Nat.testBit_mod_two_pow]
    rfl
  | negSucc n =>
    have hmod : (Int.negSucc n % 2 ^ 32).toNat = 2 ^ 32 - (n % 2 ^ 32 + 1) := by
      rw [Int.negSucc_eq]
      omega
    rw [hmod, Nat.testBit_two_pow_sub_succ (Nat.mod_lt _ (by decide)), Nat.testBit_mod_two_pow]
    rfl

theorem documentSettings_eq_some {file : List UInt8} {c : HidingSettings} (h : documentSettings file = some c) :
    ∃ root global x, jsonParseString (cstr file) = some (.object root) ∧
      root.lookup (bytesOf "globalConfig") = some (.object global) ∧
      global.lookup (bytesOf "kernelHookMask") = some (.number x) ∧ x.den = 1 ∧ x.num = c.mask := by
  unfold documentSettings at h
  split at h
  · rename_i root hroot
    split at h
    · rename_i global hglobal
      split at h
      · rename_i x hmask _
        split_ifs at h with hden
        cases h
        exact ⟨root, global, x, hroot, hglobal, hmask, hden, rfl⟩
      · rename_i x _ hmask _
        split_ifs at h with hden
        cases h
        exact ⟨root, global, x, hroot, hglobal, hmask, hden, rfl⟩
      · cases h
    · cases h
  · cases h

theorem kernelMask_testBit {file : List UInt8} {c : HidingSettings} (h : documentSettings file = some c) {v : JsonValue}
    (hparse : jsonParseString (cstr file) = some v) {o : JsonObject} (hjson : v.toJson = some (.object o)) :
    (readGlobalSettings o).kernelMask.toNat.testBit 18 = c.mask.testBit 18 := by
  obtain ⟨root, global, x, hroot, hglobal, hmask, hden, hnum⟩ := documentSettings_eq_some h
  cases hparse.symm.trans hroot
  rw [JsonValue.toJson, Option.map_eq_some_iff] at hjson
  obtain ⟨_, hmembers, heq⟩ := hjson
  cases heq
  obtain ⟨j, hj, hget⟩ := getValue_of_lookup hmembers hglobal
  rw [JsonValue.toJson, Option.map_eq_some_iff] at hj
  obtain ⟨g, hg, rfl⟩ := hj
  obtain ⟨j, hj, hgetMask⟩ := getValue_of_lookup hg hmask
  rw [JsonValue.toJson, if_pos hden] at hj
  cases hj
  have hobject : o.getObject "globalConfig" = some g := by
    rw [JsonObject.getObject, hget]
    rfl
  have hnumber : JsonObject.getNumber g "kernelHookMask" = c.mask := by
    rw [JsonObject.getNumber, hgetMask, hnum]
  -- the hooks that the controller adds are others
  have hport : vpnhidePortHookMask.toNat.testBit 18 = false := by decide
  rw [readGlobalSettings, hobject]
  show (UInt32.ofInt (JsonObject.getNumber g "kernelHookMask") ||| vpnhidePortHookMask).toNat.testBit 18 = _
  rw [hnumber, UInt32.toNat_or, Nat.testBit_or, hport, Bool.or_false, ofInt_testBit]

/-! ### Searching -/

/-- `value` is the text behind the next colon after the first such word, and no `"apps"` stands in front of the word. -/
def ValueAt (word : String) (global value : List UInt8) : Prop :=
  ∃ key, FirstAt (quoted word) global key ∧ (∀ apps, FirstAt (quoted "apps") global apps → apps.length < key.length) ∧
    FirstAt [':'.toUInt8] key (':'.toUInt8 :: value)

section Search
variable {global : List UInt8}

theorem valueAt_iff {word : String} {value : List UInt8} : ValueAt word global value ↔
    ∃ key colon, strstr (quoted word) global = some key ∧
      ((strstr (quoted "apps") global).all fun apps => apps.length < key.length) ∧
      strchr ':'.toUInt8 key = some colon ∧ colon.tail = value := by
  have happs (key : List UInt8) : (∀ apps, FirstAt (quoted "apps") global apps → apps.length < key.length) ↔
      ((strstr (quoted "apps") global).all fun apps => apps.length < key.length) := by
    simp only [← strstr_eq_some]
    cases strstr (quoted "apps") global <;> simp
  constructor
  · rintro ⟨key, hkey, hfront, hcolon⟩
    exact ⟨key, _, strstr_eq_some.2 hkey, (happs key).1 hfront, strchr_eq_some.2 hcolon, rfl⟩
  · rintro ⟨key, colon, hkey, hfront, hcolon, rfl⟩
    have hcolon := strchr_eq_some.1 hcolon
    obtain ⟨value, rfl⟩ := hcolon.here
    exact ⟨key, strstr_eq_some.1 hkey, (happs key).2 hfront, hcolon⟩

theorem readNomount_iff : readNomount global ↔
    ∃ value, ValueAt "useNoMountForFileHiding" global value ∧ bytesOf "true" <+: value.dropWhile isBlank := by
  have htrue := strncmpEq_iff_prefix (bytesOf "true") (by decide)
  simp only [valueAt_iff, ← htrue]
  unfold readNomount
  dsimp only
  cases hkey : strstr (quoted "useNoMountForFileHiding") global with
  | none => simp
  | some key =>
    by_cases hfront : (strstr (quoted "apps") global).all fun apps => apps.length < key.length
    · dsimp only
      rw [if_pos hfront]
      cases hcolon : strchr ':'.toUInt8 key with
      | none => simp [hcolon]
      | some colon =>
        constructor
        · intro h
          exact ⟨colon.tail, ⟨key, colon, rfl, hfront, hcolon, rfl⟩, h⟩
        · rintro ⟨_, ⟨_, _, hkey', -, hcolon', rfl⟩, h⟩
          cases hkey'
          cases hcolon.symm.trans hcolon'
          exact h
    · simp [hfront]

theorem apps_length_ne {apps key : List UInt8} (happs : FirstAt (quoted "apps") global apps)
    (hkey : FirstAt (quoted "kernelHookMask") global key) : apps.length ≠ key.length := by
  intro hlen
  obtain rfl : apps = key :=
    (List.suffix_of_suffix_length_le happs.suffix hkey.suffix (Nat.le_of_eq hlen)).eq_of_length hlen
  exact absurd (List.prefix_of_prefix_length_le happs.here hkey.here (by decide)) (by decide)

theorem readHookMask_eq_some {n : UInt64} : readHookMask global = some n ↔
    ∃ value, ValueAt "kernelHookMask" global value ∧ strtoull value = some n := by
  simp only [valueAt_iff]
  unfold readHookMask
  dsimp only
  cases hkey : strstr (quoted "kernelHookMask") global with
  | none => simp
  | some key =>
    have hbehind : ((strstr (quoted "apps") global).any fun apps => key.length < apps.length) =
        !((strstr (quoted "apps") global).all fun apps => apps.length < key.length) := by
      cases happs : strstr (quoted "apps") global with
      | none => rfl
      | some apps =>
        have hne := apps_length_ne (strstr_eq_some.1 happs) (strstr_eq_some.1 hkey)
        simp only [Option.any_some, Option.all_some, ← decide_not, decide_eq_decide]
        omega
    dsimp only
    rw [hbehind]
    cases hfront : (strstr (quoted "apps") global).all fun apps => apps.length < key.length with
    | false => simp [hfront]
    | true =>
      cases hcolon : strchr ':'.toUInt8 key with
      | none => simp [hcolon]
      | some colon =>
        constructor
        · intro h
          exact ⟨colon.tail, ⟨key, colon, rfl, hfront, hcolon, rfl⟩, h⟩
        · rintro ⟨_, ⟨_, _, hkey', -, hcolon', rfl⟩, h⟩
          cases hkey'
          cases hcolon.symm.trans hcolon'
          exact h

end Search

theorem hookBit_eq (n : UInt64) : (n &&& ((1 : UInt64) <<< 18) != 0) = n.toNat.testBit 18 := by
  have hbit : ((1 : UInt64) <<< 18).toNat = 2 ^ 18 := by decide
  rw [Bool.eq_iff_iff, bne_iff_ne, ne_eq, ← UInt64.toNat_inj, UInt64.toNat_and, hbit, Nat.and_two_pow]
  cases n.toNat.testBit 18 <;> simp

/-! ### Where they agree -/

/-- The text is laid out as the daemon's search expects. -/
def DaemonReads (file : List UInt8) (c : HidingSettings) : Prop :=
  ∃ global, FirstAt (quoted "globalConfig") (cstr (file.take (configBufferSize - 1))) global ∧
    (c.useNomount ↔
      ∃ value, ValueAt "useNoMountForFileHiding" global value ∧ bytesOf "true" <+: value.dropWhile isBlank) ∧
    ∃ value n, ValueAt "kernelHookMask" global value ∧ strtoull value = some n ∧
      (c.useNomount ∨ n.toNat.testBit 18 = c.mask.testBit 18)

theorem susfsRefreshEnabled_agrees_iff (path : List UInt8) (hpath : path.headD 0 ≠ 0) (file : List UInt8) :
    ∀ c ∈ documentSettings file,
      (∀ st, susfsRefreshEnabled (some path) (some file) st = c.state) ↔ DaemonReads file c := by
  intro c _
  have hpath : ¬ ((some path).getD []).headD 0 = 0 := hpath
  -- a file that leaves a setting as it was cannot be right for both values
  have hstale (b : Bool) : ¬ ∀ st : FileHidingState, { st with useNomount := b } = c.state := by
    intro h
    have htrue := h ⟨true, b⟩
    rw [← h ⟨false, b⟩] at htrue
    cases htrue
  have hmask : ∀ global, (∃ value n, ValueAt "kernelHookMask" global value ∧ strtoull value = some n ∧
      (c.useNomount ∨ n.toNat.testBit 18 = c.mask.testBit 18)) ↔
      ∃ n, readHookMask global = some n ∧ (c.useNomount ∨ n.toNat.testBit 18 = c.mask.testBit 18) := by
    intro global
    simp only [readHookMask_eq_some]
    constructor
    · rintro ⟨value, n, hvalue, hn, hbit⟩
      exact ⟨n, ⟨value, hvalue, hn⟩, hbit⟩
    · rintro ⟨n, ⟨value, hvalue, hn⟩, hbit⟩
      exact ⟨value, n, hvalue, hn, hbit⟩
  simp only [susfsRefreshEnabled, if_neg hpath, DaemonReads, ← readNomount_iff, ← strstr_eq_some, hmask]
  cases hglobal : strstr (quoted "globalConfig") (cstr (file.take (configBufferSize - 1))) with
  | none => simpa using hstale false
  | some global =>
    simp only [Option.some.injEq, exists_eq_left']
    cases hvalue : readHookMask global with
    | none => simpa using hstale (readNomount global)
    | some n =>
      have : Nonempty FileHidingState := ⟨.init⟩
      simp only [hookBit_eq, Option.some.injEq, exists_eq_left', HidingSettings.state,
        FileHidingState.mk.injEq, forall_const]
      cases readNomount global <;> cases c.useNomount <;> simp

def configPath : List UInt8 := bytesOf "config.json"

/-- A configuration with the two settings, as a writer without pretty-printing gives it. -/
def compactConfig : List UInt8 :=
  bytesOf "\x7b\"globalConfig\":\x7b\"useNoMountForFileHiding\":false,\"kernelHookMask\":262144\x7d,\"apps\":[]\x7d"

theorem susfsRefreshEnabled_agrees_compact :
    ⟨262144, false⟩ ∈ documentSettings compactConfig ∧ DaemonReads compactConfig ⟨262144, false⟩ := by
  have hsettings : documentSettings compactConfig = some ⟨262144, false⟩ := by decide +kernel
  refine ⟨hsettings, (susfsRefreshEnabled_agrees_iff configPath (by decide) compactConfig _ hsettings).1 ?_⟩
  rintro ⟨_ | _, _ | _⟩ <;> decide +kernel

/-- The same settings, but NoMount is on and its value stands on a line of its own. -/
def wrappedConfig : List UInt8 :=
  bytesOf "\x7b\"globalConfig\":\x7b\"useNoMountForFileHiding\":\ntrue,\"kernelHookMask\":262144\x7d,\"apps\":[]\x7d"

/-- The same settings, with a value in front that is the word the daemon takes for the list of apps. -/
def labelledConfig : List UInt8 :=
  bytesOf "\x7b\"globalConfig\":\x7b\"label\":\"apps\",\"kernelHookMask\":262144\x7d,\"apps\":[]\x7d"

theorem susfsRefreshEnabled_disagrees :
    (documentSettings wrappedConfig = some ⟨262144, true⟩ ∧
      susfsRefreshEnabled (some configPath) (some wrappedConfig) .init = ⟨true, false⟩) ∧
    documentSettings labelledConfig = some ⟨262144, false⟩ ∧
      susfsRefreshEnabled (some configPath) (some labelledConfig) ⟨false, false⟩ = ⟨false, false⟩ := by
  decide +kernel

end VpnHide
