import VpnHide.FibTrie
import VpnHide.Lib.Slots

/-!
# The cache of registered paths (`susfs_sync_interfaces`)

The daemon has the paths of every VPN interface hidden by a tool, and remembers for which object it has run the tool on
a path. An entry is forgotten only when a sync finds its path missing. An interface that is recreated between two syncs
so leaves an entry behind: the cache holds one entry for a path, and the tool is run once for an object, exactly in the
runs where a sync lies between any two objects that it registers under one path (`susfsSync_registeredOnce_iff`).
-/

namespace VpnHide

/-! ### Paths -/

def pathMax : ℕ := 4096

/-- A path in a buffer of `PATH_MAX` bytes. -/
structure Path where
  bytes : List UInt8
  start : bytes.headD 0 ≠ 0
  short : bytes.length < pathMax
  deriving DecidableEq

theorem slash_ne_zero : '/'.toUInt8 ≠ 0 := by decide

theorem length_take_lt_pathMax (bytes : List UInt8) : (bytes.take (pathMax - 1)).length < pathMax := by
  have hle := List.length_take_le (pathMax - 1) bytes
  unfold pathMax at *
  omega

/-- `snprintf(path, sizeof(path), "/dir/%s", ifname)` -/
def netPath (dir : String) (ifname : List UInt8) : Path where
  bytes := ('/'.toUInt8 :: (bytesOf dir ++ ifname)).take (pathMax - 1)
  start := slash_ne_zero
  short := length_take_lt_pathMax _

def sysClassNet (ifname : List UInt8) : Path := netPath "sys/class/net/" ifname

/-- `suffixes` -/
def procPaths (ifname : List UInt8) : List Path :=
  [netPath "proc/sys/net/ipv4/conf/" ifname, netPath "proc/sys/net/ipv6/conf/" ifname,
    netPath "proc/sys/net/ipv4/neigh/" ifname, netPath "proc/sys/net/ipv6/neigh/" ifname,
    netPath "proc/net/dev_snmp6/" ifname]

/-! ### The cache -/

def susfsMaxPaths : ℕ := maxActiveVpns * 8

/-- `st_dev` and `st_ino` -/
structure FileId where
  dev : UInt64
  ino : UInt64
  deriving DecidableEq

/-- `struct susfs_registered_path` -/
structure RegisteredPath where
  path : List UInt8
  id : FileId
  valid : Bool

/-- `susfs_registered` -/
structure SusfsCache where
  entries : List RegisteredPath
  size : entries.length = susfsMaxPaths

def SusfsCache.init : SusfsCache where
  entries := List.replicate susfsMaxPaths ⟨[], ⟨0, 0⟩, false⟩
  size := List.length_replicate

def susfsPathRegistered (path : Path) (id : FileId) (cache : SusfsCache) : Bool :=
  cache.entries.any fun e => e.valid && e.id = id && e.path = path.bytes

def susfsForgetPath (path : Path) (cache : SusfsCache) : SusfsCache where
  entries := cache.entries.map fun e => if e.valid && e.path = path.bytes then { e with valid := false } else e
  size := by rw [List.length_map, cache.size]

/-- A path is short enough to be stored whole. -/
def susfsRememberPath (path : Path) (id : FileId) (cache : SusfsCache) : SusfsCache where
  entries := storeFree (·.valid) ⟨path.bytes, id, true⟩ cache.entries
  size := by rw [length_storeFree, cache.size]

/-- What is found at a path: the object there, and whether the tool succeeds if it is run. -/
structure Answer where
  stat : Option FileId
  added : Bool

/-- A call of `susfs_register_path`. -/
structure PathCall where
  path : Path
  answer : Answer

/-- `susfs_register_path`: whether the tool is run, and the cache afterwards. -/
def susfsRegisterPath (c : PathCall) (cache : SusfsCache) : Bool × SusfsCache :=
  if c.path.bytes.headD 0 = 0 then (false, cache)
  else match c.answer.stat with
    | none => (false, susfsForgetPath c.path cache)
    | some id =>
      if susfsPathRegistered c.path id cache then (false, cache)
      else if c.answer.added then (true, susfsRememberPath c.path id cache)
      else (true, cache)

/-! ### Syncs -/

/-- What a sync finds for one interface; `real` is `none` if `realpath` fails. -/
structure InterfaceAnswers where
  sysClass : Answer
  real : Option Answer
  suffixes : Vector Answer 5

/-- The calls of `susfs_register_path` that `susfs_sync_interface` makes. -/
def susfsSyncInterface (realpath : Path → Path) (ifname : List UInt8) (found : InterfaceAnswers) : List PathCall :=
  if ifname.headD 0 = 0 then []
  else ⟨sysClassNet ifname, found.sysClass⟩ ::
    ((found.real.map (PathCall.mk (realpath (sysClassNet ifname)))).toList ++
      List.zipWith PathCall.mk (procPaths ifname) found.suffixes.toList)

/-- A call of `susfs_sync_interfaces`, with what is found for each interface. -/
structure Sync where
  enabled : Bool
  vpns : Option (List (List UInt8 × InterfaceAnswers))

def susfsSyncInterfaces (realpath : Path → Path) (s : Sync) : List PathCall :=
  match s.vpns with
  | none => []
  | some vpns =>
    if ¬ s.enabled then []
    else (vpns.take maxActiveVpns).flatMap fun vpn => susfsSyncInterface realpath vpn.1 vpn.2

def syncCalls (realpath : Path → Path) (syncs : List Sync) : List PathCall :=
  syncs.flatMap (susfsSyncInterfaces realpath)

def runCalls (cache : SusfsCache) (calls : List PathCall) : SusfsCache :=
  calls.foldl (fun cache c => (susfsRegisterPath c cache).2) cache

/-! ### What is wanted -/

/-- The tool is run by a call that follows `before`. -/
def ToolRuns (before : List PathCall) (c : PathCall) : Prop := (susfsRegisterPath c (runCalls .init before)).1 = true

def SusfsCache.validEntries (cache : SusfsCache) : List RegisteredPath := cache.entries.filter (·.valid)

def SusfsCache.validPaths (cache : SusfsCache) : List (List UInt8) := cache.validEntries.map (·.path)

structure RegisteredOnce (calls : List PathCall) : Prop where
  /-- After the tool has succeeded, it is not run again as long as the path leads to the same object. -/
  once : ∀ before c between c' after id, calls = before ++ c :: (between ++ c' :: after) →
    ToolRuns before c → c.answer.stat = some id → c.answer.added = true → c'.path = c.path →
    (∀ d ∈ between ++ [c'], d.path = c.path → d.answer.stat = some id) → ¬ ToolRuns (before ++ c :: between) c'
  /-- No path has two valid entries, at any time. -/
  single : ∀ before after, calls = before ++ after → (runCalls .init before).validPaths.Nodup

/-! ### The objects that are known -/

/-- What a perfect cache knows after a call: the last object that was registered at each path and not found missing
since. -/
def learn (known : Path → Option FileId) (c : PathCall) : Path → Option FileId :=
  Function.update known c.path
    (match c.answer.stat with
      | none => none
      | some id => if c.answer.added then some id else known c.path)

/-- No path is registered for another object while one is known there: it has been found missing in between. -/
def SeenMissing (known : Path → Option FileId) : List PathCall → Prop
  | [] => True
  | c :: calls =>
    (c.answer.added = true → ∀ id ∈ c.answer.stat, ∀ old ∈ known c.path, old = id) ∧ SeenMissing (learn known c) calls

instance decidableSeenMissing : ∀ known calls, Decidable (SeenMissing known calls)
  | _, [] => .isTrue trivial
  | known, c :: calls =>
    have := decidableSeenMissing (learn known c) calls
    inferInstanceAs (Decidable (_ ∧ _))

/-! ### One call -/

theorem susfsRegisterPath_none {c : PathCall} (h : c.answer.stat = none) (cache : SusfsCache) :
    susfsRegisterPath c cache = (false, susfsForgetPath c.path cache) := by
  rw [susfsRegisterPath, if_neg c.path.start, h]

theorem susfsRegisterPath_registered {c : PathCall} {id : FileId} {cache : SusfsCache} (h : c.answer.stat = some id)
    (hreg : susfsPathRegistered c.path id cache) : susfsRegisterPath c cache = (false, cache) := by
  rw [susfsRegisterPath, if_neg c.path.start, h]
  exact if_pos hreg

theorem susfsRegisterPath_new {c : PathCall} {id : FileId} {cache : SusfsCache} (h : c.answer.stat = some id)
    (hreg : ¬ susfsPathRegistered c.path id cache) :
    susfsRegisterPath c cache = (true, if c.answer.added then susfsRememberPath c.path id cache else cache) := by
  rw [susfsRegisterPath, if_neg c.path.start, h]
  dsimp only
  rw [if_neg hreg]
  split_ifs <;> rfl

theorem Path.ext {p q : Path} (h : p.bytes = q.bytes) : p = q := by
  cases p
  cases q
  cases h
  rfl

theorem susfsPathRegistered_iff {path : Path} {id : FileId} {cache : SusfsCache} :
    susfsPathRegistered path id cache ↔ ∃ e ∈ cache.validEntries, e.id = id ∧ e.path = path.bytes := by
  simp [susfsPathRegistered, SusfsCache.validEntries, and_assoc]

theorem validEntries_forget (path : Path) (cache : SusfsCache) :
    (susfsForgetPath path cache).validEntries = cache.validEntries.filter fun e => !decide (e.path = path.bytes) :=
  filter_release (fun _ => rfl) _ _

/-- Entries for some paths, fewer than there are places. -/
def SusfsCache.Within (cache : SusfsCache) (paths : List Path) : Prop :=
  ∀ e ∈ cache.validEntries, ∃ p ∈ paths, e.path = p.bytes

theorem validEntries_remember {paths : List Path} (hpaths : paths.length < susfsMaxPaths) {cache : SusfsCache}
    (hn : cache.validPaths.Nodup) (hwithin : cache.Within paths) (path : Path) (id : FileId) :
    (susfsRememberPath path id cache).validEntries.Perm (⟨path.bytes, id, true⟩ :: cache.validEntries) := by
  have hkeys : ∀ e ∈ cache.entries, e.valid → e.path ∈ paths.map (·.bytes) := by
    intro e he hvalid
    obtain ⟨p, hp, hpath⟩ := hwithin e (List.mem_filter.2 ⟨he, hvalid⟩)
    rw [hpath]
    exact List.mem_map_of_mem hp
  refine filter_storeFree rfl (exists_free_of_keys hn hkeys ?_)
  rw [List.length_map, cache.size]
  exact hpaths

/-! ### The cache against the objects that are known -/

section Refinement
variable {paths : List Path} {cache : SusfsCache} {known : Path → Option FileId} {c : PathCall}

/-- The cache holds what is known, in one entry for each path. -/
structure Holds (paths : List Path) (cache : SusfsCache) (known : Path → Option FileId) : Prop where
  single : cache.validPaths.Nodup
  within : cache.Within paths
  registered : ∀ path id, susfsPathRegistered path id cache ↔ known path = some id

theorem holds_init (paths : List Path) : Holds paths .init fun _ => none where
  single := by decide
  within := by
    intro e he
    cases he
  registered path id := by
    rw [susfsPathRegistered_iff]
    constructor
    · rintro ⟨e, he, -⟩
      cases he
    · rintro ⟨⟩

theorem learn_self (known : Path → Option FileId) (c : PathCall) :
    learn known c c.path = match c.answer.stat with
      | none => none
      | some id => if c.answer.added then some id else known c.path :=
  Function.update_self ..

theorem learn_of_ne {path : Path} (h : path ≠ c.path) (known : Path → Option FileId) :
    learn known c path = known path :=
  Function.update_of_ne h ..

namespace Holds

theorem forget (h : Holds paths cache known) (hstat : c.answer.stat = none) :
    Holds paths (susfsForgetPath c.path cache) (learn known c) where
  single := by
    rw [SusfsCache.validPaths, validEntries_forget]
    exact h.single.sublist (List.filter_sublist.map _)
  within e he := by
    rw [validEntries_forget] at he
    exact h.within e (List.mem_of_mem_filter he)
  registered path id := by
    rw [susfsPathRegistered_iff, validEntries_forget]
    by_cases hpath : path = c.path
    · subst hpath
      rw [learn_self, hstat]
      constructor
      · rintro ⟨e, he, -, hbytes⟩
        simp [hbytes] at he
      · rintro ⟨⟩
    · rw [learn_of_ne hpath, ← h.registered, susfsPathRegistered_iff]
      refine exists_congr fun e => and_congr_left fun ⟨_, hbytes⟩ => ?_
      rw [List.mem_filter, and_iff_left_iff_imp]
      intro _
      have hne : e.path ≠ c.path.bytes := fun heq => hpath (Path.ext (hbytes.symm.trans heq))
      simpa using hne

theorem mem_validPaths (h : Holds paths cache known) : c.path.bytes ∈ cache.validPaths ↔
    ∃ id, known c.path = some id := by
  constructor
  · intro hmem
    obtain ⟨e, he, hpath⟩ := List.mem_map.1 hmem
    exact ⟨e.id, (h.registered _ _).1 (susfsPathRegistered_iff.2 ⟨e, he, rfl, hpath⟩)⟩
  · rintro ⟨id, hid⟩
    obtain ⟨e, he, -, hpath⟩ := susfsPathRegistered_iff.1 ((h.registered _ _).2 hid)
    exact List.mem_map.2 ⟨e, he, hpath⟩

theorem validPaths_remember (h : Holds paths cache known) (hpaths : paths.length < susfsMaxPaths) (id : FileId) :
    (susfsRememberPath c.path id cache).validPaths.Perm (c.path.bytes :: cache.validPaths) :=
  (validEntries_remember hpaths h.single h.within c.path id).map _

theorem remember (h : Holds paths cache known) (hpaths : paths.length < susfsMaxPaths)
    (hmem : c.path ∈ paths) {id : FileId}
    (hstat : c.answer.stat = some id) (hadded : c.answer.added = true) (hnone : known c.path = none) :
    Holds paths (susfsRememberPath c.path id cache) (learn known c) := by
  have hperm := validEntries_remember hpaths h.single h.within c.path id
  constructor
  · rw [(h.validPaths_remember hpaths id).nodup_iff, List.nodup_cons, h.mem_validPaths, hnone]
    refine ⟨?_, h.single⟩
    rintro ⟨_, ⟨⟩⟩
  · intro e he
    rcases List.mem_cons.1 (hperm.mem_iff.1 he) with rfl | he
    · exact ⟨c.path, hmem, rfl⟩
    · exact h.within e he
  · intro path id'
    have hentry : susfsPathRegistered path id' (susfsRememberPath c.path id cache) ↔
        (id = id' ∧ c.path = path) ∨ susfsPathRegistered path id' cache := by
      rw [susfsPathRegistered_iff, susfsPathRegistered_iff]
      simp only [hperm.mem_iff, List.exists_mem_cons_iff]
      refine or_congr_left (and_congr_right fun _ => ?_)
      exact ⟨Path.ext, fun heq => congrArg Path.bytes heq⟩
    rw [hentry, h.registered]
    by_cases hpath : path = c.path
    · subst hpath
      rw [learn_self, hstat, hnone]
      simp [hadded]
    · rw [learn_of_ne hpath]
      simp [Ne.symm hpath]

theorem step (h : Holds paths cache known) (hpaths : paths.length < susfsMaxPaths) (hmem : c.path ∈ paths)
    (hc : c.answer.added = true → ∀ id ∈ c.answer.stat, ∀ old ∈ known c.path, old = id) :
    Holds paths (susfsRegisterPath c cache).2 (learn known c) := by
  cases hstat : c.answer.stat with
  | none =>
    rw [susfsRegisterPath_none hstat]
    exact h.forget hstat
  | some id =>
    by_cases hknown : known c.path = some id
    · rw [susfsRegisterPath_registered hstat ((h.registered _ _).2 hknown)]
      have hlearn : learn known c = known := by
        refine Function.update_eq_self_iff.2 ?_
        rw [hstat, hknown]
        exact ite_self _
      rwa [hlearn]
    · rw [susfsRegisterPath_new hstat (mt (h.registered _ _).1 hknown)]
      cases hadded : c.answer.added with
      | false =>
        have hlearn : learn known c = known := by
          refine Function.update_eq_self_iff.2 ?_
          rw [hstat, hadded]
          rfl
        rwa [hlearn]
      | true =>
        refine h.remember hpaths hmem hstat hadded ?_
        by_contra hsome
        obtain ⟨old, hold⟩ := Option.ne_none_iff_exists'.1 hsome
        exact hknown (hold.trans (congrArg some (hc hadded id hstat old hold)))

theorem not_nodup_step (h : Holds paths cache known) (hpaths : paths.length < susfsMaxPaths) {id old : FileId}
    (hstat : c.answer.stat = some id) (hadded : c.answer.added = true) (hold : known c.path = some old)
    (hne : old ≠ id) :
    ¬ (susfsRegisterPath c cache).2.validPaths.Nodup := by
  have hreg : ¬ susfsPathRegistered c.path id cache := by
    rw [h.registered, hold]
    exact fun heq => hne (Option.some.inj heq)
  rw [susfsRegisterPath_new hstat hreg, hadded]
  show ¬ (susfsRememberPath c.path id cache).validPaths.Nodup
  rw [(h.validPaths_remember hpaths id).nodup_iff, List.nodup_cons, h.mem_validPaths]
  exact fun hnodup => hnodup.1 ⟨old, hold⟩

end Holds

/-! ### Runs -/

theorem seenMissing_append (known : Path → Option FileId) (calls calls' : List PathCall) :
    SeenMissing known (calls ++ calls') ↔ SeenMissing known calls ∧ SeenMissing (calls.foldl learn known) calls' := by
  induction calls generalizing known with
  | nil => exact (and_iff_right trivial).symm
  | cons c calls ih => rw [List.cons_append, SeenMissing, SeenMissing, ih, and_assoc, List.foldl_cons]

theorem Holds.run (h : Holds paths cache known) (hpaths : paths.length < susfsMaxPaths) {calls : List PathCall}
    (hmem : ∀ c ∈ calls, c.path ∈ paths) (hseen : SeenMissing known calls) :
    Holds paths (runCalls cache calls) (calls.foldl learn known) := by
  induction calls generalizing cache known with
  | nil => exact h
  | cons c calls ih =>
    obtain ⟨hc, hcalls⟩ := List.forall_mem_cons.1 hmem
    exact ih (h.step hpaths hc hseen.1) hcalls hseen.2

/-- One entry for each path, all along, means that every change of an object has been seen. -/
theorem Holds.seenMissing (h : Holds paths cache known) (hpaths : paths.length < susfsMaxPaths) {calls : List PathCall}
    (hmem : ∀ c ∈ calls, c.path ∈ paths)
    (hsingle : ∀ before after, calls = before ++ after → (runCalls cache before).validPaths.Nodup) :
    SeenMissing known calls := by
  induction calls generalizing cache known with
  | nil => trivial
  | cons c calls ih =>
    obtain ⟨hc, hcalls⟩ := List.forall_mem_cons.1 hmem
    have hstep : c.answer.added = true → ∀ id ∈ c.answer.stat, ∀ old ∈ known c.path, old = id := by
      intro hadded id hstat old hold
      by_contra hne
      exact h.not_nodup_step hpaths hstat hadded hold hne (hsingle [c] calls rfl)
    refine ⟨hstep, ih (h.step hpaths hc hstep) hcalls ?_⟩
    rintro before after rfl
    exact hsingle (c :: before) after rfl

/-- An object stays known as long as its path leads to it. -/
theorem foldl_learn_of_stat {path : Path} {id : FileId} {calls : List PathCall} (h : known path = some id)
    (hstat : ∀ d ∈ calls, d.path = path → d.answer.stat = some id) : calls.foldl learn known path = some id := by
  induction calls generalizing known with
  | nil => exact h
  | cons d calls ih =>
    obtain ⟨hd, hcalls⟩ := List.forall_mem_cons.1 hstat
    refine ih ?_ hcalls
    by_cases hpath : d.path = path
    · subst hpath
      rw [learn_self, hd rfl, h]
      exact ite_self _
    · rw [learn_of_ne (Ne.symm hpath), h]

theorem registeredOnce_iff (hpaths : paths.length < susfsMaxPaths) {calls : List PathCall}
    (hmem : ∀ c ∈ calls, c.path ∈ paths) :
    RegisteredOnce calls ↔ SeenMissing (fun _ => none) calls := by
  constructor
  · intro h
    exact (holds_init paths).seenMissing hpaths hmem h.single
  · intro hseen
    constructor
    · rintro before c between c' after id rfl - hstat hadded hpath hsame hruns
      have hsplit : before ++ c :: (between ++ c' :: after) = (before ++ c :: between) ++ (c' :: after) := by simp
      rw [hsplit] at hseen hmem
      have hrun := (holds_init paths).run hpaths (fun d hd => hmem d (List.mem_append_left _ hd))
        ((seenMissing_append _ _ _).1 hseen).1
      have hknown : (before ++ c :: between).foldl learn (fun _ => none) c.path = some id := by
        rw [List.foldl_append, List.foldl_cons]
        refine foldl_learn_of_stat ?_ fun d hd => hsame d (List.mem_append_left _ hd)
        rw [learn_self, hstat]
        exact if_pos hadded
      have hreg := (hrun.registered c.path id).2 hknown
      have hstat' : c'.answer.stat = some id := hsame c' (List.mem_append_right _ List.mem_cons_self) hpath
      rw [← hpath] at hreg
      unfold ToolRuns at hruns
      rw [susfsRegisterPath_registered hstat' hreg] at hruns
      cases hruns
    · rintro before after rfl
      refine ((holds_init paths).run hpaths ?_ ((seenMissing_append _ _ _).1 hseen).1).single
      exact fun d hd => hmem d (List.mem_append_left _ hd)

end Refinement

/-! ### The paths of sixteen interfaces -/

def interfacePaths (realpath : Path → Path) (ifname : List UInt8) : List Path :=
  sysClassNet ifname :: realpath (sysClassNet ifname) :: procPaths ifname

theorem path_mem_interfacePaths {realpath : Path → Path} {ifname : List UInt8} {found : InterfaceAnswers} {c : PathCall}
    (h : c ∈ susfsSyncInterface realpath ifname found) : c.path ∈ interfacePaths realpath ifname := by
  unfold susfsSyncInterface at h
  split_ifs at h
  · cases h
  · rcases List.mem_cons.1 h with rfl | h
    · exact List.mem_cons_self
    rcases List.mem_append.1 h with h | h
    · simp only [Option.mem_toList, Option.map_eq_some_iff] at h
      obtain ⟨_, -, rfl⟩ := h
      exact List.mem_cons_of_mem _ List.mem_cons_self
    · refine List.mem_cons_of_mem _ (List.mem_cons_of_mem _ ?_)
      rw [List.mem_iff_getElem] at h
      obtain ⟨i, hi, rfl⟩ := h
      rw [List.getElem_zipWith]
      exact List.getElem_mem _

/-- The interfaces that a sync mentions. -/
def Sync.names (s : Sync) : List (List UInt8) := (s.vpns.getD []).map Prod.fst

theorem path_mem_syncCalls {realpath : Path → Path} {syncs : List Sync} {names : List (List UInt8)}
    (h : ∀ s ∈ syncs, ∀ ifname ∈ s.names, ifname ∈ names) :
    ∀ c ∈ syncCalls realpath syncs, c.path ∈ names.flatMap (interfacePaths realpath) := by
  intro c hc
  obtain ⟨s, hs, hc⟩ := List.mem_flatMap.1 hc
  unfold susfsSyncInterfaces at hc
  cases hvpns : s.vpns with
  | none =>
    rw [hvpns] at hc
    cases hc
  | some vpns =>
    rw [hvpns] at hc
    dsimp only at hc
    split_ifs at hc
    · obtain ⟨vpn, hvpn, hc⟩ := List.mem_flatMap.1 hc
      have hname : vpn.1 ∈ s.names := by
        rw [Sync.names, hvpns]
        exact List.mem_map_of_mem (List.mem_of_mem_take hvpn)
      exact List.mem_flatMap.2 ⟨vpn.1, h s hs _ hname, path_mem_interfacePaths hc⟩
    · cases hc

theorem length_flatMap_interfacePaths (realpath : Path → Path) (names : List (List UInt8)) :
    (names.flatMap (interfacePaths realpath)).length = 7 * names.length := by
  induction names with
  | nil => rfl
  | cons ifname names ih =>
    rw [List.flatMap_cons, List.length_append, ih, List.length_cons, Nat.mul_succ, Nat.add_comm]
    rfl

/-- For syncs that mention at most sixteen interfaces over time, the tool is run once for every object and no path has
two entries, if and only if every object has been seen to be gone before another one is registered at its path. -/
theorem susfsSync_registeredOnce_iff (realpath : Path → Path) (syncs : List Sync) {names : List (List UInt8)}
    (hnames : names.length ≤ maxActiveVpns) (hmention : ∀ s ∈ syncs, ∀ ifname ∈ s.names, ifname ∈ names) :
    RegisteredOnce (syncCalls realpath syncs) ↔ SeenMissing (fun _ => none) (syncCalls realpath syncs) := by
  refine registeredOnce_iff ?_ (path_mem_syncCalls hmention)
  rw [length_flatMap_interfacePaths]
  unfold susfsMaxPaths maxActiveVpns at *
  omega

def tun0 : List UInt8 := bytesOf "tun0"

/-- `tun0` is a link to its device. -/
def tunRealpath : Path → Path := fun _ => netPath "sys/devices/virtual/net/" tun0

/-- Every path of `tun0` leads to the object with this inode, and the tool succeeds. -/
def tunSync (ino : UInt64) : Sync :=
  ⟨true, some [(tun0, ⟨⟨some ⟨0, ino⟩, true⟩, some ⟨some ⟨0, ino⟩, true⟩, Vector.replicate 5 ⟨some ⟨0, ino⟩, true⟩⟩)]⟩

/-- Every path of `tun0` is missing; with the link, `realpath` fails. -/
def tunGone (real : Option Answer) : Sync :=
  ⟨true, some [(tun0, ⟨⟨none, true⟩, real, Vector.replicate 5 ⟨none, true⟩⟩)]⟩

theorem susfsSync_registeredOnce_tun :
    RegisteredOnce (syncCalls tunRealpath [tunSync 1, tunSync 1, tunGone (some ⟨none, true⟩), tunSync 2]) :=
  have hmention : ∀ s ∈ [tunSync 1, tunSync 1, tunGone (some ⟨none, true⟩), tunSync 2], ∀ ifname ∈ s.names,
      ifname ∈ [tun0] := by
    decide +kernel
  (susfsSync_registeredOnce_iff tunRealpath _ (by decide) hmention).2 (by decide +kernel)

/-- After `tun0` has been recreated, its device has two entries, even if a sync has found the interface missing: where
`realpath` fails, the device is not looked at. After nineteen objects the cache is full, and the tool is run for an
object for which it has succeeded before. -/
theorem susfsSync_recreated :
    ¬ (runCalls .init (syncCalls tunRealpath [tunSync 1, tunSync 2])).validPaths.Nodup ∧
    ¬ (runCalls .init (syncCalls tunRealpath [tunSync 1, tunGone none, tunSync 2])).validPaths.Nodup ∧
    ToolRuns (syncCalls tunRealpath ((List.range 19).map fun i => tunSync (.ofNat i)))
      ⟨netPath "proc/net/dev_snmp6/" tun0, ⟨some ⟨0, 18⟩, true⟩⟩ := by
  refine ⟨by decide +kernel, by decide +kernel, ?_⟩
  unfold ToolRuns
  decide +kernel

end VpnHide
