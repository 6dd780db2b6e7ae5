import Mathlib.Algebra.Order.Ring.Nat
import VpnHide.StatusText
import VpnHide.Lib.Exec

/-!
# Reading the status text in pieces (`vpnhide_dev_read`)

A reader keeps the text it was last given and how much of it has been read. When all has been read it frees the text and
makes a new one, if the configuration has changed since. The text is printed under `policy_apply_lock`, which keeps the
policy as it is but not the rest: the clear generation, the VPNs and the cover name are those of three moments. The
state of the reader has no lock of its own. As long as the calls on one file do not overlap, what they return is one
whole text after the other; no error loses a byte, and a read of nothing says that a text is at its end
(`devRead_stream`). While the device stays as it is, the file reads as one that holds its text (`devRead_file`). Calls
that overlap may free a text twice.
-/

namespace VpnHide

/-! ### Calls on one file -/

/-- `struct vpnhide_dev_reader`. -/
structure DevReader where
  generation : UInt64
  /-- a pointer, and the text behind it -/
  buf : Option (ℕ × List UInt8)
  bufLen : ℕ
  readPos : ℕ

structure ReadCall where
  count : ℕ
  uid : UInt32
  nonblock : Bool

inductive ReadErr
  | eagain | erestartsys | enomem | efault
  deriving DecidableEq, Repr

inductive DevResult
  | data (bytes : List UInt8)
  | error (e : ReadErr)
  deriving DecidableEq, Repr

def DevResult.bytes : DevResult → List UInt8
  | .data bytes => bytes
  | .error _ => []

/-- Where a call stands. -/
inductive ReadPhase
  | idle
  | waiting (call : ReadCall)
  /-- about to free the old text -/
  | freeing (call : ReadCall)
  /-- about to take `policy_apply_lock` -/
  | locking (call : ReadCall)
  | printing (call : ReadCall)
  | printedGen (call : ReadCall) (gen : UInt32)
  | printedVpns (call : ReadCall) (gen : UInt32) (vpns : Option VpnIfindexes)
  /-- the lock is released, the generation not yet sampled -/
  | stamping (call : ReadCall)
  | copying (call : ReadCall)

/-- The call holds `policy_apply_lock`. -/
def ReadPhase.Holds : ReadPhase → Prop
  | .printing _ | .printedGen _ _ | .printedVpns _ _ _ => True
  | _ => False

/-- One open file and the threads that read it. -/
structure ReadMachine (ι : Type) where
  device : DeviceState
  reader : DevReader
  threads : ι → ReadPhase
  /-- the reader that holds `policy_apply_lock` -/
  lock : Option ι
  /-- the allocated texts, and the next pointer -/
  live : List ℕ
  next : ℕ
  /-- memory was freed twice, or read where none is -/
  bad : Bool
  /-- the texts made so far, and the calls that have returned -/
  texts : List (List UInt8)
  returns : List (ReadCall × DevResult)

inductive ReadAct (ι : Type)
  /-- anything changes but the policy: a write, `VH_SET_VPN_IFINDEXES`, an intercept -/
  | change (device : DeviceState)
  /-- `VH_SET_POLICY`, and anything with it -/
  | publish (device : DeviceState)
  | start (w : ι) (call : ReadCall)
  | wake (w : ι)
  | interrupt (w : ι)
  | free (w : ι)
  | alloc (w : ι) (kvmalloc : Bool)
  | printGen (w : ι)
  | printVpns (w : ι)
  | printCover (w : ι)
  | stamp (w : ι)
  | copy (w : ι) (fault : Bool)

namespace ReadMachine
variable {ι : Type}

/-- After `vpnhide_dev_open`. -/
def opened (device : DeviceState) : ReadMachine ι where
  device
  reader := ⟨0, none, 0, 0⟩
  threads _ := .idle
  lock := none
  live := []
  next := 0
  bad := false
  texts := []
  returns := []

def generation (m : ReadMachine ι) : UInt64 := generationU64 m.device.kernel.generation

def policy (m : ReadMachine ι) : Option PolicySnapshot := m.device.kernel.policy

/-- What the calls have returned. -/
def returned (m : ReadMachine ι) : List UInt8 := m.returns.flatMap fun r => r.2.bytes

variable [DecidableEq ι]

def setThread (m : ReadMachine ι) (w : ι) (p : ReadPhase) : ReadMachine ι :=
  { m with threads := Function.update m.threads w p }

def finish (m : ReadMachine ι) (w : ι) (call : ReadCall) (result : DevResult) : ReadMachine ι :=
  { m.setThread w .idle with returns := m.returns ++ [(call, result)] }

def begin (m : ReadMachine ι) (w : ι) (call : ReadCall) : ReadMachine ι :=
  if m.reader.readPos ≥ m.reader.bufLen then
    if m.reader.generation ≥ m.generation then
      if call.uid ≠ 1000 then m.finish w call (.data [])
      else if call.nonblock then m.finish w call (.error .eagain)
      else m.setThread w (.waiting call)
    else m.setThread w (.freeing call)
  else m.setThread w (.copying call)

/-- `kvfree(reader->buf)`, which leaves the pointer where it is. -/
def freeBuf (m : ReadMachine ι) : ReadMachine ι :=
  match m.reader.buf with
  | none => m
  | some (id, _) => { m with live := m.live.erase id, bad := m.bad || id ∉ m.live }

/-- `mutex_lock` and `kvmalloc`. The memory is not written yet. -/
def lockAlloc (m : ReadMachine ι) (w : ι) (call : ReadCall) (kvmalloc : Bool) : ReadMachine ι :=
  if kvmalloc then
    { m.setThread w (.printing call) with
      reader := { m.reader with buf := some (m.next, []) }
      lock := some w
      live := m.next :: m.live
      next := m.next + 1 }
  else { m.finish w call (.error .enomem) with reader := { m.reader with buf := none } }

/-- `reader->buf` is written. -/
def touch (m : ReadMachine ι) : ReadMachine ι :=
  match m.reader.buf with
  | none => { m with bad := true }
  | some (id, _) => { m with bad := m.bad || id ∉ m.live }

/-- The text shows the generation and the VPNs as they were printed, and the rest as it is. -/
def shown (m : ReadMachine ι) (gen : UInt32) (vpns : Option VpnIfindexes) : List UInt8 :=
  statusText { m.device with javaStatsClearGeneration := gen, activeVpns := vpns }

/-- The rest of the text, up to `mutex_unlock`. -/
def finishText (m : ReadMachine ι) (w : ι) (call : ReadCall) (text : List UInt8) : ReadMachine ι :=
  { m.touch.setThread w (.stamping call) with
    reader := { m.reader with buf := m.reader.buf.map fun (id, _) => (id, text), bufLen := text.length }
    lock := none
    texts := m.texts ++ [text] }

/-- `min(count, reader->buf_len - reader->read_pos)`, where the difference may wrap. -/
def toCopy (m : ReadMachine ι) (call : ReadCall) : ℕ :=
  if m.reader.readPos ≤ m.reader.bufLen then min call.count (m.reader.bufLen - m.reader.readPos) else call.count

def copyOut (m : ReadMachine ι) (w : ι) (call : ReadCall) (fault : Bool) : ReadMachine ι :=
  match m.reader.buf with
  | none => { m.setThread w .idle with bad := true }
  | some (id, text) =>
    let safe := id ∈ m.live ∧ m.reader.readPos + m.toCopy call ≤ text.length
    let m' := { m with bad := m.bad || !decide safe }
    if fault then m'.finish w call (.error .efault)
    else
      { m'.finish w call (.data ((text.drop m.reader.readPos).take (m.toCopy call))) with
        reader := { m.reader with readPos := m.reader.readPos + m.toCopy call } }

def step (m : ReadMachine ι) : ReadAct ι → Option (ReadMachine ι)
  | .change device => some { m with device := { device with kernel.policy := m.policy } }
  | .publish device => if m.lock = none then some { m with device } else none
  | .start w call =>
    match m.threads w with
    | .idle => some (m.begin w call)
    | _ => none
  | .wake w =>
    match m.threads w with
    | .waiting call => if m.reader.generation < m.generation then some (m.setThread w (.freeing call)) else none
    | _ => none
  | .interrupt w =>
    match m.threads w with
    | .waiting call => some (m.finish w call (.error .erestartsys))
    | _ => none
  | .free w =>
    match m.threads w with
    | .freeing call => some (m.freeBuf.setThread w (.locking call))
    | _ => none
  | .alloc w kvmalloc =>
    match m.threads w with
    | .locking call => if m.lock = none then some (m.lockAlloc w call kvmalloc) else none
    | _ => none
  | .printGen w =>
    match m.threads w with
    | .printing call => some (m.touch.setThread w (.printedGen call m.device.javaStatsClearGeneration))
    | _ => none
  | .printVpns w =>
    match m.threads w with
    | .printedGen call gen => some (m.touch.setThread w (.printedVpns call gen m.device.activeVpns))
    | _ => none
  | .printCover w =>
    match m.threads w with
    | .printedVpns call gen vpns => some (m.finishText w call (m.shown gen vpns))
    | _ => none
  | .stamp w =>
    match m.threads w with
    | .stamping call =>
      some { m.setThread w (.copying call) with reader := { m.reader with generation := m.generation, readPos := 0 } }
    | _ => none
  | .copy w fault =>
    match m.threads w with
    | .copying call => some (m.copyOut w call fault)
    | _ => none

/-- A call starts only when no other is under way. -/
def Serial (m : ReadMachine ι) : ReadAct ι → Prop
  | .start _ _ => ∀ v, m.threads v = .idle
  | _ => True

end ReadMachine

/-! ### The invariant -/

section Inv
variable {ι : Type} {m m' : ReadMachine ι} {w : ι} {call : ReadCall}

/-- Every text has been returned whole. -/
structure AllRead (m : ReadMachine ι) : Prop where
  atEnd : m.reader.bufLen ≤ m.reader.readPos
  returned : m.returned = m.texts.flatten

/-- The texts before the last have been returned, and `pos` bytes of the last, which is in the buffer. -/
def ReadUpTo (m : ReadMachine ι) (pos : ℕ) : Prop :=
  ∃ done cur id, m.texts = done ++ [cur] ∧ m.returned = done.flatten ++ cur.take pos ∧ m.reader.buf = some (id, cur) ∧
    id ∈ m.live ∧ m.reader.bufLen = cur.length ∧ pos ≤ cur.length

def LiveBuf (m : ReadMachine ι) : Prop := ∀ id text, m.reader.buf = some (id, text) → id ∈ m.live

theorem ReadUpTo.liveBuf {pos : ℕ} (h : ReadUpTo m pos) : LiveBuf m := by
  obtain ⟨done, cur, id, -, -, hbuf, hlive, -, -⟩ := h
  intro id' text hbuf'
  cases hbuf.symm.trans hbuf'
  exact hlive

theorem ReadUpTo.allRead (h : ReadUpTo m m.reader.readPos) (hend : m.reader.bufLen ≤ m.reader.readPos) : AllRead m := by
  obtain ⟨done, cur, id, htexts, hreturned, -, -, hlen, hpos⟩ := h
  refine ⟨hend, ?_⟩
  rw [hreturned, htexts, List.take_of_length_le (by omega), List.flatten_append, List.flatten_singleton]

/-- What a call relies on where it stands. -/
def ReadPhase.Shape (m : ReadMachine ι) : ReadPhase → Prop
  | .idle => LiveBuf m ∧ (AllRead m ∨ ReadUpTo m m.reader.readPos)
  | .waiting _ | .freeing _ => LiveBuf m ∧ AllRead m
  | .locking _ => AllRead m
  | .printing _ | .printedGen _ _ | .printedVpns _ _ _ => (LiveBuf m ∧ m.reader.buf.isSome) ∧ AllRead m
  | .stamping _ => ReadUpTo m 0
  | .copying _ => ReadUpTo m m.reader.readPos

/-- At most one thread is inside a call, and where it stands it relies on `shape`. -/
structure OneInside (shape : ReadMachine ι → ReadPhase → Prop) (m : ReadMachine ι) : Prop where
  inside : ∀ w, m.threads w ≠ .idle → shape m (m.threads w)
  idle : (∀ w, m.threads w = .idle) → shape m .idle
  one : ∀ v w, m.threads v ≠ .idle → m.threads w ≠ .idle → v = w

namespace OneInside
variable {shape : ReadMachine ι → ReadPhase → Prop}

theorem of_own (w : ι) (hothers : ∀ v, v ≠ w → m'.threads v = .idle) (hshape : shape m' (m'.threads w)) :
    OneInside shape m' := by
  refine ⟨fun v hv => ?_, fun hidle => ?_, fun u v hu hv => ?_⟩
  · by_cases hvw : v = w
    · rw [hvw]
      exact hshape
    · exact absurd (hothers v hvw) hv
  · rw [hidle w] at hshape
    exact hshape
  · have huw : u = w := not_imp_comm.1 (hothers u) hu
    have hvw : v = w := not_imp_comm.1 (hothers v) hv
    rw [huw, hvw]

theorem at_phase (h : OneInside shape m) {p : ReadPhase} (hw : m.threads w = p) (hp : p ≠ .idle) :
    shape m p ∧ ∀ v, v ≠ w → m.threads v = .idle := by
  subst hw
  exact ⟨h.inside w hp, fun v hv => by_contra fun hactive => hv (h.one v w hactive hp)⟩

theorem elim {P : Prop} (h : OneInside shape m) (himp : ∀ p, shape m p → P) : P := by
  by_cases hidle : ∀ w, m.threads w = .idle
  · exact himp _ (h.idle hidle)
  · obtain ⟨w, hw⟩ := not_forall.1 hidle
    exact himp _ (h.inside w hw)

theorem mono (h : OneInside shape m) (hthreads : m'.threads = m.threads) (hshape : ∀ p, shape m p → shape m' p) :
    OneInside shape m' := by
  refine ⟨?_, ?_, ?_⟩ <;> rw [hthreads]
  · exact fun w hw => hshape _ (h.inside w hw)
  · exact fun hidle => hshape _ (h.idle hidle)
  · exact h.one

end OneInside

structure ReadInv (m : ReadMachine ι) : Prop where
  good : m.bad = false
  one : OneInside ReadPhase.Shape m

theorem ReadInv.opened (device : DeviceState) : ReadInv (.opened device : ReadMachine ι) where
  good := rfl
  one := by
    refine ⟨fun _ h => absurd rfl h, fun _ => ⟨fun _ _ h => ?_, .inl ⟨le_rfl, rfl⟩⟩, fun _ _ h => absurd rfl h⟩
    cases h

theorem ReadPhase.Shape.congr {p : ReadPhase} (h : p.Shape m) (hreader : m'.reader = m.reader)
    (hlive : m'.live = m.live) (htexts : m'.texts = m.texts) (hreturned : m'.returned = m.returned) : p.Shape m' := by
  have hall : AllRead m → AllRead m' := fun h => ⟨hreader ▸ h.atEnd, by rw [hreturned, htexts]; exact h.returned⟩
  have hupto : ∀ pos, ReadUpTo m pos → ReadUpTo m' pos := fun pos h => by
    unfold ReadUpTo
    rw [hreturned, htexts, hreader, hlive]
    exact h
  have hbuf : LiveBuf m → LiveBuf m' := fun h => by
    unfold LiveBuf
    rw [hreader, hlive]
    exact h
  cases p with
  | idle => exact ⟨hbuf h.1, h.2.imp hall (hreader ▸ hupto _)⟩
  | waiting | freeing => exact ⟨hbuf h.1, hall h.2⟩
  | locking => exact hall h
  | printing | printedGen | printedVpns => exact ⟨⟨hbuf h.1.1, hreader ▸ h.1.2⟩, hall h.2⟩
  | stamping => exact hupto 0 h
  | copying =>
    unfold ReadPhase.Shape
    rw [hreader]
    exact hupto _ h

theorem ReadUpTo.toCopy (h : ReadUpTo m m.reader.readPos) (call : ReadCall) :
    m.toCopy call = min call.count (m.reader.bufLen - m.reader.readPos) := by
  obtain ⟨done, cur, id, -, -, -, -, hlen, hpos⟩ := h
  exact if_pos (hlen ▸ hpos)

variable [DecidableEq ι]

section Threads
variable (m : ReadMachine ι) (w : ι) (p : ReadPhase) (call : ReadCall) (result : DevResult)

theorem ReadMachine.threads_setThread_self : (m.setThread w p).threads w = p := Function.update_self ..

theorem ReadMachine.threads_setThread_of_ne {v : ι} (hv : v ≠ w) : (m.setThread w p).threads v = m.threads v :=
  Function.update_of_ne hv ..

theorem ReadMachine.returned_finish : (m.finish w call result).returned = m.returned ++ result.bytes := by
  unfold returned finish
  rw [List.flatMap_append, List.flatMap_singleton]

end Threads

theorem OneInside.moved {shape : ReadMachine ι → ReadPhase → Prop} {p : ReadPhase}
    (hothers : ∀ v, v ≠ w → m.threads v = .idle) (hthreads : m'.threads = (m.setThread w p).threads) (hp : shape m' p) :
    OneInside shape m' := by
  refine OneInside.of_own w (fun v hv => ?_) ?_
  · rw [hthreads, m.threads_setThread_of_ne w p hv]
    exact hothers v hv
  · rw [hthreads, m.threads_setThread_self w p]
    exact hp

theorem ReadInv.setThread (h : ReadInv m) (hothers : ∀ v, v ≠ w → m.threads v = .idle) {p : ReadPhase}
    (hp : p.Shape m) :
    ReadInv (m.setThread w p) :=
  ⟨h.good, .moved hothers rfl (hp.congr rfl rfl rfl rfl)⟩

theorem ReadInv.finish (h : ReadInv m) (hothers : ∀ v, v ≠ w → m.threads v = .idle) (hp : ReadPhase.idle.Shape m)
    {result : DevResult} (hnone : result.bytes = []) : ReadInv (m.finish w call result) := by
  refine ⟨h.good, .moved hothers rfl (hp.congr rfl rfl rfl ?_)⟩
  rw [ReadMachine.returned_finish, hnone, List.append_nil]

theorem ReadInv.begin (h : ReadInv m) (hidle : ∀ v, m.threads v = .idle) : ReadInv (m.begin w call) := by
  have hothers : ∀ v, v ≠ w → m.threads v = .idle := fun v _ => hidle v
  obtain ⟨hbuf, hread⟩ := h.one.idle hidle
  unfold ReadMachine.begin
  split_ifs with hend hgen huid hnonblock
  · exact h.finish hothers ⟨hbuf, hread⟩ rfl
  · exact h.finish hothers ⟨hbuf, hread⟩ rfl
  · exact h.setThread hothers ⟨hbuf, hread.elim id fun hupto => hupto.allRead hend⟩
  · exact h.setThread hothers ⟨hbuf, hread.elim id fun hupto => hupto.allRead hend⟩
  · exact h.setThread hothers (hread.resolve_left fun hall => hend hall.atEnd)

theorem ReadInv.freeBuf (h : ReadInv m) (hothers : ∀ v, v ≠ w → m.threads v = .idle)
    (hp : (ReadPhase.freeing call).Shape m) : ReadInv (m.freeBuf.setThread w (.locking call)) := by
  obtain ⟨hbuf, hall⟩ := hp
  cases hm : m.reader.buf with
  | none =>
    have hsame : m.freeBuf = m := by
      unfold ReadMachine.freeBuf
      rw [hm]
    rw [hsame]
    exact h.setThread hothers hall
  | some x =>
    have hlive : x.1 ∈ m.live := hbuf x.1 x.2 hm
    have hfree : m.freeBuf = { m with live := m.live.erase x.1, bad := m.bad || x.1 ∉ m.live } := by
      unfold ReadMachine.freeBuf
      rw [hm]
    rw [hfree]
    refine ⟨?_, .moved hothers rfl ⟨hall.atEnd, hall.returned⟩⟩
    show (m.bad || decide (x.1 ∉ m.live)) = false
    simp [h.good, hlive]

theorem ReadInv.lockAlloc (h : ReadInv m) (hothers : ∀ v, v ≠ w → m.threads v = .idle) (hall : AllRead m)
    (kvmalloc : Bool) : ReadInv (m.lockAlloc w call kvmalloc) := by
  unfold ReadMachine.lockAlloc
  split_ifs
  · refine ⟨h.good, .moved hothers rfl ⟨⟨?_, rfl⟩, hall.atEnd, hall.returned⟩⟩
    rintro id text ⟨⟩
    exact List.mem_cons_self ..
  · -- the old text is gone, but it had been read to its end
    refine ⟨h.good, .moved hothers rfl ⟨nofun, .inl ⟨hall.atEnd, ?_⟩⟩⟩
    exact (m.returned_finish w call (.error .enomem)).trans ((List.append_nil _).trans hall.returned)

omit [DecidableEq ι] in
theorem LiveBuf.touch_eq (h : LiveBuf m) (hsome : m.reader.buf.isSome) : m.touch = m := by
  obtain ⟨⟨id, text⟩, hbuf⟩ := Option.isSome_iff_exists.1 hsome
  have hlive : id ∈ m.live := h id text hbuf
  unfold ReadMachine.touch
  rw [hbuf]
  simp [hlive]

theorem ReadInv.finishText (h : ReadInv m) (hothers : ∀ v, v ≠ w → m.threads v = .idle) (hbuf : LiveBuf m)
    (hsome : m.reader.buf.isSome) (hall : AllRead m) (text : List UInt8) : ReadInv (m.finishText w call text) := by
  unfold ReadMachine.finishText
  rw [hbuf.touch_eq hsome]
  obtain ⟨⟨id, old⟩, hold⟩ := Option.isSome_iff_exists.1 hsome
  refine ⟨h.good, .moved hothers rfl ⟨m.texts, text, id, rfl, ?_, ?_, hbuf id old hold, rfl, Nat.zero_le _⟩⟩
  · rw [List.take_zero, List.append_nil]
    exact hall.returned
  · exact congrArg (Option.map _) hold

theorem ReadInv.copyOut (h : ReadInv m) (hothers : ∀ v, v ≠ w → m.threads v = .idle)
    (hp : (ReadPhase.copying call).Shape m) (fault : Bool) : ReadInv (m.copyOut w call fault) := by
  have hlivebuf := ReadUpTo.liveBuf hp
  have hcopy := ReadUpTo.toCopy hp call
  obtain ⟨done, cur, id, htexts, hreturned, hbuf, hlive, hlen, hpos⟩ := hp
  have hsafe : id ∈ m.live ∧ m.reader.readPos + m.toCopy call ≤ cur.length := ⟨hlive, by omega⟩
  have hgood : (m.bad || !decide (id ∈ m.live ∧ m.reader.readPos + m.toCopy call ≤ cur.length)) = false := by
    simp [h.good, hsafe]
  unfold ReadMachine.copyOut
  rw [hbuf]
  dsimp only
  split_ifs
  · refine ⟨hgood, .moved hothers rfl ⟨hlivebuf, .inr ⟨done, cur, id, htexts, ?_, hbuf, hlive, hlen, hpos⟩⟩⟩
    exact (m.returned_finish w call (.error .efault)).trans ((List.append_nil _).trans hreturned)
  · refine ⟨hgood, .moved hothers rfl ⟨hlivebuf, .inr ⟨done, cur, id, htexts, ?_, hbuf, hlive, hlen, hsafe.2⟩⟩⟩
    refine (m.returned_finish w call (.data ((cur.drop m.reader.readPos).take (m.toCopy call)))).trans ?_
    rw [hreturned, List.append_assoc, List.take_add]
    rfl

/-! ### What a step does -/

/-- What the thread that acts does, with the phase it is in. -/
inductive ReadMove (m : ReadMachine ι) (w : ι) (m' : ReadMachine ι) : ReadAct ι → ReadPhase → Prop
  | begin (call : ReadCall) (h : m' = m.begin w call) : ReadMove m w m' (.start w call) .idle
  | wake (call : ReadCall) (hgen : m.reader.generation < m.generation) (h : m' = m.setThread w (.freeing call)) :
      ReadMove m w m' (.wake w) (.waiting call)
  | interrupt (call : ReadCall) (h : m' = m.finish w call (.error .erestartsys)) :
      ReadMove m w m' (.interrupt w) (.waiting call)
  | free (call : ReadCall) (h : m' = m.freeBuf.setThread w (.locking call)) : ReadMove m w m' (.free w) (.freeing call)
  | alloc (call : ReadCall) (kvmalloc : Bool) (hfree : m.lock = none) (h : m' = m.lockAlloc w call kvmalloc) :
      ReadMove m w m' (.alloc w kvmalloc) (.locking call)
  | printGen (call : ReadCall)
      (h : m' = m.touch.setThread w (.printedGen call m.device.javaStatsClearGeneration)) :
      ReadMove m w m' (.printGen w) (.printing call)
  | printVpns (call : ReadCall) (gen : UInt32)
      (h : m' = m.touch.setThread w (.printedVpns call gen m.device.activeVpns)) :
      ReadMove m w m' (.printVpns w) (.printedGen call gen)
  | printCover (call : ReadCall) (gen : UInt32) (vpns : Option VpnIfindexes)
      (h : m' = m.finishText w call (m.shown gen vpns)) :
      ReadMove m w m' (.printCover w) (.printedVpns call gen vpns)
  | stamp (call : ReadCall) (h : m' = { m.setThread w (.copying call) with
      reader := { m.reader with generation := m.generation, readPos := 0 } }) :
      ReadMove m w m' (.stamp w) (.stamping call)
  | copy (call : ReadCall) (fault : Bool) (h : m' = m.copyOut w call fault) :
      ReadMove m w m' (.copy w fault) (.copying call)

/-- What the rest of the system does to the device: while a reader holds the lock, the policy stays. -/
structure DeviceMove (m m' : ReadMachine ι) (device : DeviceState) : Prop where
  eq : m' = { m with device }
  policy : m.lock ≠ none → device.kernel.policy = m.policy

theorem ReadMachine.step_cases {a : ReadAct ι} (h : m.step a = some m') :
    (∃ device, (a = .change device ∨ a = .publish device) ∧ ∃ device', DeviceMove m m' device') ∨
      ∃ w, ReadMove m w m' a (m.threads w) := by
  cases a with
  | change device => exact .inl ⟨device, .inl rfl, _, (Option.some.inj h).symm, fun _ => rfl⟩
  | publish device =>
    rw [step] at h
    split_ifs at h with hfree
    exact .inl ⟨device, .inr rfl, device, (Option.some.inj h).symm, fun hheld => absurd hfree hheld⟩
  | start w call | interrupt w | free w | printGen w | printVpns w | printCover w | stamp w | copy w fault =>
    refine .inr ⟨w, ?_⟩
    dsimp only [step] at h
    split at h
    case h_2 => cases h
    case h_1 hw =>
      rw [hw]
      constructor
      exact (Option.some.inj h).symm
  | wake w =>
    refine .inr ⟨w, ?_⟩
    dsimp only [step] at h
    split at h
    case h_2 => cases h
    case h_1 call hw =>
      rw [hw]
      split_ifs at h with hgen
      exact .wake call hgen (Option.some.inj h).symm
  | alloc w kvmalloc =>
    refine .inr ⟨w, ?_⟩
    dsimp only [step] at h
    split at h
    case h_2 => cases h
    case h_1 call hw =>
      rw [hw]
      split_ifs at h with hfree
      exact .alloc call kvmalloc hfree (Option.some.inj h).symm

theorem ReadInv.step (h : ReadInv m) {a : ReadAct ι} (hserial : m.Serial a) (hstep : m.step a = some m') :
    ReadInv m' := by
  obtain ⟨-, -, device, rfl, -⟩ | ⟨w, hmove⟩ := ReadMachine.step_cases hstep
  · exact ⟨h.good, h.one.mono rfl fun p hp => hp.congr rfl rfl rfl rfl⟩
  · generalize hw : m.threads w = p at hmove
    cases hmove with
    | begin call hm' => exact hm' ▸ h.begin hserial
    | wake call _ hm' =>
      obtain ⟨hshape, hothers⟩ := h.one.at_phase hw nofun
      exact hm' ▸ h.setThread hothers hshape
    | interrupt call hm' =>
      obtain ⟨⟨hbuf, hall⟩, hothers⟩ := h.one.at_phase hw nofun
      exact hm' ▸ h.finish hothers ⟨hbuf, .inl hall⟩ rfl
    | free call hm' =>
      obtain ⟨hshape, hothers⟩ := h.one.at_phase hw nofun
      exact hm' ▸ h.freeBuf hothers hshape
    | alloc call kvmalloc _ hm' =>
      obtain ⟨hshape, hothers⟩ := h.one.at_phase hw nofun
      exact hm' ▸ h.lockAlloc hothers hshape kvmalloc
    | printGen call hm' | printVpns call gen hm' =>
      obtain ⟨hshape, hothers⟩ := h.one.at_phase hw nofun
      rw [hshape.1.1.touch_eq hshape.1.2] at hm'
      exact hm' ▸ h.setThread hothers hshape
    | printCover call gen vpns hm' =>
      obtain ⟨⟨⟨hbuf, hsome⟩, hall⟩, hothers⟩ := h.one.at_phase hw nofun
      exact hm' ▸ h.finishText hothers hbuf hsome hall _
    | stamp call hm' =>
      obtain ⟨hshape, hothers⟩ := h.one.at_phase hw nofun
      subst hm'
      exact ⟨h.good, .moved hothers rfl hshape⟩
    | copy call fault hm' =>
      obtain ⟨hshape, hothers⟩ := h.one.at_phase hw nofun
      exact hm' ▸ h.copyOut hothers hshape fault

/-! ### Runs -/

section Frame
variable (m : ReadMachine ι) (w : ι) (call : ReadCall)

omit [DecidableEq ι] in
theorem ReadMachine.freeBuf_eq : ∃ live bad, m.freeBuf = { m with live, bad } := by
  unfold freeBuf
  split
  · exact ⟨m.live, m.bad, rfl⟩
  · exact ⟨_, _, rfl⟩

omit [DecidableEq ι] in
theorem ReadMachine.touch_eq : ∃ bad, m.touch = { m with bad } := by
  unfold touch
  split <;> exact ⟨_, rfl⟩

theorem ReadMachine.copyOut_eq (fault : Bool) : ∃ bad readPos returns, m.copyOut w call fault =
    { m.setThread w .idle with bad, returns, reader := { m.reader with readPos } } := by
  unfold copyOut
  split
  · exact ⟨true, m.reader.readPos, m.returns, rfl⟩
  · dsimp only
    split_ifs
    · exact ⟨_, m.reader.readPos, _, rfl⟩
    · exact ⟨_, _, _, rfl⟩

theorem ReadMachine.begin_eq : ∃ p returns, m.begin w call = { m.setThread w p with returns } ∧ ¬ p.Holds := by
  unfold begin
  split_ifs
  · exact ⟨.idle, _, rfl, id⟩
  · exact ⟨.idle, _, rfl, id⟩
  · exact ⟨.waiting call, m.returns, rfl, id⟩
  · exact ⟨.freeing call, m.returns, rfl, id⟩
  · exact ⟨.copying call, m.returns, rfl, id⟩

end Frame

omit [DecidableEq ι] in
theorem ReadInv.read (h : ReadInv m) : m.returned = m.texts.flatten ∨ ∃ pos, ReadUpTo m pos := by
  refine h.one.elim fun p hp => ?_
  cases p with
  | idle => exact hp.2.imp AllRead.returned fun hupto => ⟨_, hupto⟩
  | waiting | freeing => exact .inl hp.2.returned
  | locking => exact .inl hp.returned
  | printing | printedGen | printedVpns => exact .inl hp.2.returned
  | stamping | copying => exact .inr ⟨_, hp⟩

omit [DecidableEq ι] in
theorem ReadInv.between (h : ReadInv m) : m.returned <+: m.texts.flatten ∧ m.texts.dropLast.flatten <+: m.returned := by
  obtain hall | ⟨pos, done, cur, id, htexts, hreturned, -⟩ := h.read
  · obtain ⟨last, hlast⟩ := List.dropLast_prefix m.texts
    rw [hall]
    exact ⟨List.prefix_rfl, last.flatten, by rw [← List.flatten_append, hlast]⟩
  · rw [hreturned, htexts, List.dropLast_concat, List.flatten_append, List.flatten_singleton]
    exact ⟨(List.prefix_append_right_inj _).2 (List.take_prefix ..), List.prefix_append ..⟩

/-- What a call may return. -/
inductive Answers (m : ReadMachine ι) (call : ReadCall) : DevResult → Prop
  | error (e : ReadErr) : Answers m call (.error e)
  | nothing (hread : m.returned = m.texts.flatten) (hgen : m.generation ≤ m.reader.generation) :
    Answers m call (.data [])
  | piece (done : List (List UInt8)) (cur : List UInt8) (pos : ℕ) (htexts : m.texts = done ++ [cur])
      (hreturned : m.returned = done.flatten ++ cur.take pos) (hpos : pos ≤ cur.length) :
      Answers m call (.data ((cur.drop pos).take call.count))

theorem ReadInv.returns_step (h : ReadInv m) {a : ReadAct ι} (hserial : m.Serial a) (hstep : m.step a = some m') :
    m'.returns = m.returns ∨ ∃ call result, m'.returns = m.returns ++ [(call, result)] ∧ Answers m call result := by
  obtain ⟨-, -, device, rfl, -⟩ | ⟨w, hmove⟩ := ReadMachine.step_cases hstep
  · exact .inl rfl
  · generalize hw : m.threads w = p at hmove
    obtain ⟨bad, htouch⟩ := m.touch_eq
    cases hmove with
    | wake _ _ hm' | stamp _ hm' => exact .inl (hm' ▸ rfl)
    | free call hm' =>
      obtain ⟨live, bad, hfree⟩ := m.freeBuf_eq
      rw [hm', hfree]
      exact .inl rfl
    | printGen _ hm' | printVpns _ _ hm' =>
      rw [hm', htouch]
      exact .inl rfl
    | printCover _ _ _ hm' =>
      rw [hm', ReadMachine.finishText, htouch]
      exact .inl rfl
    | interrupt call hm' =>
      subst hm'
      exact .inr ⟨call, _, rfl, .error _⟩
    | begin call hm' =>
      subst hm'
      unfold ReadMachine.begin
      split_ifs with hend hgen huid hnonblock
      · obtain ⟨-, hread⟩ := h.one.idle hserial
        exact .inr ⟨call, _, rfl, .nothing (hread.elim id fun hupto => hupto.allRead hend).returned hgen⟩
      · exact .inr ⟨call, _, rfl, .error _⟩
      · exact .inl rfl
      · exact .inl rfl
      · exact .inl rfl
    | alloc call kvmalloc _ hm' =>
      subst hm'
      unfold ReadMachine.lockAlloc
      split_ifs
      · exact .inl rfl
      · exact .inr ⟨call, _, rfl, .error _⟩
    | copy call fault hm' =>
      subst hm'
      obtain ⟨hupto, -⟩ := h.one.at_phase hw nofun
      have hcopy := ReadUpTo.toCopy hupto call
      obtain ⟨done, cur, id, htexts, hreturned, hbuf, -, hlen, hpos⟩ := hupto
      unfold ReadMachine.copyOut
      rw [hbuf]
      dsimp only
      split_ifs
      · exact .inr ⟨call, _, rfl, .error _⟩
      · -- the count is cut to what is left, which taking does by itself
        have htake :
            (cur.drop m.reader.readPos).take (m.toCopy call) = (cur.drop m.reader.readPos).take call.count := by
          rw [List.take_eq_take_iff, List.length_drop]
          omega
        exact .inr ⟨call, _, rfl, htake ▸ .piece done cur _ htexts hreturned hpos⟩

omit [DecidableEq ι] in
/-- A read that asks for something and gets nothing comes when all texts have been read. -/
theorem Answers.allRead (h : Answers m call (.data [])) (hcount : 0 < call.count) : m.returned = m.texts.flatten := by
  generalize hresult : DevResult.data [] = result at h
  cases h with
  | error => cases hresult
  | nothing hread => exact hread
  | piece done cur pos htexts hreturned hpos =>
    have hlen : 0 = min call.count (cur.length - pos) := by
      rw [← List.length_drop, ← List.length_take, ← DevResult.data.inj hresult, List.length_nil]
    rw [hreturned, htexts, List.take_of_length_le (by omega), List.flatten_append, List.flatten_singleton]

/-- The calls of a run do not overlap. -/
def SerialRun (m : ReadMachine ι) (acts : List (ReadAct ι)) : Prop :=
  ∀ m' a rest, Visits ReadMachine.step m acts m' (a :: rest) → m'.Serial a

theorem ReadInv.run {device : DeviceState} : ∀ acts (m : ReadMachine ι),
    execs ReadMachine.step (.opened device) acts = some m → SerialRun (.opened device) acts → ReadInv m := by
  refine execs_induction (fun _ => .opened device) fun acts m a m' hrun ih hstep hserial => ?_
  obtain ⟨hbefore, hlast⟩ := (forall_visits_concat hrun).1 hserial
  exact (ih hbefore).step hlast hstep

theorem ReadInv.visited {device : DeviceState} {acts rest : List (ReadAct ι)}
    (hserial : SerialRun (.opened device : ReadMachine ι) acts)
    (hvisits : Visits ReadMachine.step (.opened device) acts m rest) : ReadInv m := by
  obtain ⟨before, rfl, hbefore⟩ := hvisits
  refine ReadInv.run before m hbefore fun m' a rest' hvisits' => ?_
  exact hserial m' a (rest' ++ rest) (hvisits'.append rest)

/-! ### What the texts show -/

/-- The text shows the clear generation of one moment of the run, the VPNs of a later one and all the rest of a third
one, with one policy at all of them. -/
def ShowsMoments (start : ReadMachine ι) (acts : List (ReadAct ι)) (text : List UInt8) : Prop :=
  ∃ m₁ rest₁ m₂ rest₂ m₃ rest₃, Visits ReadMachine.step start acts m₁ rest₁ ∧
    Visits ReadMachine.step m₁ rest₁ m₂ rest₂ ∧ Visits ReadMachine.step m₂ rest₂ m₃ rest₃ ∧
    m₁.policy = m₃.policy ∧ m₂.policy = m₃.policy ∧
    text = m₃.shown m₁.device.javaStatsClearGeneration m₂.device.activeVpns

theorem ShowsMoments.snoc {start : ReadMachine ι} {acts : List (ReadAct ι)} {text : List UInt8}
    (h : ShowsMoments start acts text) (a : ReadAct ι) : ShowsMoments start (acts ++ [a]) text := by
  obtain ⟨m₁, rest₁, m₂, rest₂, m₃, rest₃, h₁, h₂, h₃, hshown⟩ := h
  exact ⟨m₁, rest₁ ++ [a], m₂, rest₂ ++ [a], m₃, rest₃ ++ [a], h₁.snoc a, h₂.snoc a, h₃.snoc a, hshown⟩

/-- What a call has printed so far is of moments of the run at which the policy was the one it is now. -/
def ReadPhase.Sampled (start : ReadMachine ι) (acts : List (ReadAct ι)) (policy : Option PolicySnapshot) :
    ReadPhase → Prop
  | .printedGen _ gen => ∃ m₁ rest₁, Visits ReadMachine.step start acts m₁ rest₁ ∧ m₁.policy = policy ∧
    gen = m₁.device.javaStatsClearGeneration
  | .printedVpns _ gen vpns => ∃ m₁ rest₁ m₂ rest₂, Visits ReadMachine.step start acts m₁ rest₁ ∧
    Visits ReadMachine.step m₁ rest₁ m₂ rest₂ ∧ m₁.policy = policy ∧ m₂.policy = policy ∧
    gen = m₁.device.javaStatsClearGeneration ∧ vpns = m₂.device.activeVpns
  | _ => True

section Samples
variable {start : ReadMachine ι} {acts : List (ReadAct ι)} {p : ReadPhase}

theorem ReadPhase.Sampled.snoc {policy : Option PolicySnapshot} (h : p.Sampled start acts policy) (a : ReadAct ι) :
    p.Sampled start (acts ++ [a]) policy := by
  cases p with
  | printedGen =>
    obtain ⟨m₁, rest₁, h₁, hsample⟩ := h
    exact ⟨m₁, rest₁ ++ [a], h₁.snoc a, hsample⟩
  | printedVpns =>
    obtain ⟨m₁, rest₁, m₂, rest₂, h₁, h₂, hsample⟩ := h
    exact ⟨m₁, rest₁ ++ [a], m₂, rest₂ ++ [a], h₁.snoc a, h₂.snoc a, hsample⟩
  | _ => trivial

theorem ReadPhase.sampled_of_not_holds (h : ¬ p.Holds) (policy : Option PolicySnapshot) :
    p.Sampled start acts policy := by
  cases p with
  | printedGen | printedVpns => exact absurd trivial h
  | _ => trivial

/-- The calls that print hold the lock, so no publish can come between what they sample. -/
structure SampleInv (start : ReadMachine ι) (acts : List (ReadAct ι)) (m : ReadMachine ι) : Prop where
  texts : ∀ text ∈ m.texts, ShowsMoments start acts text
  lock : ∀ v, (m.threads v).Holds → m.lock = some v
  sampled : ∀ v, (m.threads v).Sampled start acts m.policy

/-- One thread has acted. The others that print, if any, still hold the lock and the policy is the same. -/
theorem SampleInv.moved (h : SampleInv start acts m) (a : ReadAct ι) (w : ι)
    (hthreads : m'.threads = (m.setThread w p).threads) (hpolicy : m'.policy = m.policy)
    (hlock : ∀ v, v ≠ w → m.lock = some v → m'.lock = some v)
    (htexts : ∀ text ∈ m'.texts, ShowsMoments start (acts ++ [a]) text) (hown : p.Holds → m'.lock = some w)
    (hsample : p.Sampled start (acts ++ [a]) m.policy) : SampleInv start (acts ++ [a]) m' := by
  have hself : m'.threads w = p := by rw [hthreads, m.threads_setThread_self w p]
  have hothers : ∀ v, v ≠ w → m'.threads v = m.threads v := fun v hv => by
    rw [hthreads, m.threads_setThread_of_ne w p hv]
  refine ⟨htexts, fun v hv => ?_, fun v => ?_⟩
  · by_cases hvw : v = w
    · subst hvw
      exact hown (hself ▸ hv)
    · exact hlock v hvw (h.lock v (hothers v hvw ▸ hv))
  · rw [hpolicy]
    by_cases hvw : v = w
    · rw [hvw, hself]
      exact hsample
    · rw [hothers v hvw]
      exact (h.sampled v).snoc a

theorem SampleInv.outside (h : SampleInv start acts m) (a : ReadAct ι) (w : ι) (hp : ¬ p.Holds)
    (hthreads : m'.threads = (m.setThread w p).threads) (hdevice : m'.device = m.device) (hlock : m'.lock = m.lock)
    (htexts : m'.texts = m.texts) : SampleInv start (acts ++ [a]) m' :=
  h.moved a w hthreads (congrArg (·.kernel.policy) hdevice) (fun _ _ hv => hlock.trans hv)
    (fun text htext => (h.texts text (htexts ▸ htext)).snoc a) (fun hholds => absurd hholds hp)
    (ReadPhase.sampled_of_not_holds hp _)

theorem SampleInv.changed (h : SampleInv start acts m) (a : ReadAct ι) {device : DeviceState}
    (hpolicy : m.lock ≠ none → device.kernel.policy = m.policy) :
    SampleInv start (acts ++ [a]) { m with device } := by
  refine ⟨fun text htext => (h.texts text htext).snoc a, h.lock, fun v => ?_⟩
  by_cases hv : (m.threads v).Holds
  · have hsame : device.kernel.policy = m.policy := hpolicy (by rw [h.lock v hv]; nofun)
    show (m.threads v).Sampled start (acts ++ [a]) device.kernel.policy
    rw [hsame]
    exact (h.sampled v).snoc a
  · exact ReadPhase.sampled_of_not_holds hv _

theorem SampleInv.printed (h : SampleInv start acts m) (a : ReadAct ι) (w : ι) (hheld : m.lock = some w)
    (hthreads : m'.threads = (m.setThread w p).threads) (hdevice : m'.device = m.device) (hlock : m'.lock = m.lock)
    (htexts : m'.texts = m.texts) (hsample : p.Sampled start (acts ++ [a]) m.policy) :
    SampleInv start (acts ++ [a]) m' :=
  h.moved a w hthreads (congrArg (·.kernel.policy) hdevice) (fun _ _ hv => hlock.trans hv)
    (fun text htext => (h.texts text (htexts ▸ htext)).snoc a) (fun _ => hlock.trans hheld) hsample

theorem SampleInv.finishText (h : SampleInv start acts m) (a : ReadAct ι) (w : ι) (hheld : m.lock = some w)
    {call : ReadCall} {text : List UInt8} (htext : ShowsMoments start (acts ++ [a]) text) :
    SampleInv start (acts ++ [a]) (m.finishText w call text) := by
  obtain ⟨bad, htouch⟩ := m.touch_eq
  rw [ReadMachine.finishText, htouch]
  refine h.moved a w (p := .stamping call) rfl rfl
    (fun v hv hlock => absurd (Option.some.inj (hlock.symm.trans hheld)) hv) (fun other hother => ?_) False.elim trivial
  rcases List.mem_append.1 hother with hother | hother
  · exact (h.texts other hother).snoc a
  · rwa [List.mem_singleton.1 hother]

theorem SampleInv.step (h : SampleInv start acts m) (hrun : execs ReadMachine.step start acts = some m) {a : ReadAct ι}
    (hstep : m.step a = some m') : SampleInv start (acts ++ [a]) m' := by
  obtain ⟨-, -, device, rfl, hpolicy⟩ | ⟨w, hmove⟩ := ReadMachine.step_cases hstep
  · exact h.changed a hpolicy
  generalize hw : m.threads w = p at hmove
  have hsample := h.sampled w
  have hheld := h.lock w
  rw [hw] at hsample hheld
  obtain ⟨bad, htouch⟩ := m.touch_eq
  cases hmove with
  | begin call hm' =>
    obtain ⟨p, returns, hbegin, hp⟩ := m.begin_eq w call
    rw [hm', hbegin]
    exact h.outside _ w hp rfl rfl rfl rfl
  | wake call _ hm' =>
    rw [hm']
    exact h.outside _ w (p := .freeing call) id rfl rfl rfl rfl
  | interrupt call hm' =>
    rw [hm']
    exact h.outside _ w (p := .idle) id rfl rfl rfl rfl
  | free call hm' =>
    obtain ⟨live, bad, hfree⟩ := m.freeBuf_eq
    rw [hm', hfree]
    exact h.outside _ w (p := .locking call) id rfl rfl rfl rfl
  | stamp call hm' =>
    rw [hm']
    exact h.outside _ w (p := .copying call) id rfl rfl rfl rfl
  | copy call fault hm' =>
    obtain ⟨bad, readPos, returns, hcopy⟩ := m.copyOut_eq w call fault
    rw [hm', hcopy]
    exact h.outside _ w (p := .idle) id rfl rfl rfl rfl
  | alloc call kvmalloc hfree hm' =>
    subst hm'
    unfold ReadMachine.lockAlloc
    split_ifs
    · exact h.moved _ w (p := .printing call) rfl rfl (fun v _ hv => absurd (hfree.symm.trans hv) nofun)
        (fun text htext => (h.texts text htext).snoc _) (fun _ => rfl) trivial
    · exact h.outside _ w (p := .idle) id rfl rfl rfl rfl
  | printGen call hm' =>
    rw [hm', htouch]
    refine h.printed _ w (p := .printedGen call m.device.javaStatsClearGeneration) (hheld trivial) rfl rfl rfl rfl ?_
    exact ⟨m, _, (Visits.last hrun).snoc _, rfl, rfl⟩
  | printVpns call gen hm' =>
    obtain ⟨m₁, rest₁, h₁, hpolicy, hgen⟩ := hsample
    have h₂ : Visits ReadMachine.step m₁ rest₁ m [] := .last (h₁.execs_rest hrun)
    rw [hm', htouch]
    refine h.printed _ w (p := .printedVpns call gen m.device.activeVpns) (hheld trivial) rfl rfl rfl rfl ?_
    exact ⟨m₁, _, m, _, h₁.snoc _, h₂.snoc _, hpolicy, rfl, hgen, rfl⟩
  | printCover call gen vpns hm' =>
    obtain ⟨m₁, rest₁, m₂, rest₂, h₁, h₂, hpolicy₁, hpolicy₂, hgen, hvpns⟩ := hsample
    have h₃ : Visits ReadMachine.step m₂ rest₂ m [] := .last (h₂.execs_rest (h₁.execs_rest hrun))
    rw [hm', hgen, hvpns]
    refine h.finishText _ w (hheld trivial) ?_
    exact ⟨m₁, _, m₂, _, m, _, h₁.snoc _, h₂.snoc _, h₃.snoc _, hpolicy₁, hpolicy₂, rfl⟩

end Samples

theorem SampleInv.run {device : DeviceState} : ∀ acts (m : ReadMachine ι),
    execs ReadMachine.step (.opened device) acts = some m → SampleInv (.opened device) acts m := by
  refine execs_induction ⟨fun _ h => absurd h List.not_mem_nil, fun _ h => h.elim, fun _ => trivial⟩ ?_
  intro acts m a m' hrun ih hstep
  exact ih.step hrun hstep

/-- Where a call stands, the text has not been made yet, or it has and its generation is the device's. -/
def ReadPhase.Once (m : ReadMachine ι) : ReadPhase → Prop
  | .freeing _ | .locking _ | .printing _ => m.texts = [] ∧ m.reader.generation = 0
  | .printedGen _ gen => (m.texts = [] ∧ m.reader.generation = 0) ∧ gen = m.device.javaStatsClearGeneration
  | .printedVpns _ gen vpns => (m.texts = [] ∧ m.reader.generation = 0) ∧ gen = m.device.javaStatsClearGeneration ∧
    vpns = m.device.activeVpns
  | .stamping _ => m.texts = [statusText m.device]
  | _ => m.texts = [] ∧ m.reader.generation = 0 ∨ m.texts = [statusText m.device] ∧ m.reader.generation = m.generation

theorem ReadPhase.Once.begin (h : ReadPhase.idle.Once m) (hidle : ∀ v, m.threads v = .idle) :
    OneInside ReadPhase.Once (m.begin w call) := by
  have hothers : ∀ v, v ≠ w → m.threads v = .idle := fun v _ => hidle v
  unfold ReadMachine.begin
  split_ifs with hend hgen huid hnonblock
  · exact .moved hothers rfl h
  · exact .moved hothers rfl h
  · exact .moved hothers rfl h
  · exact .moved hothers rfl (h.resolve_right fun hmade => hgen (UInt64.le_of_eq hmade.2.symm))
  · exact .moved hothers rfl h

theorem ReadPhase.Once.step {a : ReadAct ι} (h : OneInside ReadPhase.Once m)
    (hfixed : ∀ device, a ≠ .change device ∧ a ≠ .publish device) (hserial : m.Serial a) (hstep : m.step a = some m') :
    OneInside ReadPhase.Once m' ∧ m'.device = m.device := by
  obtain ⟨device, ha, -⟩ | ⟨w, hmove⟩ := ReadMachine.step_cases hstep
  · exact absurd ha (not_or.2 (hfixed device))
  · obtain ⟨bad, htouch⟩ := m.touch_eq
    generalize hw : m.threads w = p at hmove
    cases hmove with
    | begin call hm' =>
      obtain ⟨p, returns, hbegin, -⟩ := m.begin_eq w call
      subst hm'
      exact ⟨ReadPhase.Once.begin (h.idle hserial) hserial, by rw [hbegin]; rfl⟩
    | wake call hgen hm' =>
      obtain ⟨honce, hothers⟩ := h.at_phase hw nofun
      subst hm'
      exact ⟨.moved hothers rfl (honce.resolve_right fun hmade => UInt64.ne_of_lt hgen hmade.2), rfl⟩
    | interrupt call hm' =>
      obtain ⟨honce, hothers⟩ := h.at_phase hw nofun
      subst hm'
      exact ⟨.moved hothers rfl honce, rfl⟩
    | free call hm' =>
      obtain ⟨honce, hothers⟩ := h.at_phase hw nofun
      obtain ⟨live, bad, hfree⟩ := m.freeBuf_eq
      rw [hm', hfree]
      exact ⟨.moved hothers rfl honce, rfl⟩
    | alloc call kvmalloc _ hm' =>
      obtain ⟨honce, hothers⟩ := h.at_phase hw nofun
      subst hm'
      unfold ReadMachine.lockAlloc
      split_ifs
      · exact ⟨.moved hothers rfl honce, rfl⟩
      · exact ⟨.moved hothers rfl (.inl honce), rfl⟩
    | printGen call hm' =>
      obtain ⟨honce, hothers⟩ := h.at_phase hw nofun
      rw [hm', htouch]
      exact ⟨.moved hothers rfl ⟨honce, rfl⟩, rfl⟩
    | printVpns call gen hm' =>
      obtain ⟨⟨honce, hgen⟩, hothers⟩ := h.at_phase hw nofun
      rw [hm', htouch]
      exact ⟨.moved hothers rfl ⟨honce, hgen, rfl⟩, rfl⟩
    | printCover call gen vpns hm' =>
      obtain ⟨⟨⟨htexts, -⟩, rfl, rfl⟩, hothers⟩ := h.at_phase hw nofun
      rw [hm', ReadMachine.finishText, htouch]
      exact ⟨.moved hothers rfl (congrArg (· ++ [statusText m.device]) htexts), rfl⟩
    | stamp call hm' =>
      obtain ⟨honce, hothers⟩ := h.at_phase hw nofun
      subst hm'
      exact ⟨.moved hothers rfl (.inr ⟨honce, rfl⟩), rfl⟩
    | copy call fault hm' =>
      obtain ⟨honce, hothers⟩ := h.at_phase hw nofun
      obtain ⟨bad, readPos, returns, hcopy⟩ := m.copyOut_eq w call fault
      rw [hm', hcopy]
      exact ⟨.moved hothers rfl honce, rfl⟩

omit [DecidableEq ι] in
theorem ReadPhase.Once.texts (h : OneInside ReadPhase.Once m) :
    m.texts = [] ∧ m.reader.generation = 0 ∨ m.texts = [statusText m.device] := by
  refine h.elim fun p hp => ?_
  cases p with
  | freeing | locking | printing => exact .inl hp
  | printedGen | printedVpns => exact .inl hp.1
  | stamping => exact .inr hp
  | idle | waiting | copying => exact hp.imp id And.left

/-- How many bytes a call has asked for, if it did not fail. -/
def ReadCall.asked : ReadCall × DevResult → ℕ
  | (call, .data _) => call.count
  | (_, .error _) => 0

def ReadMachine.asked (m : ReadMachine ι) : ℕ := (m.returns.map ReadCall.asked).sum

omit [DecidableEq ι] in
/-- A call moves the end of what has been returned by what it asks for, or to the end of the text. -/
theorem Answers.take {result : DevResult} (h : Answers m call result) (honce : OneInside ReadPhase.Once m)
    (hgen : m.generation ≠ 0) (htaken : m.returned = (statusText m.device).take m.asked) :
    m.returned ++ result.bytes = (statusText m.device).take (m.asked + ReadCall.asked (call, result)) := by
  cases h with
  | error e => exact (List.append_nil _).trans htaken
  | nothing hread hle =>
    obtain ⟨-, hzero⟩ | htexts := ReadPhase.Once.texts honce
    · rw [hzero] at hle
      exact absurd (UInt64.le_zero_iff.1 hle) hgen
    · rw [htexts, List.flatten_singleton] at hread
      have hlen : (statusText m.device).length ≤ m.asked := List.take_eq_self_iff _ |>.1 (htaken.symm.trans hread)
      refine (List.append_nil _).trans (hread.trans ?_)
      rw [List.take_of_length_le (hlen.trans (Nat.le_add_right ..))]
  | piece done cur pos htexts hreturned hpos =>
    obtain ⟨hnil, -⟩ | honly := ReadPhase.Once.texts honce
    · exact absurd (htexts.symm.trans hnil) (by simp)
    · obtain ⟨rfl, rfl⟩ : done = [] ∧ cur = statusText m.device := by
        simpa [htexts, List.append_eq_singleton_iff] using honly
      rw [List.flatten_nil, List.nil_append] at hreturned
      have hmin := List.take_eq_take_iff.1 (htaken.symm.trans hreturned)
      show m.returned ++ ((statusText m.device).drop pos).take call.count = _
      rw [hreturned, ← List.take_add, List.take_eq_take_iff]
      show min (pos + call.count) _ = min (m.asked + call.count) _
      omega

/-- While the device stays as it is, reading is reading a file that holds its text: whatever the calls ask for and
however often they fail, what they have returned is the text up to the sum of what the successful ones asked for. -/
theorem devRead_file (device : DeviceState) (hgen : generationU64 device.kernel.generation ≠ 0)
    (acts : List (ReadAct ι)) (m : ReadMachine ι) (hrun : execs ReadMachine.step (.opened device) acts = some m)
    (hserial : SerialRun (.opened device) acts)
    (hfixed : ∀ device', .change device' ∉ acts ∧ .publish device' ∉ acts) :
    m.returned = (statusText device).take m.asked := by
  refine (@execs_induction _ _ ReadMachine.step (.opened device) (fun acts m => SerialRun (.opened device) acts →
    (∀ device', .change device' ∉ acts ∧ .publish device' ∉ acts) → m.device = device ∧ OneInside ReadPhase.Once m ∧
      m.returned = (statusText device).take m.asked) ?_ ?_ acts m hrun hserial hfixed).2.2
  · refine fun _ _ => ⟨rfl, ⟨fun _ h => absurd rfl h, fun _ => .inl ⟨rfl, rfl⟩, fun _ _ h => absurd rfl h⟩, rfl⟩
  · intro acts m a m' hrun ih hstep hserial hfixed
    obtain ⟨hbefore, hlast⟩ := (forall_visits_concat hrun).1 hserial
    obtain ⟨rfl, honce, htaken⟩ := ih hbefore fun device' =>
      (hfixed device').imp (mt (List.mem_append_left _)) (mt (List.mem_append_left _))
    have hacts : ∀ device', a ≠ .change device' ∧ a ≠ .publish device' := fun device' =>
      (hfixed device').imp (fun h ha => h (by simp [ha])) fun h ha => h (by simp [ha])
    obtain ⟨honce', hdevice⟩ := ReadPhase.Once.step honce hacts hlast hstep
    refine ⟨hdevice, honce', ?_⟩
    unfold ReadMachine.returned ReadMachine.asked at *
    obtain hsame | ⟨call, result, hnew, hanswer⟩ := (ReadInv.run acts m hrun hbefore).returns_step hlast hstep
    · rw [hsame]
      exact htaken
    · rw [hnew, List.flatMap_append, List.flatMap_singleton, List.map_append, List.map_singleton, List.sum_append,
        List.sum_singleton]
      exact hanswer.take honce hgen htaken

end Inv

theorem SerialRun.of_subsingleton {ι : Type} [DecidableEq ι] [Subsingleton ι] {m m' : ReadMachine ι}
    {acts : List (ReadAct ι)} (hrun : execs ReadMachine.step m acts = some m') : SerialRun m acts := by
  intro m₁ a rest hvisits
  have hrest := hvisits.execs_rest hrun
  cases a with
  | start w call =>
    intro v
    rw [Subsingleton.elim v w]
    by_contra hactive
    have hnone : m₁.step (.start w call) = none := by
      dsimp only [ReadMachine.step]
      split
      · contradiction
      · rfl
    rw [execs_cons, hnone, Option.bind_none] at hrest
    cases hrest
  | _ => trivial

/-- A first read ends in a fault, a second one gets twelve bytes. -/
def faultThenRead : List (ReadAct Unit) :=
  let call : ReadCall := ⟨12, 2000, false⟩
  [.start () call, .free (), .alloc () true, .printGen (), .printVpns (), .printCover (), .stamp (), .copy () true,
    .start () call, .copy () false]

theorem faultThenRead_runs : (execs ReadMachine.step (.opened .init) faultThenRead).isSome := by decide +kernel

theorem devRead_file_fault : ∃ m, execs ReadMachine.step (.opened .init) faultThenRead = some m ∧
    m.returned = (statusText .init).take m.asked ∧ m.asked = 12 := by
  obtain ⟨m, hm⟩ := Option.isSome_iff_exists.1 faultThenRead_runs
  refine ⟨m, hm, devRead_file .init (by decide) faultThenRead m hm (.of_subsingleton hm) ?_, ?_⟩
  · simp [faultThenRead]
  · have hasked : (execs ReadMachine.step (.opened .init) faultThenRead).map ReadMachine.asked =
        some 12 := by decide +kernel
    rw [hm] at hasked
    exact Option.some.inj hasked

/-- Two threads that find the text read to its end and the configuration changed both free it. -/
example :
    let call : ReadCall := ⟨4096, 2000, false⟩
    let changed : DeviceState := DeviceState.nextGeneration .init
    let acts : List (ReadAct Bool) := [.start true call, .free true, .alloc true true, .printGen true, .printVpns true,
      .printCover true, .stamp true, .copy true false, .change changed, .start true call, .start false call, .free true,
      .free false]
    (execs ReadMachine.step (.opened .init) acts).map ReadMachine.bad = some true := by
  decide +kernel

end VpnHide
