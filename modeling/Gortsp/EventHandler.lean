import Gortsp.CharArray
import Gortsp.Platform
import Mathlib.Data.List.Basic

namespace Gortsp
set_option autoImplicit true

def maxLine : Nat := 1024

def evTimeout : BitVec 16 := 0x01
def evRead : BitVec 16 := 0x02
def evPersist : BitVec 16 := 0x10

inductive Invocation (ε ω : Type) where
  | event (cb : ε) (fd : Int) (event : Int16)
  | io (cb : ω) (fd : Int) (buff : StdString)
  deriving DecidableEq

/-- An `Event` with the libevent object it owns, whose argument is the `Event` itself. -/
structure Event (ε : Type) where
  fd : Int
  events : BitVec 16
  pending : Bool
  callback : Option ε
  deriving DecidableEq

def Event.new (fd : Int) (cb : Option ε) : Event ε :=
  ⟨fd, evTimeout ||| evRead ||| evPersist, false, cb⟩

def Event.persistent (ev : Event ε) : Bool := ev.events &&& evPersist ≠ 0

def Event.add (ev : Event ε) : Event ε := { ev with pending := true }

/-- Running an event takes it off the queue unless it is persistent. -/
def Event.ran (ev : Event ε) : Event ε := { ev with pending := ev.pending && ev.persistent }

theorem Event.persistent_new (fd : Int) (cb : Option ε) :
    (Event.new fd cb).add.persistent = true := by
  change decide (((evTimeout ||| evRead ||| evPersist) &&& evPersist) ≠ 0) = true
  decide

theorem Event.ran_new (fd : Int) (cb : Option ε) :
    (Event.new fd cb).add.ran = (Event.new fd cb).add := by
  rw [Event.ran, Event.persistent_new, Bool.and_true]

def Event.eventCb (ev : Event ε) (fd : Int) (event : Int16) :
    Except Fault (List (Invocation ε ω)) :=
  match ev.callback with
  | some cb => .ok [.event cb fd event]
  | none => .error .nullDeref

inductive Trampoline where
  | readCb
  | writeCb
  | errorCb
  deriving DecidableEq, Repr

/-- libevent's `bufferevent`. `ctx` is null or the place of a `BufferEvent` in the event base. -/
structure Bufferevent where
  fd : Int
  closeOnFree : Bool
  readcb : Option Trampoline
  writecb : Option Trampoline
  eventcb : Option Trampoline
  ctx : Option Nat
  input : List UInt8
  deriving DecidableEq

def Bufferevent.socketNew (fd : Int) (closeOnFree : Bool) : Bufferevent :=
  ⟨fd, closeOnFree, none, none, none, none, []⟩

def Bufferevent.setcb (bev : Bufferevent) (readcb writecb eventcb : Option Trampoline)
    (ctx : Option Nat) : Bufferevent :=
  { bev with readcb, writecb, eventcb, ctx }

structure BufferEvent (ε ω : Type) where
  ptr : Bufferevent
  evBuf : List UInt8
  readCallback : Option ω
  writeCallback : Option ω
  errorCallback : Option ε
  deriving DecidableEq

/-- No write trampoline is installed and the context is null. -/
def BufferEvent.new (fd : Int) (rCb wCb : Option ω) (eCb : Option ε) : BufferEvent ε ω :=
  ⟨(Bufferevent.socketNew fd true).setcb (some .readCb) none (some .errorCb) none,
    [], rCb, wCb, eCb⟩

abbrev Line := CharArray (maxLine + 1)

/-- `bufferevent_read` moves bytes from the input queue into an array, and returns how many. -/
def Bufferevent.read (bev : Bufferevent) (line : Line) (size : Nat) :
    Except Fault (Nat × Bufferevent × Line) := do
  let bytes := bev.input.take size
  let line ← Fault.inBounds (line.store 0 bytes)
  return (bytes.length, { bev with input := bev.input.drop size }, line)

structure ReadLoop (ε ω : Type) where
  bev : Bufferevent
  evt : Option (BufferEvent ε ω)
  line : Line

/-- The condition of the loop and, where it holds, the body, with the index of the terminator:
what is appended to the buffer of `evt` is read back from the line. -/
def ReadLoop.turn (v : ReadLoop ε ω) : Except Fault (Option Nat × ReadLoop ε ω) := do
  let (n, bev, line) ← v.bev.read v.line maxLine
  if n > 0 then
    let line ← Fault.inBounds (line.store n [0])
    let e ← Fault.deref v.evt
    let bytes ← Fault.inBounds (line.load n)
    return (some n, ⟨bev, some { e with evBuf := e.evBuf ++ bytes }, line⟩)
  else return (none, ⟨bev, v.evt, line⟩)

theorem ReadLoop.turn_shorter {v w : ReadLoop ε ω} (h : v.turn = .ok (some n, w)) :
    w.bev.input.length < v.bev.input.length := by
  obtain ⟨⟨m, bev, line⟩, hread, h⟩ := Routine.bind_ok_cases h
  obtain ⟨line', hstore, hread⟩ := Routine.bind_ok_cases hread
  cases hread
  simp only at h
  split at h
  · next hpos =>
    obtain ⟨line₁, -, h⟩ := Routine.bind_ok_cases h
    obtain ⟨e, -, h⟩ := Routine.bind_ok_cases h
    obtain ⟨bytes, -, h⟩ := Routine.bind_ok_cases h
    cases h
    rw [List.length_take, maxLine] at hpos
    simp only [List.length_drop, maxLine]
    omega
  · cases h

namespace BufferEvent

def drain (v : ReadLoop ε ω) : Except Fault (ReadLoop ε ω) :=
  match _h : v.turn with
  | .ok (some _, w) => drain w
  | .ok (none, w) => .ok w
  | .error e => .error e
termination_by v.bev.input.length
decreasing_by exact ReadLoop.turn_shorter _h

/-- The source calls back with the literals `-1` and `0`; as a `std::string`, `0` is a null
`char*`. -/
def readCb (bev : Bufferevent) (evt : Option (BufferEvent ε ω)) :
    Except Fault (Bufferevent × Option (BufferEvent ε ω) × List (Invocation ε ω)) := do
  let v ← drain ⟨bev, evt, .zero⟩
  let e ← Fault.deref v.evt
  match e.readCallback with
  | some cb => return (v.bev, v.evt, [.io cb (-1) (← StdString.ofCharPtr none)])
  | none => return (v.bev, v.evt, [])

def writeCb (evt : Option (BufferEvent ε ω)) : Except Fault (List (Invocation ε ω)) := do
  let e ← Fault.deref evt
  match e.writeCallback with
  | some cb => return [.io cb (-1) (← StdString.ofCharPtr none)]
  | none => return []

def errorCb (_what : Int16) (evt : Option (BufferEvent ε ω)) :
    Except Fault (List (Invocation ε ω)) := do
  let e ← Fault.deref evt
  match e.errorCallback with
  | some cb => return [.event cb (-1) 0]
  | none => return []

end BufferEvent

def Trampoline.call (bev : Bufferevent) (evt : Option (BufferEvent ε ω)) (what : Int16) :
    Trampoline → Except Fault (Bufferevent × Option (BufferEvent ε ω) × List (Invocation ε ω))
  | .readCb => BufferEvent.readCb bev evt
  | .writeCb => do return (bev, evt, ← BufferEvent.writeCb evt)
  | .errorCb => do return (bev, evt, ← BufferEvent.errorCb what evt)

theorem Bufferevent.read_terminated (bev : Bufferevent) (line : Line) :
    ∃ line₁ line₂, bev.read line maxLine = .ok ((bev.input.take maxLine).length,
        { bev with input := bev.input.drop maxLine }, line₁) ∧
      line₁.store (bev.input.take maxLine).length [0] = some line₂ ∧
      line₂.load (bev.input.take maxLine).length = some (bev.input.take maxLine) ∧
      line₂.bytes[(bev.input.take maxLine).length]? = some 0 := by
  have hlen : (bev.input.take maxLine).length < maxLine + 1 :=
    Nat.lt_succ_of_le (List.length_take_le _ _)
  obtain ⟨line₁, line₂, h₁, h₂, hload, hnul⟩ := line.store_terminated hlen
  refine ⟨line₁, line₂, ?_, h₂, hload, hnul⟩
  rw [Bufferevent.read, h₁]
  rfl

theorem Bufferevent.read_length_pos {bev : Bufferevent} (h : bev.input ≠ []) :
    (bev.input.take maxLine).length > 0 := by
  have hlen := List.length_pos_iff.2 h
  rw [List.length_take, maxLine]
  omega

theorem ReadLoop.turn_empty (v : ReadLoop ε ω) (h : v.bev.input = []) :
    v.turn = .ok (none, v) := by
  have hread : v.bev.read v.line maxLine = .ok (0, v.bev, v.line) := by
    have hsame : ({ v.bev with input := [] } : Bufferevent) = v.bev := by
      rw [← h]
    rw [Bufferevent.read, h, List.take_nil, v.line.store_nil (Nat.zero_le _), List.drop_nil, hsame]
    rfl
  simp only [ReadLoop.turn, hread, bind, Except.bind, gt_iff_lt, Nat.lt_irrefl, if_false]
  rfl

theorem ReadLoop.turn_null (bev : Bufferevent) (line : Line) (h : bev.input ≠ []) :
    (ReadLoop.mk bev none line : ReadLoop ε ω).turn = .error .nullDeref := by
  obtain ⟨line₁, line₂, hread, hstore, -⟩ := bev.read_terminated line
  simp only [ReadLoop.turn, hread, bind, Except.bind, if_pos (Bufferevent.read_length_pos h),
    hstore, Fault.inBounds, Fault.deref]

theorem BufferEvent.drain_stop {v w : ReadLoop ε ω} (h : v.turn = .ok (none, w)) :
    drain v = .ok w := by
  rw [drain]
  split
  · next he => cases h.symm.trans he
  · next he =>
    cases h.symm.trans he
    rfl
  · next he => cases h.symm.trans he

theorem BufferEvent.drain_error {v : ReadLoop ε ω} (h : v.turn = .error e) :
    drain v = .error e := by
  rw [drain]
  split
  · next he => cases h.symm.trans he
  · next he => cases h.symm.trans he
  · next he =>
    cases h.symm.trans he
    rfl

theorem BufferEvent.drain_next {v w : ReadLoop ε ω} (h : v.turn = .ok (some n, w)) :
    drain v = drain w := by
  rw [drain]
  split
  · next he =>
    cases h.symm.trans he
    rfl
  · next he => cases h.symm.trans he
  · next he => cases h.symm.trans he

theorem Trampoline.call_null (t : Trampoline) (bev : Bufferevent) (what : Int16) :
    t.call (ε := ε) (ω := ω) bev none what = .error .nullDeref := by
  cases t with
  | readCb =>
    by_cases h : bev.input = []
    · have hturn := ReadLoop.turn_empty (⟨bev, none, .zero⟩ : ReadLoop ε ω) h
      simp only [Trampoline.call, BufferEvent.readCb, BufferEvent.drain_stop hturn]
      rfl
    · have hturn := ReadLoop.turn_null (ε := ε) (ω := ω) bev .zero h
      simp only [Trampoline.call, BufferEvent.readCb, BufferEvent.drain_error hturn]
      rfl
  | writeCb => rfl
  | errorCb => rfl

/-- `ε` and `ω` stand for the `EventCb` and `IOEventCb` objects whose addresses are registered. Of
libevent the model has what `event_new`, `bufferevent_setcb` and `bufferevent_read` are documented
to do. -/
structure EventBase (ε ω : Type) where
  events : List (Event ε)
  bufferEvents : List (BufferEvent ε ω)
  deriving DecidableEq

inductive Firing where
  | event (fd : Int) (event : Int16)
  | read (fd : Int) (bytes : List UInt8)
  | write (fd : Int)
  | error (fd : Int) (what : Int16)
  deriving DecidableEq

theorem Firing.event_or_ne (f : Firing) (n : Int) :
    (∃ mask, f = .event n mask) ∨ ∀ mask, f ≠ .event n mask := by
  by_cases he : ∃ mask, f = .event n mask
  · exact .inl he
  · exact .inr (not_exists.1 he)

namespace EventBase

def create : EventBase ε ω := ⟨[], []⟩

def registEvent (base : EventBase ε ω) (fd : Int) (cb : Option ε) : EventBase ε ω :=
  { base with events := base.events ++ [(Event.new fd cb).add] }

def registerIoevent (base : EventBase ε ω) (fd : Int) (readCb writeCb : Option ω)
    (errorCb : Option ε) : EventBase ε ω :=
  { base with bufferEvents := base.bufferEvents ++ [.new fd readCb writeCb errorCb] }

def fireEvent (base : EventBase ε ω) (fd : Int) (event : Int16) :
    Except Fault (EventBase ε ω × List (Invocation ε ω)) :=
  match base.events.find? (fun ev => ev.pending ∧ ev.fd = fd) with
  | some ev => do
    let calls ← ev.eventCb fd event
    return ({ base with events := base.events.map fun ev => if ev.fd = fd then ev.ran else ev },
      calls)
  | none => .ok (base, [])

def setPtr (base : EventBase ε ω) (place : Fin base.bufferEvents.length) (bev : Bufferevent) :
    EventBase ε ω :=
  { base with bufferEvents :=
      base.bufferEvents.set place { base.bufferEvents[place] with ptr := bev } }

def callInstalled (base : EventBase ε ω) (place : Fin base.bufferEvents.length)
    (bev : Bufferevent) (what : Int16) :
    Option Trampoline → Except Fault (EventBase ε ω × List (Invocation ε ω))
  | some t => do
    let (bev, evt, calls) ← t.call bev (bev.ctx.bind (base.bufferEvents[·]?)) what
    let base := base.setPtr place bev
    match bev.ctx, evt with
    | some ctx, some e =>
      let filled := base.bufferEvents.modify ctx ({ · with evBuf := e.evBuf })
      return ({ base with bufferEvents := filled }, calls)
    | _, _ => return (base, calls)
  | none => .ok (base.setPtr place bev, [])

/-- libevent appends what it received to the input of the bufferevent of the descriptor and
calls the trampoline chosen by `cb`. -/
def fireBufferevent (base : EventBase ε ω) (fd : Int) (bytes : List UInt8) (what : Int16)
    (cb : Bufferevent → Option Trampoline) :
    Except Fault (EventBase ε ω × List (Invocation ε ω)) :=
  match base.bufferEvents.findFinIdx? (·.ptr.fd = fd) with
  | some place =>
    let bev := base.bufferEvents[place].ptr
    base.callInstalled place { bev with input := bev.input ++ bytes } what (cb bev)
  | none => .ok (base, [])

def fire (base : EventBase ε ω) : Firing → Except Fault (EventBase ε ω × List (Invocation ε ω))
  | .event fd event => base.fireEvent fd event
  | .read fd bytes => base.fireBufferevent fd bytes 0 (·.readcb)
  | .write fd => base.fireBufferevent fd [] 0 (·.writecb)
  | .error fd what => base.fireBufferevent fd [] what (·.eventcb)

end EventBase

structure TaskScheduler (ε ω : Type) where
  maxThreads : Nat
  evtHandler : EventBase ε ω
  deriving DecidableEq

namespace TaskScheduler

def create (maxThreads : Nat) : TaskScheduler ε ω := ⟨maxThreads, .create⟩

def registerTask (t : TaskScheduler ε ω) (fd : Int) (f : Option ε) : TaskScheduler ε ω :=
  { t with evtHandler := t.evtHandler.registEvent fd f }

def registerIotask (t : TaskScheduler ε ω) (fd : Int) (rCb wCb : Option ω) (eCb : Option ε) :
    TaskScheduler ε ω :=
  { t with evtHandler := t.evtHandler.registerIoevent fd rCb wCb eCb }

end TaskScheduler

end Gortsp
