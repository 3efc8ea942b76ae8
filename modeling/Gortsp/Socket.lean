import Gortsp.Platform

namespace Gortsp
set_option autoImplicit true

inductive RtspStatus where
  | success
  | uninitialized
  | multiOperator
  | ioOperatorErr
  | illegalParams
  | internalErr
  | licenseErr
  | multiInit
  deriving DecidableEq, Repr

inductive SocketType where
  | tcpSocket
  | udpSocket
  deriving DecidableEq, Repr

inductive SocketStat where
  | uninitialized
  | created
  | binded
  | listened
  | accepting
  | conneted
  deriving DecidableEq, Repr

/-- The enumerators are compared as the integers they stand for. -/
instance : LT SocketStat := ⟨fun a b => a.ctorIdx < b.ctorIdx⟩

instance (a b : SocketStat) : Decidable (a < b) :=
  inferInstanceAs (Decidable (a.ctorIdx < b.ctorIdx))

structure Socket where
  type : SocketType
  fd : Int
  stat : SocketStat
  connected : Bool
  deriving DecidableEq, Repr

def SocketType.kind : SocketType → SockKind
  | .tcpSocket => .stream
  | .udpSocket => .dgram

def SocketType.protocol : SocketType → Protocol
  | .tcpSocket => .tcp
  | .udpSocket => .udp

def sizeOfSsize (r : Int) : Nat := (r % 2 ^ 64).toNat

namespace Socket

def create : Socket := ⟨.udpSocket, -1, .uninitialized, false⟩

def createWith (type : SocketType) : Socket := ⟨type, -1, .uninitialized, false⟩

def createFromAccept (fd : Int) : Socket := ⟨.tcpSocket, fd, .conneted, true⟩

def changeStatus (s : Socket) (stat : SocketStat) : Socket := { s with stat }

def setType (s : Socket) (type : SocketType) : RtspStatus × Socket :=
  if s.stat ≠ .uninitialized ∨ s.fd ≥ 0 then (.multiOperator, s)
  else (.success, { s with type })

def init (s : Socket) : Sys (RtspStatus × Socket) := do
  if s.stat > .uninitialized ∨ s.fd ≥ 0 then
    return (.multiOperator, s)
  let fd ← Sys.socket s.type.kind s.type.protocol
  let s := { s with fd }
  if fd < 0 then
    return (.ioOperatorErr, s)
  return (.success, s.changeStatus .created)

def close (s : Socket) : Sys (RtspStatus × Socket) := do
  if s.fd ≥ 0 then
    Sys.close s.fd
  return (.success, { s with fd := -1, connected := false, stat := .uninitialized })

def destroy (s : Socket) : Sys Unit := do
  let _ ← s.close

/-- `ip` reaches the log messages only; the address is always `INADDR_ANY`. -/
def bind (s : Socket) (_ip : StdString) (port : UInt16) : Sys (RtspStatus × Socket) := do
  if s.stat ≠ .created then
    return (.uninitialized, s)
  let addr : SockaddrIn := ⟨inaddrAny, htons port⟩
  if (← Sys.bind s.fd addr) < 0 then
    return (.ioOperatorErr, s)
  return (.success, s.changeStatus .binded)

def listen (s : Socket) (backlog : Int) : Sys (RtspStatus × Socket) := do
  if s.type ≠ .tcpSocket ∨ s.stat ≠ .binded then
    return (.illegalParams, s)
  if (← Sys.listen s.fd backlog) ≠ 0 then
    return (.ioOperatorErr, s)
  return (.success, s.changeStatus .listened)

/-- The body is compiled out; `conn` is not touched either. -/
def connect (_s : Socket) (_ip : StdString) (_port : UInt16) (_timeout : Int) : RtspStatus :=
  .success

def disconnect (s : Socket) : Sys (RtspStatus × Socket) := s.close

def send (s : Socket) (data : StdString) : Sys RtspStatus := do
  if sizeOfSsize (← Sys.send s.fd data) < data.size then
    return .ioOperatorErr
  return .success

def setNonBlock (s : Socket) : Sys RtspStatus := do
  if s.stat < .created then
    return .uninitialized
  let flags ← Sys.fcntlGetfl s.fd
  if flags.slt 0 then
    return .ioOperatorErr
  if flags &&& oNonblock = 0 then
    if (← Sys.fcntlSetfl s.fd (flags ||| oNonblock)) = -1 then
      -- the source names IO_OPERATOR_ERR here without returning it
      pure ()
  return .success

def setBlock (_s : Socket) (_timeout : Int) : RtspStatus := .uninitialized

variable {s : Socket} {k : Kernel} {a : Answers}

theorem init_refused (h : s.stat > .uninitialized ∨ s.fd ≥ 0) :
    s.init.run a k = .ok ((.multiOperator, s), k) := by
  simp only [init, if_pos h, Routine.run_pure]

theorem not_busy (hs : s.stat = .uninitialized) (hfd : s.fd < 0) :
    ¬(s.stat > .uninitialized ∨ s.fd ≥ 0) := by
  rw [hs]
  rintro (h | h)
  · exact absurd h (by decide)
  · omega

theorem init_failed (hs : s.stat = .uninitialized) (hfd : s.fd < 0)
    (hg : k.grant a.socket = -1) :
    s.init.run a k = .ok ((.ioOperatorErr, { s with fd := -1 }),
      k.record (.socket s.type.kind s.type.protocol (-1))) := by
  simp only [init, Sys.socket, if_neg (not_busy hs hfd), Routine.run_bind, hg, Kernel.install_neg]
  rfl

theorem init_created (hs : s.stat = .uninitialized) (hfd : s.fd < 0)
    (hg : k.grant a.socket = n) (h₀ : 0 ≤ n) :
    s.init.run a k = .ok ((.success, { s with fd := n, stat := .created }),
      (k.install n ⟨s.type.kind, s.type.protocol, none, false, a.flags, []⟩).record
        (.socket s.type.kind s.type.protocol n)) := by
  have hn : ¬n < 0 := by omega
  simp only [init, Sys.socket, if_neg (not_busy hs hfd), Routine.run_bind, hg, if_neg hn,
    Routine.run_pure, changeStatus]

def closed (s : Socket) : Socket :=
  { s with fd := -1, connected := false, stat := .uninitialized }

theorem close_open (h : s.fd ≥ 0) :
    s.close.run a k = .ok ((.success, s.closed), (k.release s.fd).record (.close s.fd)) := by
  simp only [close, if_pos h, Routine.run_bind, Sys.close, Routine.run_pure, closed]

theorem close_closed (h : s.fd < 0) : s.close.run a k = .ok ((.success, s.closed), k) := by
  have hn : ¬s.fd ≥ 0 := by omega
  simp only [close, if_neg hn, Routine.run_pure, closed]

theorem destroy_open (h : s.fd ≥ 0) :
    s.destroy.run a k = .ok ((), (k.release s.fd).record (.close s.fd)) := by
  simp only [destroy, Routine.run_bind, close_open h, Routine.run_pure]

theorem destroy_closed (h : s.fd < 0) : s.destroy.run a k = .ok ((), k) := by
  simp only [destroy, Routine.run_bind, close_closed h, Routine.run_pure]

def anyAddr (port : UInt16) : SockaddrIn := ⟨inaddrAny, htons port⟩

theorem anyAddr_assigned (a : Answers) (port : UInt16) :
    (anyAddr port).assigned a.freePort = anyAddr (a.portFor port) := by
  rw [SockaddrIn.assigned, Answers.portFor, anyAddr]
  by_cases h : port = 0
  · subst h
    rfl
  · rw [if_neg fun hno => h (htons_eq_zero hno), if_neg h]
    rfl

theorem bind_refused (h : s.stat ≠ .created) :
    (s.bind ip port).run a k = .ok ((.uninitialized, s), k) := by
  simp only [bind, if_pos h, Routine.run_pure]

theorem bind_failed (hs : s.stat = .created) (hb : ¬((k.table s.fd).isSome ∧ a.bind))
    (ip : StdString) (port : UInt16) :
    (s.bind ip port).run a k =
      .ok ((.ioOperatorErr, s), k.record (.bind s.fd (anyAddr port) (-1))) := by
  simp only [bind, if_neg (not_not.2 hs), Sys.bind, Routine.run_bind, if_neg hb]
  rfl

theorem bind_ok (hs : s.stat = .created) (hb : (k.table s.fd).isSome ∧ a.bind)
    (ip : StdString) (port : UInt16) :
    (s.bind ip port).run a k = .ok ((.success, { s with stat := .binded }),
      (k.modify s.fd ({ · with localAddr := some (anyAddr (a.portFor port)) })).record
        (.bind s.fd (anyAddr port) 0)) := by
  simp only [← anyAddr_assigned, bind, if_neg (not_not.2 hs), Sys.bind, Routine.run_bind,
    if_pos hb]
  rfl

theorem listen_refused (h : s.type ≠ .tcpSocket ∨ s.stat ≠ .binded) :
    (s.listen backlog).run a k = .ok ((.illegalParams, s), k) := by
  simp only [listen, if_pos h, Routine.run_pure]

theorem listen_failed (ht : s.type = .tcpSocket) (hs : s.stat = .binded)
    (hl : ¬((k.table s.fd).isSome ∧ a.listen)) (backlog : Int) :
    (s.listen backlog).run a k =
      .ok ((.ioOperatorErr, s), k.record (.listen s.fd backlog (-1))) := by
  have hg : ¬(s.type ≠ .tcpSocket ∨ s.stat ≠ .binded) := by simp [ht, hs]
  simp only [listen, if_neg hg, Sys.listen, Routine.run_bind, if_neg hl]
  rfl

theorem listen_ok (ht : s.type = .tcpSocket) (hs : s.stat = .binded)
    (hl : (k.table s.fd).isSome ∧ a.listen) (backlog : Int) :
    (s.listen backlog).run a k = .ok ((.success, { s with stat := .listened }),
      (k.modify s.fd ({ · with listening := true })).record (.listen s.fd backlog 0)) := by
  have hg : ¬(s.type ≠ .tcpSocket ∨ s.stat ≠ .binded) := by simp [ht, hs]
  simp only [listen, if_neg hg, Sys.listen, Routine.run_bind, if_pos hl]
  rfl

theorem setNonBlock_unread (hs : ¬s.stat < .created) (hg : a.getfl = false) :
    s.setNonBlock.run a k = .ok (.ioOperatorErr, k.record (.fcntlGetfl s.fd (-1))) := by
  have hslt : BitVec.slt (-1 : BitVec 32) 0 = true := by decide
  cases hf : k.table s.fd <;>
    simp only [setNonBlock, if_neg hs, Sys.fcntlGetfl, Routine.run_bind, hf, hg,
      Bool.false_eq_true, if_false, hslt, if_true, Routine.run_pure]

section FlagsRead

variable {f : KernelSocket}

theorem setNonBlock_kept (hs : ¬s.stat < .created) (hf : k.table s.fd = some f)
    (hg : a.getfl = true) (hO : f.flags.word &&& oNonblock ≠ 0) :
    s.setNonBlock.run a k = .ok (.success, k.record (.fcntlGetfl s.fd f.flags.word)) := by
  simp only [setNonBlock, if_neg hs, Sys.fcntlGetfl, Routine.run_bind, hf, hg, if_true,
    f.flags.slt_zero, Bool.false_eq_true, if_false, if_neg hO, Routine.run_pure]

theorem setNonBlock_set (hs : ¬s.stat < .created) (hf : k.table s.fd = some f)
    (hg : a.getfl = true) (hO : f.flags.word &&& oNonblock = 0) (hset : a.setfl = true) :
    s.setNonBlock.run a k = .ok (.success,
      ((k.record (.fcntlGetfl s.fd f.flags.word)).modify s.fd fun g =>
        { g with flags := f.flags.nonblocking }).record
          (.fcntlSetfl s.fd (f.flags.word ||| oNonblock) 0)) := by
  have hmsb : (f.flags.word ||| oNonblock).msb = false := f.flags.nonblocking.msb_eq
  simp only [setNonBlock, if_neg hs, Sys.fcntlGetfl, Sys.fcntlSetfl, Routine.run_bind, hf, hg,
    if_true, f.flags.slt_zero, Bool.false_eq_true, if_false, hO, Kernel.record_table, hset,
    Option.isSome_some, and_self, dif_pos hmsb]
  rfl

/-- The failure of the call that sets the flag is not reported. -/
theorem setNonBlock_refused (hs : ¬s.stat < .created) (hf : k.table s.fd = some f)
    (hg : a.getfl = true) (hO : f.flags.word &&& oNonblock = 0) (hset : a.setfl = false) :
    s.setNonBlock.run a k = .ok (.success,
      (k.record (.fcntlGetfl s.fd f.flags.word)).record
        (.fcntlSetfl s.fd (f.flags.word ||| oNonblock) (-1))) := by
  simp only [setNonBlock, if_neg hs, Sys.fcntlGetfl, Sys.fcntlSetfl, Routine.run_bind, hf, hg,
    if_true, f.flags.slt_zero, Bool.false_eq_true, if_false, hO, Kernel.record_table, hset,
    and_false]
  rfl

theorem fcntlGetfl_succeeded (fd : Int) (flags : FlagWord) :
    (Call.fcntlGetfl fd flags.word).succeeded = true := by
  rw [Call.succeeded, flags.msb_eq]
  rfl

theorem fcntl_succeeded (fd : Int) (flags : FlagWord) (arg : BitVec 32) (ret : Int) :
    (∀ c ∈ [Call.fcntlGetfl fd flags.word, .fcntlSetfl fd arg ret], c.succeeded) ↔ 0 ≤ ret := by
  constructor
  · intro h
    exact of_decide_eq_true (h (.fcntlSetfl fd arg ret) (by simp))
  · intro h c hc
    rcases List.mem_cons.1 hc with rfl | hc
    · exact fcntlGetfl_succeeded fd flags
    · cases List.mem_singleton.1 hc
      exact decide_eq_true h

theorem setNonBlock_read (hs : ¬s.stat < .created) (hf : k.table s.fd = some f)
    (hg : a.getfl = true) :
    ∃ flags calls k', s.setNonBlock.run a k = .ok (.success, k') ∧
      k'.table = Function.update k.table s.fd (some { f with flags }) ∧
      k'.log = k.log ++ calls ∧ calls.filterMap Call.entry = [] ∧
      ((∀ c ∈ calls, c.succeeded) ↔ a.SetsFlag f.flags) ∧
      (a.SetsFlag f.flags → flags = f.flags.nonblocking) := by
  have hsame : k.table = Function.update k.table s.fd (some { f with flags := f.flags }) := by
    rw [← hf]
    exact (Function.update_eq_self _ _).symm
  by_cases hO : f.flags.word &&& oNonblock = 0
  · cases hset : a.setfl with
    | true =>
      refine ⟨f.flags.nonblocking, [.fcntlGetfl s.fd f.flags.word,
        .fcntlSetfl s.fd (f.flags.word ||| oNonblock) 0], _,
        setNonBlock_set hs hf hg hO hset, ?_, ?_, rfl, ?_, fun _ => rfl⟩
      · simp only [Kernel.record_table, Kernel.modify_table, hf, Option.map_some]
      · simp only [Kernel.record_log, Kernel.modify_log, List.append_assoc, List.cons_append,
          List.nil_append]
      · rw [fcntl_succeeded]
        exact iff_of_true (by decide) (.inr hset)
    | false =>
      have hno : ¬a.SetsFlag f.flags := by
        rintro (h | h)
        · exact h hO
        · rw [hset] at h
          cases h
      refine ⟨f.flags, [.fcntlGetfl s.fd f.flags.word,
        .fcntlSetfl s.fd (f.flags.word ||| oNonblock) (-1)], _,
        setNonBlock_refused hs hf hg hO hset, hsame, ?_, rfl, ?_, fun h => absurd h hno⟩
      · simp only [Kernel.record_log, List.append_assoc, List.cons_append, List.nil_append]
      · rw [fcntl_succeeded]
        exact iff_of_false (by decide) hno
  · refine ⟨f.flags, [.fcntlGetfl s.fd f.flags.word], _, setNonBlock_kept hs hf hg hO, hsame, rfl,
      rfl, ?_, ?_⟩
    · simp only [List.mem_singleton, forall_eq, fcntlGetfl_succeeded, true_iff]
      exact .inl hO
    · intro _
      exact (FlagWord.nonblocking_of_set hO).symm

end FlagsRead

end Socket

end Gortsp
