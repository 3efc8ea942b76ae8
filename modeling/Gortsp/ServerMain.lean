import Gortsp.BindAddress
import Gortsp.ServerTeardown
import Mathlib.Data.List.TakeWhile

namespace Gortsp
set_option autoImplicit true

def isspace (c : Char) : Bool := c = ' ' ∨ '\t' ≤ c ∧ c ≤ '\r'

def leadingNumber (s : List Char) : Nat := Nat.ofDigitChars 10 (s.takeWhile Char.isDigit) 0

def strtol (s : List Char) : Int :=
  match s.dropWhile isspace with
  | '-' :: s => max (-2 ^ 63) (-leadingNumber s)
  | '+' :: s => min (2 ^ 63 - 1) (leadingNumber s)
  | s => min (2 ^ 63 - 1) (leadingNumber s)

/-- The C library cuts the `long` to an `int`. -/
def atoi (s : List Char) : Int32 := Int32.ofInt (strtol s)

def portOf (argv1 : List Char) : UInt16 := UInt16.ofInt (atoi argv1).toInt

example : portOf "70000".toList = 4464 := by decide

/-- `event_base_loop` returns when there is nothing it could wait for. -/
def EventBase.loopEnds (base : EventBase ε ω) : Bool :=
  base.events.all (fun ev => !ev.pending) && base.bufferEvents.isEmpty

inductive MainStage where
  | notStarted
  | looping
  | returned
  deriving DecidableEq

/-- `main` reads the port from its argument, calls `init` and `start`, and destroys the server when
the event loop has ended. -/
structure ServerMain where
  argv1 : Option (List Char)
  stage : MainStage
  server : TcpServer
  kernel : Kernel

/-- `pipe` tells whether a `::send` that fails on a connection raises `SIGPIPE`. -/
inductive MainInput where
  | init
  | fire (f : Firing) (pipe : Bool)
  | leave (timing : CloseTiming)

inductive MainStop where
  | fault (f : Fault)
  | sigpipe
  deriving DecidableEq

def Call.failedSend : Call → Bool
  | .send fd _ ret => 0 ≤ fd ∧ ret < 0
  | _ => false

def Kernel.sendFailed (k k' : Kernel) : Bool := (k'.log.drop k.log.length).any Call.failedSend

namespace ServerMain

def start (argv1 : Option (List Char)) : ServerMain := ⟨argv1, .notStarted, .create, .boot⟩

/-- The result of `init` is dropped, and the signal is left to its default action. What does not
fit the stage does nothing. -/
def step (m : ServerMain) (i : MainInput × Answers) : Except MainStop ServerMain :=
  match m.stage, i.1 with
  | .notStarted, .init => do
    let arg ← (Fault.deref m.argv1).mapError .fault
    let ((_, server), kernel) ← ((m.server.init (portOf arg)).run i.2 m.kernel).mapError .fault
    return { m with stage := .looping, server, kernel }
  | .looping, .fire f pipe =>
    if m.server.taskScheduler.evtHandler.loopEnds then .ok m
    else do
      let (server, kernel) ← ((m.server.fire f).run i.2 m.kernel).mapError .fault
      if pipe = true ∧ m.kernel.sendFailed kernel = true then .error .sigpipe
      else return { m with server, kernel }
  | .looping, .leave timing =>
    if m.server.taskScheduler.evtHandler.loopEnds then do
      let (_, kernel) ← ((m.server.destroy timing).run i.2 m.kernel).mapError .fault
      return { m with stage := .returned, kernel }
    else .ok m
  | _, _ => .ok m

/-- The loop ends at once, or has ended and every descriptor that `::socket` gave is closed. What
libevent keeps for the event base is never given back. -/
def Ends (m : ServerMain) : Prop :=
  m.stage = .looping ∧ m.server.taskScheduler.evtHandler.loopEnds = true ∨
    m.stage = .returned ∧ Ledger.settle ∅ (m.kernel.log.filterMap Call.entry) = some ∅

def Failed (k : Kernel) : Prop := ∃ c ∈ k.log, ¬c.succeeded

def Addressed (port : UInt16) (k : Kernel) (n : Int) : Prop :=
  ∃ q, k.localAddr n = some (Socket.anyAddr q) ∧ q ≠ 0 ∧ (port ≠ 0 → q = port)

inductive Phase (port : UInt16) : MainStage → TcpServer → Kernel → Prop where
  | ready : Phase port .notStarted .create .boot
  | listening {k : Kernel} {n : Int} {f : KernelSocket} (hf : k.table n = some f)
      (hl : f.listening = true) (hp : Addressed port k n) :
      Phase port .looping (TcpServer.listening 16 n) k
  | accepted {k : Kernel} {n m : Int} {f : KernelSocket} (hf : k.table n = some f)
      (hl : f.listening = true) (hp : Addressed port k n) (hne : m ≠ n) :
      Phase port .looping (TcpServer.accepted 16 n m) k
  | stopped {k : Kernel} {s : Socket} {held : Finset Int} (ht : s.Tracks k held)
      (hsettle : Ledger.settle ∅ (k.log.filterMap Call.entry) = some held) (hfail : Failed k) :
      Phase port .looping (TcpServer.withSocket 16 s) k
  | returned {srv : TcpServer} {k : Kernel}
      (hsettle : Ledger.settle ∅ (k.log.filterMap Call.entry) = some ∅) (hfail : Failed k) :
      Phase port .returned srv k

variable {m t : ServerMain} {srv : TcpServer} {k k' : Kernel} {a : Answers} {port : UInt16}

theorem Phase.notStarted (h : Phase port .notStarted srv k) : srv = .create ∧ k = .boot := by
  cases h
  exact ⟨rfl, rfl⟩

theorem phase_init (port : UInt16) (a : Answers) : ∃ st server kernel,
    (TcpServer.create.init port).run a .boot = .ok ((st, server), kernel) ∧
      Phase port .looping server kernel := by
  obtain ⟨st, server, kernel, hrun, hout⟩ := TcpServer.init_outcome 16 port a .boot
  refine ⟨st, server, kernel, hrun, ?_⟩
  cases hout with
  | noSocket hg =>
    refine .stopped (.closed .tcpSocket) rfl ⟨_, List.mem_singleton_self _, ?_⟩
    decide
  | @stopped n s calls k' hg hn hno hs ht hlog hcalls hfail =>
    rw [Kernel.boot, List.nil_append] at hlog
    obtain ⟨c, hc, hbad⟩ := hfail
    refine .stopped ht ?_ ⟨c, ?_, hbad⟩
    · rw [hlog]
      exact TcpServer.settle_opened hn hcalls
    · rw [hlog]
      exact List.mem_cons_of_mem _ hc
  | @listening n flags calls k' hg hn hok htable =>
    have hf := Kernel.table_of_update htable
    refine .listening hf rfl ⟨a.portFor port, ?_, a.portFor_ne_zero port, a.portFor_eq⟩
    rw [Kernel.localAddr, hf]
    rfl

theorem Phase.fire_listening {n : Int} {g : KernelSocket} (hf : k.table n = some g)
    (hl : g.listening = true) (hp : Addressed port k n)
    (h : ((TcpServer.listening 16 n).fire f).run a k = .ok (srv, k')) :
    Phase port .looping srv k' := by
  rcases f.event_or_ne n with ⟨mask, rfl⟩ | he
  · obtain ⟨k'', hrun, hk⟩ :=
      TcpServer.fire_listening_connect 16 hf hl (m := k.grant a.accept) rfl mask
    cases hrun.symm.trans h
    have hne : k.grant a.accept ≠ n := by
      rcases k.grant_cases a.accept with hg | ⟨-, hfree⟩
      · have hn := k.nonneg_of_table hf
        omega
      · exact Kernel.ne_of_free hf hfree
    have htable : ((k.install (k.grant a.accept) (TcpServer.acceptedSocket g a)).record
        (.accept n (k.grant a.accept))).table n = k.table n := by
      rw [Kernel.record_table, Kernel.install_table_of_ne _ _ (Ne.symm hne)]
    obtain ⟨g', hg', hl'⟩ := hk.listening (htable.trans hf) hl
    have hlocal : k'.localAddr n = k.localAddr n := by
      rw [hk.localAddr, Kernel.localAddr_congr htable]
    refine .accepted hg' hl' ?_ hne
    rw [Addressed, hlocal]
    exact hp
  · cases (TcpServer.fire_listening_idle he).symm.trans h
    exact .listening hf hl hp

theorem destroy_stopped {s : Socket} {held : Finset Int} (ht : s.Tracks k held)
    (hsettle : Ledger.settle ∅ (k.log.filterMap Call.entry) = some held) (hfail : Failed k)
    (timing : CloseTiming) : ∃ k',
      ((TcpServer.withSocket 16 s).destroy timing).run a k = .ok ((), k') ∧
        Ledger.settle ∅ (k'.log.filterMap Call.entry) = some ∅ ∧ Failed k' := by
  cases ht with
  | closed t =>
    have hclosed : (-1 : Int) < 0 := by decide
    exact ⟨k, TcpServer.destroy_alone rfl rfl (Socket.destroy_closed hclosed) timing, hsettle,
      hfail⟩
  | @opened t n stat f hf hd =>
    have hn := k.nonneg_of_table hf
    refine ⟨k.closing n, TcpServer.destroy_alone rfl rfl (Socket.destroy_open hn) timing, ?_, ?_⟩
    · have hentry : [Call.close n].filterMap Call.entry = [.release n] := rfl
      rw [Kernel.closing_log, List.filterMap_append, Ledger.settle_append, hsettle,
        Option.bind_some, hentry, Ledger.settle, if_pos (Finset.mem_singleton_self n),
        Finset.erase_singleton]
      rfl
    · obtain ⟨c, hc, hbad⟩ := hfail
      exact ⟨c, List.mem_append_left _ hc, hbad⟩

theorem Phase.fire (hp : Phase port .looping srv k)
    (hwaits : srv.taskScheduler.evtHandler.loopEnds = false)
    (h : (srv.fire f).run a k = .ok (srv', k')) : Phase port .looping srv' k' := by
  cases hp with
  | listening hf hl hlocal => exact fire_listening hf hl hlocal h
  | @accepted k n m g hf hl hlocal hne =>
    have hstep : TcpServer.step (TcpServer.accepted 16 n m, k) (.fire f, a) = .ok (srv', k') := h
    obtain ⟨rfl, rfl⟩ := TcpServer.step_accepted hne hstep
    exact .accepted hf hl hlocal hne
  | stopped ht hsettle hfail => cases hwaits

theorem Phase.leave_ok (hp : Phase port .looping srv k)
    (hends : srv.taskScheduler.evtHandler.loopEnds = true) (timing : CloseTiming) (a : Answers) :
    ∃ k', (srv.destroy timing).run a k = .ok ((), k') ∧ Phase port .returned srv k' := by
  cases hp with
  | listening hf hl hlocal => cases hends
  | accepted hf hl hlocal hne => cases hends
  | stopped ht hsettle hfail =>
    obtain ⟨k', hrun, hsettle', hfail'⟩ := destroy_stopped ht hsettle hfail timing (a := a)
    exact ⟨k', hrun, .returned hsettle' hfail'⟩

theorem Phase.leave (hp : Phase port .looping srv k)
    (hends : srv.taskScheduler.evtHandler.loopEnds = true)
    (h : (srv.destroy timing).run a k = .ok ((), k')) : Phase port .returned srv k' := by
  obtain ⟨k'', hrun, hp'⟩ := hp.leave_ok hends timing a
  cases hrun.symm.trans h
  exact hp'

inductive Took (m : ServerMain) : ServerMain → Prop where
  | stays : Took m m
  | inits {arg : List Char} {st : RtspStatus} {server : TcpServer} {kernel : Kernel} {a : Answers}
      (hstage : m.stage = .notStarted) (harg : m.argv1 = some arg)
      (hrun : (m.server.init (portOf arg)).run a m.kernel = .ok ((st, server), kernel)) :
      Took m { m with stage := .looping, server, kernel }
  | fires {f : Firing} {server : TcpServer} {kernel : Kernel} {a : Answers}
      (hstage : m.stage = .looping) (hwaits : m.server.taskScheduler.evtHandler.loopEnds = false)
      (hrun : (m.server.fire f).run a m.kernel = .ok (server, kernel)) :
      Took m { m with server, kernel }
  | leaves {timing : CloseTiming} {kernel : Kernel} {a : Answers} (hstage : m.stage = .looping)
      (hends : m.server.taskScheduler.evtHandler.loopEnds = true)
      (hrun : (m.server.destroy timing).run a m.kernel = .ok ((), kernel)) :
      Took m { m with stage := .returned, kernel }

theorem took_of_step {i : MainInput × Answers} (h : step m i = .ok t) : Took m t := by
  obtain ⟨input, a⟩ := i
  rw [step] at h
  split at h
  · next hstage hinput =>
    obtain ⟨arg, harg, h⟩ := Routine.bind_ok_cases h
    obtain ⟨r, hrun, h⟩ := Routine.bind_ok_cases h
    cases h
    exact .inits hstage (Fault.deref_ok (Routine.mapError_ok_cases harg))
      (Routine.mapError_ok_cases hrun)
  · next f pipe hstage hinput =>
    split at h
    · cases h
      exact .stays
    · next hwaits =>
      obtain ⟨r, hrun, h⟩ := Routine.bind_ok_cases h
      simp only at h
      split at h
      · cases h
      · cases h
        exact .fires hstage (Bool.eq_false_of_not_eq_true hwaits) (Routine.mapError_ok_cases hrun)
  · next timing hstage hinput =>
    split at h
    · next hends =>
      obtain ⟨r, hrun, h⟩ := Routine.bind_ok_cases h
      cases h
      exact .leaves hstage hends (Routine.mapError_ok_cases hrun)
    · cases h
      exact .stays
  · cases h
    exact .stays

structure Sound (argv1 : Option (List Char)) (port : UInt16) (m : ServerMain) : Prop where
  argv1_eq : m.argv1 = argv1
  phase : Phase port m.stage m.server m.kernel

theorem Sound.took {arg : List Char} (hm : Sound (some arg) (portOf arg) m) (h : Took m t) :
    Sound (some arg) (portOf arg) t := by
  obtain ⟨harg, hp⟩ := hm
  cases h with
  | stays => exact ⟨harg, hp⟩
  | @inits arg' st server kernel a hstage harg' hrun =>
    rw [hstage] at hp
    obtain ⟨hserver, hkernel⟩ := hp.notStarted
    rw [hserver, hkernel] at hrun
    cases harg.symm.trans harg'
    obtain ⟨st', server', kernel', hrun', hphase⟩ := phase_init (portOf arg) a
    cases hrun.symm.trans hrun'
    exact ⟨harg, hphase⟩
  | fires hstage hwaits hrun =>
    rw [hstage] at hp
    refine ⟨harg, ?_⟩
    rw [hstage]
    exact hp.fire hwaits hrun
  | leaves hstage hends hrun =>
    rw [hstage] at hp
    exact ⟨harg, hp.leave hends hrun⟩

theorem sound_of_run {arg : List Char} (h : Machine.run step (start (some arg)) is = .ok m) :
    Sound (some arg) (portOf arg) m := by
  apply Machine.run_invariant (I := Sound _ _) _ _ h
  · intro s i t hs hstep
    exact hs.took (took_of_step hstep)
  · exact ⟨rfl, .ready⟩

end ServerMain

end Gortsp
