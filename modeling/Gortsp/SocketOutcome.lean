import Gortsp.TcpConnection

namespace Gortsp
set_option autoImplicit true

def KernelSocket.shape (f : KernelSocket) : Protocol × Option SockaddrIn × Bool :=
  (f.protocol, f.localAddr, f.listening)

/-- The calls made on the way from `k` to `k'`, of which none bound, opened or closed a
descriptor. -/
structure Kernel.Steady (k k' : Kernel) : Prop where
  shape : ∀ fd, (k'.table fd).map KernelSocket.shape = (k.table fd).map KernelSocket.shape
  calls : ∃ cs, k'.log = k.log ++ cs ∧ cs.filterMap Call.entry = []

theorem Kernel.Steady.refl (k : Kernel) : k.Steady k :=
  ⟨fun _ => rfl, [], (List.append_nil _).symm, rfl⟩

theorem Kernel.Steady.trans {k k' k'' : Kernel} (h : k.Steady k') (h' : k'.Steady k'') :
    k.Steady k'' := by
  obtain ⟨cs, hcs, hn⟩ := h.calls
  obtain ⟨cs', hcs', hn'⟩ := h'.calls
  refine ⟨fun fd => (h'.shape fd).trans (h.shape fd), cs ++ cs', ?_, ?_⟩
  · rw [hcs', hcs, List.append_assoc]
  · rw [List.filterMap_append, hn, hn', List.append_nil]

theorem Kernel.Steady.table {k k' : Kernel} (h : k.Steady k') (hf : k.table n = some f) :
    ∃ f', k'.table n = some f' ∧ f'.shape = f.shape := by
  have hshape := h.shape n
  rw [hf, Option.map_some] at hshape
  exact Option.map_eq_some_iff.1 hshape

theorem Kernel.Steady.listening {k k' : Kernel} (h : k.Steady k') (hf : k.table n = some f)
    (hl : f.listening = true) : ∃ f', k'.table n = some f' ∧ f'.listening = true := by
  obtain ⟨f', hf', hshape⟩ := h.table hf
  simp only [KernelSocket.shape, Prod.mk.injEq] at hshape
  exact ⟨f', hf', hshape.2.2.trans hl⟩

theorem Kernel.steady_record (k : Kernel) {c : Call} (hc : c.entry = none) :
    k.Steady (k.record c) :=
  ⟨fun _ => rfl, [c], rfl, by simp only [List.filterMap, hc]⟩

theorem Kernel.steady_modify (k : Kernel) (fd : Int) {g : KernelSocket → KernelSocket} {c : Call}
    (hg : ∀ f, (g f).shape = f.shape) (hc : c.entry = none) :
    k.Steady ((k.modify fd g).record c) := by
  refine ⟨fun n => ?_, [c], rfl, by simp only [List.filterMap, hc]⟩
  by_cases h : n = fd
  · subst h
    cases hf : k.table n with
    | none => simp [hf]
    | some f => simp [hf, hg]
  · simp [h]

theorem Sys.send_steady (fd : Int) (data : StdString) (a : Answers) (k : Kernel) :
    ∃ ret k', (Sys.send fd data).run a k = .ok (ret, k') ∧ k.Steady k' := by
  simp only [Sys.send]
  split
  · exact ⟨_, _, rfl, k.steady_modify fd (fun _ => rfl) rfl⟩
  · exact ⟨_, _, rfl, k.steady_record rfl⟩

theorem Sys.fcntlGetfl_steady (fd : Int) (a : Answers) (k : Kernel) :
    ∃ ret k', (Sys.fcntlGetfl fd).run a k = .ok (ret, k') ∧ k.Steady k' :=
  ⟨_, _, rfl, k.steady_record rfl⟩

theorem Sys.fcntlSetfl_steady (fd : Int) (arg : BitVec 32) (a : Answers) (k : Kernel) :
    ∃ ret k', (Sys.fcntlSetfl fd arg).run a k = .ok (ret, k') ∧ k.Steady k' := by
  simp only [Sys.fcntlSetfl]
  split
  · refine ⟨_, _, rfl, k.steady_modify fd (fun f => ?_) rfl⟩
    split <;> rfl
  · exact ⟨_, _, rfl, k.steady_record rfl⟩

theorem Socket.send_steady (s : Socket) (data : StdString) (a : Answers) (k : Kernel) :
    ∃ st k', (s.send data).run a k = .ok (st, k') ∧ k.Steady k' := by
  obtain ⟨ret, k', hr, hk⟩ := Sys.send_steady s.fd data a k
  simp only [Socket.send, Routine.run_bind, hr, Routine.run_ite, Routine.run_pure]
  split <;> exact ⟨_, _, rfl, hk⟩

theorem Socket.setNonBlock_steady (s : Socket) (a : Answers) (k : Kernel) :
    ∃ st k', s.setNonBlock.run a k = .ok (st, k') ∧ k.Steady k' := by
  obtain ⟨flags, k', hr, hk⟩ := Sys.fcntlGetfl_steady s.fd a k
  obtain ⟨ret, k'', hr', hk'⟩ := Sys.fcntlSetfl_steady s.fd (flags ||| oNonblock) a k'
  simp only [Socket.setNonBlock, Routine.run_ite, Routine.run_pure, Routine.run_bind, hr, hr']
  split
  · exact ⟨_, _, rfl, .refl k⟩
  · split
    · exact ⟨_, _, rfl, hk⟩
    · split
      · exact ⟨_, _, ite_self _, hk.trans hk'⟩
      · exact ⟨_, _, rfl, hk⟩

theorem Sys.accept_answers (fd : Int) (a : Answers) (k : Kernel) :
    ∃ n k', (Sys.accept fd).run a k = .ok (n, k') ∧ k'.log = k.log ++ [.accept fd n] := by
  rcases Sys.accept_cases fd a k with hr | ⟨n, f, hn, hfree, hr⟩
  · exact ⟨_, _, hr, rfl⟩
  · exact ⟨_, _, hr, rfl⟩

theorem Sys.accept_keeps (hf : k.table n = some f) (hr : (Sys.accept n).run a k = .ok (m, k')) :
    m ≠ n ∧ k'.table n = some f := by
  rcases Sys.accept_cases n a k with hr' | ⟨m', g, hm, hfree, hr'⟩
  · cases hr.symm.trans hr'
    have hn := k.nonneg_of_table hf
    exact ⟨by omega, hf⟩
  · cases hr.symm.trans hr'
    have hne := Kernel.ne_of_free hf hfree
    exact ⟨hne, (Kernel.install_table_of_ne _ _ hne.symm).trans hf⟩

inductive SocketOp where
  | setType (type : SocketType)
  | init
  | bind (ip : StdString) (port : UInt16)
  | listen (backlog : Int)
  | accept (conn : TcpConnection)
  | connect (ip : StdString) (port : UInt16) (timeout : Int)
  | send (data : StdString)
  | setNonBlock
  | setBlock (timeout : Int)
  | close
  | disconnect

structure Socket.Result where
  status : RtspStatus
  socket : Socket
  conn : Option TcpConnection

def SocketOp.conn : SocketOp → Option TcpConnection
  | .accept conn => some conn
  | _ => none

def SocketOp.Closes : SocketOp → Prop
  | .close | .disconnect => True
  | _ => False

namespace Socket

def operate (s : Socket) : SocketOp → Sys Result
  | .setType type => return ⟨(s.setType type).1, (s.setType type).2, none⟩
  | .init => do
    let (status, socket) ← s.init
    return ⟨status, socket, none⟩
  | .bind ip port => do
    let (status, socket) ← s.bind ip port
    return ⟨status, socket, none⟩
  | .listen backlog => do
    let (status, socket) ← s.listen backlog
    return ⟨status, socket, none⟩
  | .accept conn => do
    let (status, socket, conn) ← s.accept (some conn)
    return ⟨status, socket, conn⟩
  | .connect ip port timeout => return ⟨s.connect ip port timeout, s, none⟩
  | .send data => do
    let status ← s.send data
    return ⟨status, s, none⟩
  | .setNonBlock => do
    let status ← s.setNonBlock
    return ⟨status, s, none⟩
  | .setBlock timeout => return ⟨s.setBlock timeout, s, none⟩
  | .close => do
    let (status, socket) ← s.close
    return ⟨status, socket, none⟩
  | .disconnect => do
    let (status, socket) ← s.disconnect
    return ⟨status, socket, none⟩

def perform (s : Socket) (op : SocketOp) : Sys Socket := do return (← s.operate op).socket

def refusal (s : Socket) : SocketOp → Option RtspStatus
  | .setType _ =>
    if s.stat ≠ .uninitialized ∨ s.fd ≥ 0 then some .multiOperator else none
  | .init => if s.stat > .uninitialized ∨ s.fd ≥ 0 then some .multiOperator else none
  | .bind _ _ => if s.stat ≠ .created then some .uninitialized else none
  | .listen _ =>
    if s.type ≠ .tcpSocket ∨ s.stat ≠ .binded then some .illegalParams else none
  | .accept _ =>
    if s.type ≠ .tcpSocket ∨ s.stat ≠ .listened then some .illegalParams else none
  | .setNonBlock => if s.stat < .created then some .uninitialized else none
  | .setBlock _ => some .uninitialized
  | .connect _ _ _ | .send _ | .close | .disconnect => none

def droppedCalls (n : Int) : List Call := if 0 ≤ n then [.close n] else []

/-- How one operation can end, with the calls that were made on the way. -/
inductive Outcome (s : Socket) (a : Answers) (k : Kernel) :
    SocketOp → Result → Kernel → List Call → Prop where
  | refused {op : SocketOp} {st : RtspStatus} (h : s.refusal op = some st) :
      Outcome s a k op ⟨st, s, op.conn⟩ k []
  | retyped {type : SocketType} (hs : s.stat = .uninitialized) (hfd : s.fd < 0) :
      Outcome s a k (.setType type) ⟨.success, { s with type }, none⟩ k []
  | noSocket (hs : s.stat = .uninitialized) (hfd : s.fd < 0) (hg : k.grant a.socket = -1) :
      Outcome s a k .init ⟨.ioOperatorErr, { s with fd := -1 }, none⟩
        (k.record (.socket s.type.kind s.type.protocol (-1)))
        [.socket s.type.kind s.type.protocol (-1)]
  | opened {n : Int} (hs : s.stat = .uninitialized) (hfd : s.fd < 0)
      (hg : k.grant a.socket = n) (hn : 0 ≤ n) :
      Outcome s a k .init ⟨.success, { s with fd := n, stat := .created }, none⟩
        ((k.install n ⟨s.type.kind, s.type.protocol, none, false, a.flags, []⟩).record
          (.socket s.type.kind s.type.protocol n))
        [.socket s.type.kind s.type.protocol n]
  | bindFailed {ip : StdString} {port : UInt16} (hs : s.stat = .created)
      (hb : ¬((k.table s.fd).isSome ∧ a.bind)) :
      Outcome s a k (.bind ip port) ⟨.ioOperatorErr, s, none⟩
        (k.record (.bind s.fd (anyAddr port) (-1))) [.bind s.fd (anyAddr port) (-1)]
  | bound {ip : StdString} {port : UInt16} (hs : s.stat = .created)
      (hb : (k.table s.fd).isSome ∧ a.bind) :
      Outcome s a k (.bind ip port) ⟨.success, { s with stat := .binded }, none⟩
        ((k.modify s.fd ({ · with localAddr := some (anyAddr (a.portFor port)) })).record
          (.bind s.fd (anyAddr port) 0)) [.bind s.fd (anyAddr port) 0]
  | listenFailed {backlog : Int} (ht : s.type = .tcpSocket) (hs : s.stat = .binded)
      (hl : ¬((k.table s.fd).isSome ∧ a.listen)) :
      Outcome s a k (.listen backlog) ⟨.ioOperatorErr, s, none⟩
        (k.record (.listen s.fd backlog (-1))) [.listen s.fd backlog (-1)]
  | listens {backlog : Int} (ht : s.type = .tcpSocket) (hs : s.stat = .binded)
      (hl : (k.table s.fd).isSome ∧ a.listen) :
      Outcome s a k (.listen backlog) ⟨.success, { s with stat := .listened }, none⟩
        ((k.modify s.fd ({ · with listening := true })).record (.listen s.fd backlog 0))
        [.listen s.fd backlog 0]
  | taken {conn : TcpConnection} {n : Int} {k' : Kernel} (ht : s.type = .tcpSocket)
      (hs : s.stat = .listened) (hc : conn.socket = none)
      (hr : (Sys.accept s.fd).run a k = .ok (n, k')) :
      Outcome s a k (.accept conn) ⟨.success, { s with stat := .accepting },
        some { conn with socket := some (createFromAccept n) }⟩ k' [.accept s.fd n]
  | dropped {conn : TcpConnection} {n : Int} {k' k'' : Kernel} (ht : s.type = .tcpSocket)
      (hs : s.stat = .listened) (hc : conn.socket.isSome)
      (hr : (Sys.accept s.fd).run a k = .ok (n, k'))
      (hd : (createFromAccept n).destroy.run a k' = .ok ((), k'')) :
      Outcome s a k (.accept conn) ⟨.success, { s with stat := .accepting }, some conn⟩ k''
        (.accept s.fd n :: droppedCalls n)
  | compiledOut {ip : StdString} {port : UInt16} {timeout : Int} :
      Outcome s a k (.connect ip port timeout) ⟨.success, s, none⟩ k []
  | sent {data : StdString} {ret : Int} {k' : Kernel}
      (hr : (Sys.send s.fd data).run a k = .ok (ret, k')) (hk : k.Steady k') :
      Outcome s a k (.send data)
        ⟨if sizeOfSsize ret < data.size then .ioOperatorErr else .success, s, none⟩ k'
        [.send s.fd data ret]
  | flagged {st : RtspStatus} {k' : Kernel} {calls : List Call} (hs : ¬s.stat < .created)
      (hst : st = .success ↔ (k.table s.fd).isSome ∧ a.getfl) (hk : k.Steady k')
      (hcalls : ∀ c ∈ calls, (∃ ret, c = .fcntlGetfl s.fd ret) ∨
        ∃ arg ret, c = .fcntlSetfl s.fd arg ret) (hne : calls ≠ []) :
      Outcome s a k .setNonBlock ⟨st, s, none⟩ k' calls
  | closed {op : SocketOp} (hop : op.Closes) (hfd : s.fd < 0) :
      Outcome s a k op ⟨.success, s.closed, none⟩ k []
  | released {op : SocketOp} (hop : op.Closes) (hfd : 0 ≤ s.fd) :
      Outcome s a k op ⟨.success, s.closed, none⟩ ((k.release s.fd).record (.close s.fd))
        [.close s.fd]

variable {s : Socket} {a : Answers} {k : Kernel}

def Ends (s : Socket) (op : SocketOp) (a : Answers) (k : Kernel) : Prop :=
  ∃ r k' calls, (s.operate op).run a k = .ok (r, k') ∧ k'.log = k.log ++ calls ∧
    s.Outcome a k op r k' calls

theorem not_above_uninitialized {stat : SocketStat} (h : ¬stat > .uninitialized) :
    stat = .uninitialized := by
  cases stat with
  | uninitialized => rfl
  | _ => exact absurd (by decide) h

theorem setType_ends (s : Socket) (type : SocketType) (a : Answers) (k : Kernel) :
    s.Ends (.setType type) a k := by
  by_cases h : s.stat ≠ .uninitialized ∨ s.fd ≥ 0
  · have hst : s.setType type = (.multiOperator, s) := if_pos h
    refine ⟨⟨.multiOperator, s, none⟩, k, [], ?_, (List.append_nil _).symm, .refused (if_pos h)⟩
    rw [operate, hst]
    rfl
  · have hst : s.setType type = (.success, { s with type }) := if_neg h
    obtain ⟨hs, hfd⟩ := not_or.1 h
    refine ⟨⟨.success, { s with type }, none⟩, k, [], ?_, (List.append_nil _).symm,
      .retyped (not_not.1 hs) (by omega)⟩
    rw [operate, hst]
    rfl

theorem init_ends (s : Socket) (a : Answers) (k : Kernel) : s.Ends .init a k := by
  by_cases h : s.stat > .uninitialized ∨ s.fd ≥ 0
  · exact ⟨_, _, [], Routine.run_bind_ok (init_refused h) _, (List.append_nil _).symm,
      .refused (if_pos h)⟩
  · obtain ⟨hs, hfd⟩ := not_or.1 h
    have hs' := not_above_uninitialized hs
    have hfd' : s.fd < 0 := by omega
    rcases k.grant_cases a.socket with hg | ⟨hn, hfree⟩
    · exact ⟨_, _, _, Routine.run_bind_ok (init_failed hs' hfd' hg) _, rfl,
        .noSocket hs' hfd' hg⟩
    · exact ⟨_, _, _, Routine.run_bind_ok (init_created hs' hfd' rfl hn) _, rfl,
        .opened hs' hfd' rfl hn⟩

theorem bind_ends (s : Socket) (ip : StdString) (port : UInt16) (a : Answers) (k : Kernel) :
    s.Ends (.bind ip port) a k := by
  by_cases hs : s.stat = .created
  · by_cases hb : (k.table s.fd).isSome ∧ a.bind
    · exact ⟨_, _, _, Routine.run_bind_ok (bind_ok hs hb ip port) _, rfl, .bound hs hb⟩
    · exact ⟨_, _, _, Routine.run_bind_ok (bind_failed hs hb ip port) _, rfl, .bindFailed hs hb⟩
  · exact ⟨_, _, [], Routine.run_bind_ok (bind_refused hs) _, (List.append_nil _).symm,
      .refused (if_pos hs)⟩

theorem listen_ends (s : Socket) (backlog : Int) (a : Answers) (k : Kernel) :
    s.Ends (.listen backlog) a k := by
  by_cases h : s.type ≠ .tcpSocket ∨ s.stat ≠ .binded
  · exact ⟨_, _, [], Routine.run_bind_ok (listen_refused h) _, (List.append_nil _).symm,
      .refused (if_pos h)⟩
  · obtain ⟨ht, hs⟩ := not_or.1 h
    have ht' := not_not.1 ht
    have hs' := not_not.1 hs
    by_cases hl : (k.table s.fd).isSome ∧ a.listen
    · exact ⟨_, _, _, Routine.run_bind_ok (listen_ok ht' hs' hl backlog) _, rfl,
        .listens ht' hs' hl⟩
    · exact ⟨_, _, _, Routine.run_bind_ok (listen_failed ht' hs' hl backlog) _, rfl,
        .listenFailed ht' hs' hl⟩

theorem destroy_ofAccept (n : Int) (a : Answers) (k : Kernel) :
    ∃ k', (createFromAccept n).destroy.run a k = .ok ((), k') ∧
      k'.log = k.log ++ droppedCalls n := by
  by_cases hn : 0 ≤ n
  · refine ⟨_, destroy_open hn, ?_⟩
    rw [droppedCalls, if_pos hn]
    rfl
  · have hneg : (createFromAccept n).fd < 0 := Int.not_le.1 hn
    refine ⟨k, destroy_closed hneg, ?_⟩
    rw [droppedCalls, if_neg hn, List.append_nil]

theorem destroy_keeps (hne : m ≠ n) (hd : (createFromAccept m).destroy.run a k = .ok ((), k')) :
    k'.table n = k.table n := by
  by_cases hm : 0 ≤ m
  · cases hd.symm.trans (destroy_open hm)
    exact Function.update_of_ne hne.symm _ _
  · cases hd.symm.trans (destroy_closed (Int.not_le.1 hm))
    rfl

theorem accept_ends (s : Socket) (conn : TcpConnection) (a : Answers) (k : Kernel) :
    s.Ends (.accept conn) a k := by
  by_cases h : s.type ≠ .tcpSocket ∨ s.stat ≠ .listened
  · exact ⟨_, _, [], Routine.run_bind_ok (accept_refused h) _, (List.append_nil _).symm,
      .refused (if_pos h)⟩
  · obtain ⟨ht, hs⟩ := not_or.1 h
    have ht' := not_not.1 ht
    have hs' := not_not.1 hs
    obtain ⟨n, k', hr, hlog⟩ := Sys.accept_answers s.fd a k
    cases hc : conn.socket with
    | none =>
      exact ⟨_, _, _, Routine.run_bind_ok (accept_given ht' hs' hc hr) _, hlog,
        .taken ht' hs' hc hr⟩
    | some other =>
      have hc' : conn.socket.isSome := Option.isSome_of_eq_some hc
      obtain ⟨k'', hd, hlog'⟩ := destroy_ofAccept n a k'
      refine ⟨_, _, _, Routine.run_bind_ok (accept_dropped ht' hs' hc' hr hd) _, ?_,
        .dropped ht' hs' hc' hr hd⟩
      rw [hlog', hlog, List.append_assoc, List.singleton_append]

theorem send_ends (s : Socket) (data : StdString) (a : Answers) (k : Kernel) :
    s.Ends (.send data) a k := by
  have hanswer : ∃ ret k', (Sys.send s.fd data).run a k = .ok (ret, k') ∧ k.Steady k' ∧
      k'.log = k.log ++ [.send s.fd data ret] := by
    simp only [Sys.send]
    split
    · exact ⟨_, _, rfl, k.steady_modify s.fd (fun _ => rfl) rfl, rfl⟩
    · exact ⟨_, _, rfl, k.steady_record rfl, rfl⟩
  obtain ⟨ret, k', hr, hk, hlog⟩ := hanswer
  have hsend : (s.send data).run a k =
      .ok (if sizeOfSsize ret < data.size then .ioOperatorErr else .success, k') := by
    rw [send, Routine.run_bind_ok hr]
    simp only [Routine.run_ite, Routine.run_pure]
    split <;> rfl
  exact ⟨_, _, _, Routine.run_bind_ok hsend _, hlog, .sent hr hk⟩

theorem steady_of_setNonBlock (hr : s.setNonBlock.run a k = .ok (st, k')) : k.Steady k' := by
  obtain ⟨st', k'', hr', hk⟩ := s.setNonBlock_steady a k
  rw [hr] at hr'
  cases hr'
  exact hk

theorem setNonBlock_stops (hs : ¬s.stat < .created) (hno : ¬((k.table s.fd).isSome ∧ a.getfl)) :
    s.setNonBlock.run a k = .ok (.ioOperatorErr, k.record (.fcntlGetfl s.fd (-1))) := by
  have hread : (Sys.fcntlGetfl s.fd).run a k = .ok (-1, k.record (.fcntlGetfl s.fd (-1))) := by
    cases hf : k.table s.fd with
    | none => simp only [Sys.fcntlGetfl, hf]
    | some f =>
      have hg : a.getfl = false := by
        rw [hf] at hno
        simpa using hno
      simp only [Sys.fcntlGetfl, hf, hg, Bool.false_eq_true, if_false]
  have hslt : BitVec.slt (-1 : BitVec 32) 0 = true := by decide
  rw [setNonBlock, if_neg hs, Routine.run_bind_ok hread, if_pos hslt, Routine.run_pure]

theorem setNonBlock_ends (s : Socket) (a : Answers) (k : Kernel) : s.Ends .setNonBlock a k := by
  by_cases hs : s.stat < .created
  · have hrun : s.setNonBlock.run a k = .ok (.uninitialized, k) := by
      rw [setNonBlock, if_pos hs]
      rfl
    exact ⟨_, _, [], Routine.run_bind_ok hrun _, (List.append_nil _).symm, .refused (if_pos hs)⟩
  · by_cases hread : (k.table s.fd).isSome ∧ a.getfl
    · obtain ⟨f, hf⟩ := Option.isSome_iff_exists.1 hread.1
      have hst : RtspStatus.success = .success ↔ (k.table s.fd).isSome ∧ a.getfl :=
        iff_of_true rfl hread
      by_cases hO : f.flags.word &&& oNonblock = 0
      · cases hset : a.setfl with
        | true =>
          have hr := setNonBlock_set hs hf hread.2 hO hset
          refine ⟨_, _, [.fcntlGetfl s.fd f.flags.word,
            .fcntlSetfl s.fd (f.flags.word ||| oNonblock) 0], Routine.run_bind_ok hr _, ?_,
            .flagged hs hst (steady_of_setNonBlock hr) (by simp) (by simp)⟩
          simp
        | false =>
          have hr := setNonBlock_refused hs hf hread.2 hO hset
          refine ⟨_, _, [.fcntlGetfl s.fd f.flags.word,
            .fcntlSetfl s.fd (f.flags.word ||| oNonblock) (-1)], Routine.run_bind_ok hr _, ?_,
            .flagged hs hst (steady_of_setNonBlock hr) (by simp) (by simp)⟩
          simp
      · have hr := setNonBlock_kept hs hf hread.2 hO
        exact ⟨_, _, [.fcntlGetfl s.fd f.flags.word], Routine.run_bind_ok hr _, rfl,
          .flagged hs hst (steady_of_setNonBlock hr) (by simp) (by simp)⟩
    · have hr := setNonBlock_stops hs hread
      have hst : RtspStatus.ioOperatorErr = .success ↔ (k.table s.fd).isSome ∧ a.getfl :=
        iff_of_false (by decide) hread
      exact ⟨_, _, [.fcntlGetfl s.fd (-1)], Routine.run_bind_ok hr _, rfl,
        .flagged hs hst (steady_of_setNonBlock hr) (by simp) (by simp)⟩

theorem close_ends (s : Socket) (a : Answers) (k : Kernel) (hop : op.Closes) :
    s.Ends op a k := by
  have hrun {k' : Kernel} (hr : s.close.run a k = .ok ((.success, s.closed), k')) :
      (s.operate op).run a k = .ok (⟨.success, s.closed, none⟩, k') := by
    cases op with
    | close => exact Routine.run_bind_ok hr _
    | disconnect => exact Routine.run_bind_ok hr _
    | _ => exact hop.elim
  by_cases hfd : s.fd < 0
  · exact ⟨_, k, [], hrun (close_closed hfd), (List.append_nil _).symm, .closed hop hfd⟩
  · have hfd' : 0 ≤ s.fd := by omega
    exact ⟨_, _, [.close s.fd], hrun (close_open hfd'), rfl, .released hop hfd'⟩

theorem operate_ends (s : Socket) (op : SocketOp) (a : Answers) (k : Kernel) :
    s.Ends op a k := by
  cases op with
  | setType type => exact s.setType_ends type a k
  | init => exact s.init_ends a k
  | bind ip port => exact s.bind_ends ip port a k
  | listen backlog => exact s.listen_ends backlog a k
  | accept conn => exact s.accept_ends conn a k
  | connect ip port timeout => exact ⟨_, _, [], rfl, (List.append_nil _).symm, .compiledOut⟩
  | send data => exact s.send_ends data a k
  | setNonBlock => exact s.setNonBlock_ends a k
  | setBlock timeout => exact ⟨_, _, [], rfl, (List.append_nil _).symm, .refused rfl⟩
  | close => exact s.close_ends a k trivial
  | disconnect => exact s.close_ends a k trivial

theorem perform_of_operate (hr : (s.operate op).run a k = .ok (r, k')) :
    (s.perform op).run a k = .ok (r.socket, k') := Routine.run_bind_ok hr _

end Socket

end Gortsp
