import Gortsp.SocketSimulation
import Gortsp.TcpServer

namespace Gortsp
set_option autoImplicit true

namespace TcpServer

def withSocket (limit : UInt16) (s : Socket) : TcpServer :=
  { createWith limit with serverSocket := s }

def listenRegistration (n : Int) : Registration EventCb IOEventCb :=
  .event n (some .onConnectFunc)

def listening (limit : UInt16) (n : Int) : TcpServer where
  serverSocket := ⟨.tcpSocket, n, .listened, false⟩
  maxConnections := limit
  connections := ∅
  taskScheduler := ⟨limit.toNat + 1, registered [listenRegistration n]⟩
  onConnectFunc := some .onConnect
  onReadFunc := some .onRead
  onDisconnectFunc := some .onDiconnect

/-- Where `init` on a fresh server can end. `calls` are those made after `::socket`. -/
inductive InitOutcome (limit : UInt16) (port : UInt16) (a : Answers) (k : Kernel) :
    RtspStatus → TcpServer → Kernel → Prop where
  | noSocket (hg : k.grant a.socket = -1) :
      InitOutcome limit port a k .internalErr (createWith limit)
        (k.record (.socket .stream .tcp (-1)))
  | stopped {n : Int} {s : Socket} {calls : List Call} {k' : Kernel}
      (hg : k.grant a.socket = n) (hn : 0 ≤ n) (hno : ¬(a.getfl ∧ a.bind ∧ a.listen))
      (hs : s.type = .tcpSocket ∧ (s.stat = .created ∨ s.stat = .binded))
      (ht : s.Tracks k' {n}) (hlog : k'.log = k.log ++ .socket .stream .tcp n :: calls)
      (hcalls : calls.filterMap Call.entry = []) (hfail : ∃ c ∈ calls, ¬c.succeeded) :
      InitOutcome limit port a k .internalErr (withSocket limit s) k'
  | listening {n : Int} {flags : FlagWord} {calls : List Call} {k' : Kernel}
      (hg : k.grant a.socket = n) (hn : 0 ≤ n) (hok : a.getfl ∧ a.bind ∧ a.listen)
      (htable : k'.table = Function.update k.table n
        (some ⟨.stream, .tcp, some (Socket.anyAddr (a.portFor port)), true, flags, []⟩))
      (hlog : k'.log = k.log ++ .socket .stream .tcp n :: calls)
      (hcalls : calls.filterMap Call.entry = [])
      (hreport : (∀ c ∈ calls, c.succeeded) ↔ a.SetsFlag a.flags)
      (hflags : a.SetsFlag a.flags → flags = a.flags.nonblocking) :
      InitOutcome limit port a k .success (listening limit n) k'

variable {srv : TcpServer} {k k' : Kernel} {a : Answers}

theorem init_busy (h : srv.serverSocket.stat > .uninitialized ∨ srv.serverSocket.fd ≥ 0)
    (port : UInt16) : (srv.init port).run a k = .ok ((.internalErr, srv), k) := by
  have hm : RtspStatus.multiOperator ≠ .success := by decide
  rw [init, Routine.run_bind_ok (Socket.init_refused h)]
  simp only [if_pos hm, Routine.run_pure]

section Stages

variable {s₁ s₂ s₃ : Socket} {k₁ k₂ k₃ k₄ : Kernel} {st : RtspStatus}

theorem init_stops_at_socket (h₁ : srv.serverSocket.init.run a k = .ok ((st, s₁), k₁))
    (hst : st ≠ .success) :
    (srv.init port).run a k = .ok ((.internalErr, { srv with serverSocket := s₁ }), k₁) := by
  rw [init, Routine.run_bind_ok h₁]
  simp only [if_pos hst, Routine.run_pure]

theorem init_stops_at_flags (h₁ : srv.serverSocket.init.run a k = .ok ((.success, s₁), k₁))
    (h₂ : s₁.setNonBlock.run a k₁ = .ok (st, k₂)) (hst : st ≠ .success) :
    (srv.init port).run a k = .ok ((.internalErr, { srv with serverSocket := s₁ }), k₂) := by
  rw [init, Routine.run_bind_ok h₁]
  simp only [ne_eq, not_true_eq_false, if_false, Routine.run_bind, h₂, hst, not_false_eq_true,
    if_true, Routine.run_pure]

theorem init_stops_at_bind (h₁ : srv.serverSocket.init.run a k = .ok ((.success, s₁), k₁))
    (h₂ : s₁.setNonBlock.run a k₁ = .ok (.success, k₂))
    (h₃ : (s₁.bind allAddresses port).run a k₂ = .ok ((st, s₂), k₃)) (hst : st ≠ .success) :
    (srv.init port).run a k = .ok ((.internalErr, { srv with serverSocket := s₂ }), k₃) := by
  rw [init, Routine.run_bind_ok h₁]
  simp only [ne_eq, not_true_eq_false, if_false, Routine.run_bind, h₂, h₃, hst, not_false_eq_true,
    if_true, Routine.run_pure]

theorem init_stops_at_listen (h₁ : srv.serverSocket.init.run a k = .ok ((.success, s₁), k₁))
    (h₂ : s₁.setNonBlock.run a k₁ = .ok (.success, k₂))
    (h₃ : (s₁.bind allAddresses port).run a k₂ = .ok ((.success, s₂), k₃))
    (h₄ : (s₂.listen 10).run a k₃ = .ok ((st, s₃), k₄)) (hst : st ≠ .success) :
    (srv.init port).run a k = .ok ((.internalErr, { srv with serverSocket := s₃ }), k₄) := by
  rw [init, Routine.run_bind_ok h₁]
  simp only [ne_eq, not_true_eq_false, if_false, Routine.run_bind, h₂, h₃, h₄, hst,
    not_false_eq_true, if_true, Routine.run_pure]

theorem init_registers (h₁ : srv.serverSocket.init.run a k = .ok ((.success, s₁), k₁))
    (h₂ : s₁.setNonBlock.run a k₁ = .ok (.success, k₂))
    (h₃ : (s₁.bind allAddresses port).run a k₂ = .ok ((.success, s₂), k₃))
    (h₄ : (s₂.listen 10).run a k₃ = .ok ((.success, s₃), k₄)) :
    (srv.init port).run a k = .ok ((.success, { srv with
      serverSocket := s₃
      onConnectFunc := some .onConnect
      taskScheduler := srv.taskScheduler.registerTask s₃.fd (some .onConnectFunc)
      onReadFunc := some .onRead
      onDisconnectFunc := some .onDiconnect }), k₄) := by
  rw [init, Routine.run_bind_ok h₁]
  simp only [ne_eq, not_true_eq_false, if_false, Routine.run_bind, h₂, h₃, h₄, Routine.run_pure]

end Stages

def newSocket (a : Answers) : KernelSocket := ⟨.stream, .tcp, none, false, a.flags, []⟩

theorem fails_of_last (calls : List Call) {c : Call} (hfail : c.succeeded = false) :
    ∃ d ∈ calls ++ [c], ¬d.succeeded :=
  ⟨c, List.mem_append_right _ (List.mem_singleton_self c), by simp [hfail]⟩

theorem succeeded_snoc (calls : List Call) {c : Call} (hc : c.succeeded = true) :
    (∀ d ∈ calls ++ [c], d.succeeded) ↔ ∀ d ∈ calls, d.succeeded := by
  constructor
  · intro h d hd
    exact h d (List.mem_append_left _ hd)
  · intro h d hd
    rcases List.mem_append.1 hd with hd | hd
    · exact h d hd
    · rw [List.mem_singleton.1 hd, hc]

theorem entries_snoc {calls : List Call} {c : Call} (h : calls.filterMap Call.entry = [])
    (hc : c.entry = none) : (calls ++ [c]).filterMap Call.entry = [] := by
  rw [List.filterMap_append, h, List.nil_append, List.filterMap_cons, hc]
  rfl

section Outcome

variable {limit port : UInt16} {n : Int} {flags : FlagWord} {calls : List Call}
  {s₁ : Socket} {k₁ k₂ k₃ : Kernel}

theorem init_outcome_bound (hg : k.grant a.socket = n) (hn : 0 ≤ n) (hread : a.getfl = true)
    (hbind : a.bind = true)
    (h₁ : (createWith limit).serverSocket.init.run a k = .ok ((.success, s₁), k₁))
    (h₂ : s₁.setNonBlock.run a k₁ = .ok (.success, k₂))
    (h₃ : (s₁.bind allAddresses port).run a k₂ =
      .ok ((.success, ⟨.tcpSocket, n, .binded, false⟩), k₃))
    (htable : k₃.table = Function.update k.table n
      (some { newSocket a with flags, localAddr := some (Socket.anyAddr (a.portFor port)) }))
    (hlog : k₃.log = k.log ++ .socket .stream .tcp n :: calls)
    (hcalls : calls.filterMap Call.entry = [])
    (hreport : (∀ c ∈ calls, c.succeeded) ↔ a.SetsFlag a.flags)
    (hflags : a.SetsFlag a.flags → flags = a.flags.nonblocking) :
    ∃ st srv k', ((createWith limit).init port).run a k = .ok ((st, srv), k') ∧
      InitOutcome limit port a k st srv k' := by
  have hf := Kernel.table_of_update htable
  cases hlisten : a.listen with
  | false =>
    have hl : ¬((k₃.table n).isSome ∧ a.listen) := by simp [hlisten]
    have h₄ := Socket.listen_failed (s := ⟨.tcpSocket, n, .binded, false⟩) rfl rfl hl 10
    have hno : ¬(a.getfl ∧ a.bind ∧ a.listen) := by simp [hlisten]
    have hlog' : (k₃.record (.listen n 10 (-1))).log =
        k.log ++ .socket .stream .tcp n :: (calls ++ [.listen n 10 (-1)]) := by
      rw [Kernel.record_log, hlog, List.append_assoc, List.cons_append]
    exact ⟨_, _, _, init_stops_at_listen h₁ h₂ h₃ h₄ (by decide),
      .stopped hg hn hno ⟨rfl, .inr rfl⟩ (.opened hf ⟨rfl, rfl⟩) hlog'
        (entries_snoc hcalls rfl) (fails_of_last calls rfl)⟩
  | true =>
    have hl : (k₃.table n).isSome ∧ a.listen := by simp [hf, hlisten]
    have h₄ := Socket.listen_ok (s := ⟨.tcpSocket, n, .binded, false⟩) rfl rfl hl 10
    let k₄ := (k₃.modify n ({ · with listening := true })).record (.listen n 10 0)
    have htable' : k₄.table = Function.update k.table n
        (some ⟨.stream, .tcp, some (Socket.anyAddr (a.portFor port)), true, flags, []⟩) := by
      rw [Kernel.record_table, Kernel.modify_table, hf, htable, Function.update_idem]
      rfl
    have hlog' : k₄.log = k.log ++ .socket .stream .tcp n :: (calls ++ [.listen n 10 0]) := by
      rw [Kernel.record_log, Kernel.modify_log, hlog, List.append_assoc, List.cons_append]
    exact ⟨_, _, _, init_registers h₁ h₂ h₃ h₄, .listening hg hn ⟨hread, hbind, hlisten⟩ htable'
      hlog' (entries_snoc hcalls rfl) ((succeeded_snoc calls rfl).trans hreport) hflags⟩

theorem init_outcome_opened (hg : k.grant a.socket = n) (hn : 0 ≤ n)
    (h₁ : (createWith limit).serverSocket.init.run a k =
      .ok ((.success, ⟨.tcpSocket, n, .created, false⟩),
        (k.install n (newSocket a)).record (.socket .stream .tcp n))) :
    ∃ st srv k', ((createWith limit).init port).run a k = .ok ((st, srv), k') ∧
      InitOutcome limit port a k st srv k' := by
  let k₁ := (k.install n (newSocket a)).record (.socket .stream .tcp n)
  have ht₁ : k₁.table = Function.update k.table n (some (newSocket a)) := by
    rw [Kernel.record_table, Kernel.install_table k hn]
  have hf₁ : k₁.table n = some (newSocket a) := Kernel.table_of_update ht₁
  have hl₁ : k₁.log = k.log ++ [.socket .stream .tcp n] := rfl
  have hs₁ : ¬SocketStat.created < .created := by decide
  cases hread : a.getfl with
  | false =>
    have h₂ := Socket.setNonBlock_unread (s := ⟨.tcpSocket, n, .created, false⟩) (k := k₁) hs₁ hread
    have hno : ¬(a.getfl ∧ a.bind ∧ a.listen) := by simp [hread]
    have hlog : (k₁.record (.fcntlGetfl n (-1))).log =
        k.log ++ .socket .stream .tcp n :: ([] ++ [.fcntlGetfl n (-1)]) := by
      rw [Kernel.record_log, hl₁, List.append_assoc, List.singleton_append, List.nil_append]
    exact ⟨_, _, _, init_stops_at_flags h₁ h₂ (by decide),
      .stopped hg hn hno ⟨rfl, .inl rfl⟩ (.opened hf₁ ⟨rfl, rfl, rfl⟩) hlog rfl
        (fails_of_last [] rfl)⟩
  | true =>
    obtain ⟨flags, calls, k₂, h₂, ht₂, hl₂, he₂, hreport, hflags⟩ :=
      Socket.setNonBlock_read (s := ⟨.tcpSocket, n, .created, false⟩) hs₁ hf₁ hread
    rw [ht₁, Function.update_idem] at ht₂
    rw [hl₁, List.append_assoc, List.singleton_append] at hl₂
    have hf₂ := Kernel.table_of_update ht₂
    cases hbind : a.bind with
    | false =>
      have hb : ¬((k₂.table n).isSome ∧ a.bind) := by simp [hbind]
      have h₃ := Socket.bind_failed (s := ⟨.tcpSocket, n, .created, false⟩) rfl hb allAddresses port
      have hno : ¬(a.getfl ∧ a.bind ∧ a.listen) := by simp [hbind]
      have hlog : (k₂.record (.bind n (Socket.anyAddr port) (-1))).log =
          k.log ++ .socket .stream .tcp n :: (calls ++ [.bind n (Socket.anyAddr port) (-1)]) := by
        rw [Kernel.record_log, hl₂, List.append_assoc, List.cons_append]
      exact ⟨_, _, _, init_stops_at_bind h₁ h₂ h₃ (by decide),
        .stopped hg hn hno ⟨rfl, .inl rfl⟩ (.opened hf₂ ⟨rfl, rfl, rfl⟩) hlog
          (entries_snoc he₂ rfl) (fails_of_last calls rfl)⟩
    | true =>
      have hb : (k₂.table n).isSome ∧ a.bind := by simp [hf₂, hbind]
      have h₃ := Socket.bind_ok (s := ⟨.tcpSocket, n, .created, false⟩) rfl hb allAddresses port
      let addr := Socket.anyAddr (a.portFor port)
      let k₃ := (k₂.modify n ({ · with localAddr := some addr })).record
        (.bind n (Socket.anyAddr port) 0)
      have htable : k₃.table = Function.update k.table n
          (some { newSocket a with flags, localAddr := some addr }) := by
        rw [Kernel.record_table, Kernel.modify_table, hf₂, ht₂, Function.update_idem]
        rfl
      have hlog : k₃.log =
          k.log ++ .socket .stream .tcp n :: (calls ++ [.bind n (Socket.anyAddr port) 0]) := by
        rw [Kernel.record_log, Kernel.modify_log, hl₂, List.append_assoc, List.cons_append]
      exact init_outcome_bound hg hn hread hbind h₁ h₂ h₃ htable hlog (entries_snoc he₂ rfl)
        ((succeeded_snoc calls rfl).trans hreport) hflags

end Outcome

theorem init_outcome (limit port : UInt16) (a : Answers) (k : Kernel) :
    ∃ st srv k', ((createWith limit).init port).run a k = .ok ((st, srv), k') ∧
      InitOutcome limit port a k st srv k' := by
  have hneg : (createWith limit).serverSocket.fd < 0 := (by decide : (-1 : Int) < 0)
  rcases k.grant_cases a.socket with hg | ⟨hn, hfree⟩
  · have h₁ := Socket.init_failed (s := (createWith limit).serverSocket) rfl hneg hg
    exact ⟨_, _, _, init_stops_at_socket h₁ (by decide), .noSocket hg⟩
  · exact init_outcome_opened rfl hn (Socket.init_created rfl hneg rfl hn)

end TcpServer

end Gortsp
