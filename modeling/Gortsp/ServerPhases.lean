import Gortsp.ServerInit

namespace Gortsp
set_option autoImplicit true

namespace TcpServer

def connRegistration (m : Int) : Registration EventCb IOEventCb :=
  .io m (some .onReadFunc) none (some .onDisconnectFunc)

/-- The server after its first readiness event, to which `::accept` answered `m`. -/
def accepted (limit : UInt16) (n m : Int) : TcpServer :=
  { listening limit n with
    serverSocket := ⟨.tcpSocket, n, .accepting, false⟩
    connections := AList.insert m (TcpConnection.ofAccept m) ∅
    taskScheduler := ⟨limit.toNat + 1, registered [listenRegistration n, connRegistration m]⟩ }

def acceptedSocket (f : KernelSocket) (a : Answers) : KernelSocket :=
  ⟨.stream, .tcp, f.localAddr, false, a.flags, []⟩

variable {srv : TcpServer} {k k' : Kernel} {a : Answers} {n m : Int}

theorem onConnect_listening (limit : UInt16) (hf : k.table n = some f) (hl : f.listening = true)
    (hm : k.grant a.accept = m) (fd : Int) (mask : Int16) :
    ∃ k', ((listening limit n).onConnect fd mask).run a k =
        .ok ((.success, accepted limit n m), k') ∧
      ((k.install m (acceptedSocket f a)).record (.accept n m)).Steady k' := by
  let k₁ := (k.install m (acceptedSocket f a)).record (.accept n m)
  have haccept : ((listening limit n).serverSocket.accept (some .create)).run a k =
      .ok ((.success, ⟨.tcpSocket, n, .accepting, false⟩, some (TcpConnection.ofAccept m)), k₁) :=
    Socket.accept_given rfl rfl rfl (Sys.accept_ok hf hl hm)
  obtain ⟨st, k', hsend, hk⟩ := (Socket.createFromAccept m).send_steady welcome a k₁
  have hsend' : ((TcpConnection.ofAccept m).send welcome).run a k₁ = .ok (st, k') := hsend
  have habsent : decide ((TcpConnection.ofAccept m).fd ∈ (listening limit n).connections) =
      false := rfl
  refine ⟨k', ?_, hk⟩
  rw [onConnect, Routine.run_bind_ok haccept]
  simp only [Routine.deref_some, Routine.run_bind, Routine.run_pure, hsend', habsent,
    Bool.false_eq_true, if_false]
  rfl

/-- An answer of the listening socket that is not taken leaves `conn` without a socket, and the
welcome is sent through a null pointer. -/
theorem onConnect_faults (h : srv.serverSocket.stat ≠ .listened) (fd : Int) (mask : Int16) :
    (srv.onConnect fd mask).run a k = .error .nullDeref := by
  rw [onConnect, Routine.run_bind_ok (Socket.accept_refused (.inr h))]
  rfl

theorem fire_nothing
    (h : srv.taskScheduler.evtHandler.fire f = .ok (srv.taskScheduler.evtHandler, [])) :
    (srv.fire f).run a k = .ok (srv, k) := by
  rw [fire, h]
  rfl

theorem fire_fault (h : srv.taskScheduler.evtHandler.fire f = .error e) :
    (srv.fire f).run a k = .error e := by
  rw [fire, h]
  rfl

theorem fire_call
    (h : srv.taskScheduler.evtHandler.fire f = .ok (srv.taskScheduler.evtHandler, [call])) :
    (srv.fire f).run a k = ((srv.invoke call).run a k).map fun r => (r.1.2, r.2) := by
  rw [fire, h]
  simp only [Routine.run_bind, Routine.run_lift_ok, List.foldlM_cons, List.foldlM_nil,
    Routine.run_pure]
  cases (srv.invoke call).run a k <;> rfl

theorem listenRegistration_honours (n : Int) (f : Firing) : (listenRegistration n).Honours f := by
  cases f with
  | event fd mask => exact fun _ => Option.some_ne_none _
  | read fd bytes => trivial
  | write fd => trivial
  | error fd what => trivial

theorem listenRegistration_route (h : ∀ mask, f ≠ .event n mask) :
    (listenRegistration n).route f = none := by
  cases f with
  | event fd mask =>
    apply if_neg
    intro he
    exact h mask (congrArg (Firing.event · mask) he)
  | read fd bytes => rfl
  | write fd => rfl
  | error fd what => rfl

theorem listening_nodup (n : Int) : ([listenRegistration n].map Registration.fd).Nodup :=
  List.nodup_singleton n

theorem fire_listening_idle (h : ∀ mask, f ≠ .event n mask) :
    ((listening limit n).fire f).run a k = .ok (listening limit n, k) := by
  apply fire_nothing
  apply fire_unrouted (listening_nodup n)
  · intro r hr
    rw [List.mem_singleton.1 hr]
    exact listenRegistration_honours n f
  · intro r hr
    rw [List.mem_singleton.1 hr]
    exact listenRegistration_route h

theorem fire_listening_connect (limit : UInt16) (hf : k.table n = some f)
    (hl : f.listening = true) (hm : k.grant a.accept = m) (mask : Int16) :
    ∃ k', ((listening limit n).fire (.event n mask)).run a k = .ok (accepted limit n m, k') ∧
      ((k.install m (acceptedSocket f a)).record (.accept n m)).Steady k' := by
  obtain ⟨k', hrun, hk⟩ := onConnect_listening limit hf hl hm n mask
  have hinvoke : ((listening limit n).invoke (.event .onConnectFunc n mask)).run a k =
      .ok ((.success, accepted limit n m), k') := hrun
  refine ⟨k', ?_, hk⟩
  rw [fire_call (fire_event (listening_nodup n) (List.mem_singleton_self _) mask), hinvoke]
  rfl

theorem accepted_nodup (hne : m ≠ n) :
    ([listenRegistration n, connRegistration m].map Registration.fd).Nodup := by
  apply List.nodup_cons.2
  constructor
  · intro h
    exact hne (List.mem_singleton.1 h).symm
  · exact List.nodup_singleton m

theorem fire_accepted_event (hne : m ≠ n) (mask : Int16) :
    ((accepted limit n m).fire (.event n mask)).run a k = .error .nullDeref := by
  have hstat : (accepted limit n m).serverSocket.stat ≠ .listened :=
    (by decide : SocketStat.accepting ≠ .listened)
  have hfault : ((accepted limit n m).invoke (.event .onConnectFunc n mask)).run a k =
      .error .nullDeref := onConnect_faults hstat n mask
  rw [fire_call (fire_event (accepted_nodup hne) List.mem_cons_self mask), hfault]
  rfl

theorem fire_accepted_ready (hf : (∃ bytes, f = .read m bytes) ∨ ∃ what, f = .error m what) :
    ((accepted limit n m).fire f).run a k = .error .nullDeref := by
  have hmem : connRegistration m ∈ [listenRegistration n, connRegistration m] :=
    List.mem_cons_of_mem _ (List.mem_singleton_self _)
  apply fire_fault
  rcases hf with ⟨bytes, rfl⟩ | ⟨what, rfl⟩
  · exact fireBufferevent_installed hmem fun _ _ _ => rfl
  · exact fireBufferevent_installed hmem fun _ _ _ => rfl

theorem connRegistration_honours
    (h : ¬((∃ bytes, f = .read m bytes) ∨ ∃ what, f = .error m what)) :
    (connRegistration m).Honours f := by
  cases f with
  | event fd mask => trivial
  | read fd bytes => exact fun he => h (.inl ⟨bytes, congrArg (Firing.read · bytes) he⟩)
  | write fd => exact fun _ => rfl
  | error fd what => exact fun he => h (.inr ⟨what, congrArg (Firing.error · what) he⟩)

theorem connRegistration_route
    (h : ¬((∃ bytes, f = .read m bytes) ∨ ∃ what, f = .error m what)) :
    (connRegistration m).route f = none := by
  cases f with
  | event fd mask => rfl
  | read fd bytes => exact if_neg fun he => h (.inl ⟨bytes, congrArg (Firing.read · bytes) he⟩)
  | write fd => exact ite_self none
  | error fd what => exact if_neg fun he => h (.inr ⟨what, congrArg (Firing.error · what) he⟩)

theorem fire_accepted_idle (hne : m ≠ n) (he : ∀ mask, f ≠ .event n mask)
    (hf : ¬((∃ bytes, f = .read m bytes) ∨ ∃ what, f = .error m what)) :
    ((accepted limit n m).fire f).run a k = .ok (accepted limit n m, k) := by
  apply fire_nothing
  apply fire_unrouted (accepted_nodup hne)
  · intro r hr
    rcases List.mem_cons.1 hr with hr | hr
    · rw [hr]
      exact listenRegistration_honours n f
    · rw [List.mem_singleton.1 hr]
      exact connRegistration_honours hf
  · intro r hr
    rcases List.mem_cons.1 hr with hr | hr
    · rw [hr]
      exact listenRegistration_route he
    · rw [List.mem_singleton.1 hr]
      exact connRegistration_route hf

/-- A server that has accepted never changes again. -/
theorem step_accepted (hne : m ≠ n) (h : step (accepted limit n m, k) i = .ok (srv, k')) :
    srv = accepted limit n m ∧ k' = k := by
  obtain ⟨input, a⟩ := i
  cases input with
  | init port =>
    have hbusy : (accepted limit n m).serverSocket.stat > .uninitialized ∨
        (accepted limit n m).serverSocket.fd ≥ 0 :=
      .inl (by decide : SocketStat.accepting > .uninitialized)
    simp only [step, init_busy hbusy] at h
    cases h
    exact ⟨rfl, rfl⟩
  | fire f =>
    rcases f.event_or_ne n with ⟨mask, rfl⟩ | he
    · simp only [step, fire_accepted_event hne] at h
      cases h
    · by_cases hf : (∃ bytes, f = .read m bytes) ∨ ∃ what, f = .error m what
      · simp only [step, fire_accepted_ready hf] at h
        cases h
      · simp only [step, fire_accepted_idle hne he hf] at h
        cases h
        exact ⟨rfl, rfl⟩

/-- How far a server has got. `held` are the descriptors it has to give back, and `conns` those
that `::accept` returned to it. -/
inductive Phase (limit : UInt16) : Finset Int → List Int → TcpServer → Kernel → Prop where
  | starting {k : Kernel} {s : Socket} {held : Finset Int} (ht : s.Tracks k held)
      (htcp : s.type = .tcpSocket)
      (hstat : s.stat = .uninitialized ∨ s.stat = .created ∨ s.stat = .binded) :
      Phase limit held [] (withSocket limit s) k
  | listening {k : Kernel} {n : Int} {f : KernelSocket} (hf : k.table n = some f)
      (hl : f.listening = true) : Phase limit {n} [] (listening limit n) k
  | refused {k : Kernel} {n : Int} {f : KernelSocket} (hf : k.table n = some f)
      (hl : f.listening = true) : Phase limit {n} [] (accepted limit n (-1)) k
  | connected {k : Kernel} {n m : Int} {f : KernelSocket} (hf : k.table n = some f)
      (hl : f.listening = true) (hm : (k.table m).isSome) (hne : m ≠ n) :
      Phase limit {m, n} [m] (accepted limit n m) k

def Continues (limit : UInt16) (held : Finset Int) (conns : List Int) (k : Kernel)
    (srv : TcpServer) (k' : Kernel) : Prop :=
  ∃ held' calls, k'.log = k.log ++ calls ∧
    Ledger.settle held (calls.filterMap Call.entry) = some held' ∧
    Phase limit held' (conns ++ calls.filterMap Call.connection) srv k'

theorem Phase.unchanged (h : Phase limit held conns srv k) :
    Continues limit held conns k srv k :=
  ⟨held, [], (List.append_nil _).symm, rfl, by rwa [List.filterMap_nil, List.append_nil]⟩

theorem settle_opened (hn : 0 ≤ n) {calls : List Call} (h : calls.filterMap Call.entry = []) :
    Ledger.settle ∅ ((Call.socket .stream .tcp n :: calls).filterMap Call.entry) = some {n} := by
  have hentry : (Call.socket .stream .tcp n).entry = some (.acquire n) := if_pos hn
  rw [List.filterMap_cons, hentry, h, Ledger.settle, if_neg (Finset.notMem_empty n)]
  rfl

theorem connections_of_entries {calls : List Call} (h : calls.filterMap Call.entry = []) :
    calls.filterMap Call.connection = [] := by
  apply List.filterMap_eq_nil_iff.2
  intro c hc
  exact Call.connection_of_entry (List.filterMap_eq_nil_iff.1 h c hc)

theorem connections_opened {calls : List Call} (h : calls.filterMap Call.entry = []) :
    [] ++ (Call.socket .stream .tcp n :: calls).filterMap Call.connection = [] := by
  rw [List.nil_append, List.filterMap_cons]
  exact connections_of_entries h

theorem step_starting {s : Socket} (ht : s.Tracks k held) (htcp : s.type = .tcpSocket)
    (hstat : s.stat = .uninitialized ∨ s.stat = .created ∨ s.stat = .binded)
    (h : step (withSocket limit s, k) i = .ok (srv, k')) :
    Continues limit held [] k srv k' := by
  have hphase : Phase limit held [] (withSocket limit s) k := .starting ht htcp hstat
  obtain ⟨input, a⟩ := i
  cases input with
  | fire f =>
    have hbase : (registered ([] : List (Registration EventCb IOEventCb))).fire f =
        .ok (registered [], []) := fire_elsewhere fun r hr => absurd hr List.not_mem_nil
    have hidle : ((withSocket limit s).fire f).run a k = .ok (withSocket limit s, k) :=
      fire_nothing hbase
    simp only [step, hidle] at h
    cases h
    exact hphase.unchanged
  | init port =>
    cases ht with
    | @opened t n stat f hf hd =>
      have hbusy : (withSocket limit ⟨t, n, stat, false⟩).serverSocket.stat > .uninitialized ∨
          (withSocket limit ⟨t, n, stat, false⟩).serverSocket.fd ≥ 0 :=
        .inr (k.nonneg_of_table hf)
      simp only [step, init_busy hbusy] at h
      cases h
      exact hphase.unchanged
    | closed t =>
      cases htcp
      obtain ⟨st, srv', k'', hrun, hout⟩ := init_outcome limit port a k
      have hrun' : ((withSocket limit ⟨.tcpSocket, -1, .uninitialized, false⟩).init port).run a k =
        .ok ((st, srv'), k'') := hrun
      simp only [step, hrun'] at h
      cases h
      cases hout with
      | noSocket hg => exact ⟨∅, _, rfl, rfl, .starting (.closed _) rfl (.inl rfl)⟩
      | @stopped n s calls k' hg hn hno hs ht hlog hcalls hfail =>
        exact ⟨{n}, _, hlog, settle_opened hn hcalls, by
          rw [connections_opened hcalls]
          exact .starting ht hs.1 (.inr hs.2)⟩
      | @listening n flags calls k' hg hn hok htable hlog hcalls hreport hflags =>
        have hf := Kernel.table_of_update htable
        exact ⟨{n}, _, hlog, settle_opened hn hcalls, by
          rw [connections_opened hcalls]
          exact .listening hf rfl⟩

theorem continues_accept (hf : k.table n = some f) (hl : f.listening = true)
    (hm : k.grant a.accept = m)
    (hk : ((k.install m (acceptedSocket f a)).record (.accept n m)).Steady k') :
    Continues limit {n} [] k (accepted limit n m) k' := by
  obtain ⟨cs, hcs, hentries⟩ := hk.calls
  have hconns := connections_of_entries hentries
  have hlog : k'.log = k.log ++ .accept n m :: cs := by
    rw [hcs, Kernel.record_log, Kernel.install_log, List.append_assoc, List.singleton_append]
  rcases k.grant_cases a.accept with hg | ⟨h₀, hfree⟩
  · cases hm.symm.trans hg
    have hentry : (Call.accept n (-1)).entry = none := rfl
    have hconn : (Call.accept n (-1)).connection = none := rfl
    obtain ⟨f', hf', hl'⟩ := hk.listening hf hl
    refine ⟨{n}, _, hlog, ?_, ?_⟩
    · rw [List.filterMap_cons, hentry, hentries]
      rfl
    · rw [List.filterMap_cons, hconn, hconns]
      exact .refused hf' hl'
  · rw [hm] at h₀ hfree
    have hne : m ≠ n := Kernel.ne_of_free hf hfree
    have hentry : (Call.accept n m).entry = some (.acquire m) := if_pos h₀
    have hconn : (Call.accept n m).connection = some m := if_pos h₀
    have hfn : ((k.install m (acceptedSocket f a)).record (.accept n m)).table n = some f := by
      rw [Kernel.record_table, Kernel.install_table_of_ne _ _ (Ne.symm hne), hf]
    have hfm : ((k.install m (acceptedSocket f a)).record (.accept n m)).table m =
        some (acceptedSocket f a) := by
      rw [Kernel.record_table, Kernel.install_self k h₀]
    obtain ⟨f', hf', hl'⟩ := hk.listening hfn hl
    obtain ⟨g, hg, -⟩ := hk.table hfm
    refine ⟨{m, n}, _, hlog, ?_, ?_⟩
    · rw [List.filterMap_cons, hentry, hentries, Ledger.settle,
        if_neg (Finset.notMem_singleton.2 hne)]
      rfl
    · rw [List.filterMap_cons, hconn, hconns]
      exact .connected hf' hl' (Option.isSome_of_eq_some hg) hne

theorem step_listening (hf : k.table n = some f) (hl : f.listening = true)
    (h : step (listening limit n, k) i = .ok (srv, k')) : Continues limit {n} [] k srv k' := by
  have hphase : Phase limit {n} [] (listening limit n) k := .listening hf hl
  obtain ⟨input, a⟩ := i
  cases input with
  | init port =>
    have hbusy : (listening limit n).serverSocket.stat > .uninitialized ∨
        (listening limit n).serverSocket.fd ≥ 0 := .inr (k.nonneg_of_table hf)
    simp only [step, init_busy hbusy] at h
    cases h
    exact hphase.unchanged
  | fire g =>
    rcases g.event_or_ne n with ⟨mask, rfl⟩ | he
    · obtain ⟨k'', hrun, hk⟩ := fire_listening_connect limit hf hl (m := k.grant a.accept) rfl mask
      simp only [step, hrun] at h
      cases h
      exact continues_accept hf hl rfl hk
    · simp only [step, fire_listening_idle he] at h
      cases h
      exact hphase.unchanged

theorem Phase.step (hp : Phase limit held conns srv k) (h : step (srv, k) i = .ok (srv', k')) :
    Continues limit held conns k srv' k' := by
  cases hp with
  | starting ht htcp hstat => exact step_starting ht htcp hstat h
  | listening hf hl => exact step_listening hf hl h
  | @refused k n f hf hl =>
    have hn := k.nonneg_of_table hf
    have hne : -1 ≠ n := by omega
    obtain ⟨rfl, rfl⟩ := step_accepted hne h
    exact (Phase.refused hf hl).unchanged
  | connected hf hl hm hne =>
    obtain ⟨rfl, rfl⟩ := step_accepted hne h
    exact (Phase.connected hf hl hm hne).unchanged

theorem phase_create (limit : UInt16) (k : Kernel) : Phase limit ∅ [] (createWith limit) k :=
  .starting (.closed .tcpSocket) rfl (.inl rfl)

theorem phase_of_reachable (h : Machine.Reachable step (createWith limit, k₀) (srv, k)) :
    ∃ held conns, Phase limit held conns srv k := by
  apply h.invariant (I := fun st => ∃ held conns, Phase limit held conns st.1 st.2)
  · exact ⟨∅, [], phase_create limit k₀⟩
  · intro st i st' hst hstep
    obtain ⟨held, conns, hp⟩ := hst
    obtain ⟨held', calls, -, -, hp'⟩ := hp.step hstep
    exact ⟨held', _, hp'⟩

def Accounted (limit : UInt16) (srv : TcpServer) (k : Kernel) : Prop :=
  ∃ held, Ledger.settle ∅ (k.log.filterMap Call.entry) = some held ∧
    Phase limit held (k.log.filterMap Call.connection) srv k

theorem Accounted.step (ha : Accounted limit srv k) (h : step (srv, k) i = .ok (srv', k')) :
    Accounted limit srv' k' := by
  obtain ⟨held, hsettle, hp⟩ := ha
  obtain ⟨held', calls, hlog, hcalls, hp'⟩ := hp.step h
  refine ⟨held', ?_, ?_⟩
  · rw [hlog, List.filterMap_append, Ledger.settle_append, hsettle, Option.bind_some, hcalls]
  · rw [hlog, List.filterMap_append]
    exact hp'

theorem accounted_of_run (hlog : k₀.log = [])
    (h : Machine.run step (createWith limit, k₀) is = .ok (srv, k)) : Accounted limit srv k := by
  apply Machine.run_invariant (I := fun st => Accounted limit st.1 st.2) _ _ h
  · intro st i st' hst hstep
    exact hst.step hstep
  · refine ⟨∅, ?_, ?_⟩
    · rw [hlog]
      rfl
    · rw [hlog]
      exact phase_create limit k₀

theorem step_init {st : RtspStatus} (h : (srv.init port).run a k = .ok ((st, srv'), k')) :
    step (srv, k) (.init port, a) = .ok (srv', k') := by
  simp only [step, h]
  rfl

theorem not_success_of_busy
    (hbusy : srv.serverSocket.stat > .uninitialized ∨ srv.serverSocket.fd ≥ 0) :
    (srv.init port).run a k ≠ .ok ((.success, srv'), k') := by
  rw [init_busy hbusy]
  intro h
  cases h

theorem init_success (hp : Phase limit held conns srv k)
    (h : (srv.init port).run a k = .ok ((.success, srv'), k')) :
    ∃ n f, srv' = listening limit n ∧ k'.table n = some f ∧ f.listening = true := by
  cases hp with
  | @starting k s held ht htcp hstat =>
    cases ht with
    | opened hf hd => exact absurd h (not_success_of_busy (.inr (k.nonneg_of_table hf)))
    | closed t =>
      cases htcp
      obtain ⟨st, srv'', k'', hrun, hout⟩ := init_outcome limit port a k
      have hsame := h.symm.trans hrun
      cases hsame
      cases hout with
      | @listening n flags calls k' hg hn hok htable hlog hcalls hreport hflags =>
        have hf := Kernel.table_of_update htable
        exact ⟨n, _, rfl, hf, rfl⟩
  | listening hf hl => exact absurd h (not_success_of_busy (.inr (k.nonneg_of_table hf)))
  | refused hf hl => exact absurd h (not_success_of_busy (.inr (k.nonneg_of_table hf)))
  | connected hf hl hm hne => exact absurd h (not_success_of_busy (.inr (k.nonneg_of_table hf)))

def startAnswers : Answers :=
  { socket := some 3, getfl := true, setfl := true, bind := true, listen := true }

theorem exists_started (limit : UInt16) : ∃ k,
    ((createWith limit).init 8080).run startAnswers .boot =
      .ok ((.success, listening limit 3), k) ∧
    (∃ f, k.table 3 = some f ∧ f.listening = true) ∧ ∀ m, m ≠ 3 → k.table m = none := by
  have hgrant : Kernel.boot.grant startAnswers.socket = 3 := rfl
  obtain ⟨st, srv, k, hrun, hout⟩ := init_outcome limit 8080 startAnswers .boot
  cases hout with
  | noSocket hg => cases hgrant.symm.trans hg
  | stopped hg hn hno => exact absurd ⟨rfl, rfl, rfl⟩ hno
  | @listening n flags calls k hg hn hok htable =>
    obtain rfl : 3 = n := hgrant.symm.trans hg
    have hf := Kernel.table_of_update htable
    refine ⟨k, hrun, ⟨_, hf, rfl⟩, fun m hm => ?_⟩
    rw [htable, Function.update_of_ne hm]
    rfl

end TcpServer

end Gortsp
