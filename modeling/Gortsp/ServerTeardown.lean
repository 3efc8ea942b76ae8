import Gortsp.ServerPhases

namespace Gortsp
set_option autoImplicit true

/-- Every descriptor that `::accept` returned was closed as often as it was handed out, and no
close was issued on a descriptor already given back. -/
structure ClosedExactlyOnce (log : List Call) : Prop where
  once : ∀ fd ∈ log.filterMap Call.connection,
    (log.filterMap Call.entry).count (.release fd) = (log.filterMap Call.entry).count (.acquire fd)
  held : (Ledger.settle ∅ (log.filterMap Call.entry)).isSome

def Kernel.closing (k : Kernel) (fd : Int) : Kernel := (k.release fd).record (.close fd)

@[simp] theorem Kernel.closing_log (k : Kernel) (fd : Int) :
    (k.closing fd).log = k.log ++ [.close fd] := rfl

namespace TcpServer

variable {srv : TcpServer} {k k' : Kernel} {a : Answers} {n m : Int}

theorem destroy_immediately
    (hfree : srv.taskScheduler.evtHandler.closeFreed.run a k = .ok ((), k₁))
    (hconns : (srv.connections.entries.forM fun entry => entry.2.destroy).run a k₁ = .ok ((), k₂))
    (hsocket : srv.serverSocket.destroy.run a k₂ = .ok ((), k₃)) :
    (srv.destroy .immediately).run a k = .ok ((), k₃) := by
  rw [destroy, if_pos rfl, Routine.run_bind_ok hfree, Routine.run_bind_ok hconns,
    Routine.run_bind_ok hsocket]
  rfl

theorem destroy_atFinalisation
    (hconns : (srv.connections.entries.forM fun entry => entry.2.destroy).run a k = .ok ((), k₁))
    (hsocket : srv.serverSocket.destroy.run a k₁ = .ok ((), k₂))
    (hfree : srv.taskScheduler.evtHandler.closeFreed.run a k₂ = .ok ((), k₃)) :
    (srv.destroy .atFinalisation).run a k = .ok ((), k₃) := by
  rw [destroy, if_neg (by decide), Routine.run_bind_ok hconns, Routine.run_bind_ok hsocket,
    if_pos rfl, hfree]

theorem destroy_alone (hbase : srv.taskScheduler.evtHandler.bufferEvents = [])
    (hconns : srv.connections = ∅) (h : srv.serverSocket.destroy.run a k = .ok ((), k'))
    (timing : CloseTiming) : (srv.destroy timing).run a k = .ok ((), k') := by
  have hfree (k : Kernel) : srv.taskScheduler.evtHandler.closeFreed.run a k = .ok ((), k) := by
    rw [EventBase.closeFreed, hbase]
    rfl
  have hnone : (srv.connections.entries.forM fun entry => entry.2.destroy).run a k =
      .ok ((), k) := by
    rw [hconns]
    rfl
  cases timing with
  | immediately => exact destroy_immediately (hfree k) hnone h
  | atFinalisation => exact destroy_atFinalisation hnone h (hfree k')

theorem destroy_connections (h : (TcpConnection.ofAccept m).destroy.run a k = .ok ((), k')) :
    ((accepted limit n m).connections.entries.forM fun entry => entry.2.destroy).run a k =
      .ok ((), k') := by
  have hentries : (accepted limit n m).connections.entries = [⟨m, TcpConnection.ofAccept m⟩] := rfl
  rw [hentries, List.forM_eq_forM, List.forM_cons, Routine.run_bind_ok h]
  rfl

theorem closeFreed_accepted (limit : UInt16) (n : Int) (hm : 0 ≤ m) (k : Kernel) :
    (accepted limit n m).taskScheduler.evtHandler.closeFreed.run a k = .ok ((), k.closing m) := by
  have hbase : (accepted limit n m).taskScheduler.evtHandler.bufferEvents =
      [.new m (some .onReadFunc) none (some .onDisconnectFunc)] := rfl
  have hfree : (BufferEvent.new m (some IOEventCb.onReadFunc) none
      (some EventCb.onDisconnectFunc)).ptr.free.run a k = .ok ((), k.closing m) := by
    have hcond : (BufferEvent.new m (some IOEventCb.onReadFunc) none
        (some EventCb.onDisconnectFunc)).ptr.closeOnFree ∧
          (BufferEvent.new m (some IOEventCb.onReadFunc) none
            (some EventCb.onDisconnectFunc)).ptr.fd ≥ 0 := ⟨rfl, hm⟩
    rw [Bufferevent.free, if_pos hcond]
    rfl
  rw [EventBase.closeFreed, hbase, List.forM_eq_forM, List.forM_cons, Routine.run_bind_ok hfree]
  rfl

/-- Both owners of the accepted descriptor close it. -/
theorem destroy_connected (limit : UInt16) (hn : 0 ≤ n) (hm : 0 ≤ m) (timing : CloseTiming) :
    ∃ k' calls, ((accepted limit n m).destroy timing).run a k = .ok ((), k') ∧
      k'.log = k.log ++ calls ∧ calls.Perm [.close m, .close m, .close n] := by
  have hone (k : Kernel) : (TcpConnection.ofAccept m).destroy.run a k = .ok ((), k.closing m) :=
    TcpConnection.destroy_open (s := Socket.createFromAccept m) rfl hm
  have hconn (k : Kernel) : ((accepted limit n m).connections.entries.forM
      fun entry => entry.2.destroy).run a k = .ok ((), k.closing m) := destroy_connections (hone k)
  have hsocket (k : Kernel) : (accepted limit n m).serverSocket.destroy.run a k =
      .ok ((), k.closing n) := Socket.destroy_open hn
  cases timing with
  | immediately =>
    refine ⟨_, [.close m, .close m, .close n],
      destroy_immediately (closeFreed_accepted limit n hm k) (hconn _) (hsocket _), ?_, .refl _⟩
    simp
  | atFinalisation =>
    refine ⟨_, [.close m, .close n, .close m],
      destroy_atFinalisation (hconn k) (hsocket _) (closeFreed_accepted limit n hm _), ?_, ?_⟩
    · simp
    · exact (List.Perm.swap _ _ _).cons _

theorem destroy_refused (limit : UInt16) (hn : 0 ≤ n) (timing : CloseTiming) :
    ((accepted limit n (-1)).destroy timing).run a k = .ok ((), k.closing n) := by
  have hone (k : Kernel) : (TcpConnection.ofAccept (-1)).destroy.run a k = .ok ((), k) := rfl
  have hfree (k : Kernel) : (accepted limit n (-1)).taskScheduler.evtHandler.closeFreed.run a k =
      .ok ((), k) := rfl
  have hsocket (k : Kernel) : (accepted limit n (-1)).serverSocket.destroy.run a k =
      .ok ((), k.closing n) := Socket.destroy_open hn
  cases timing with
  | immediately => exact destroy_immediately (hfree k) (destroy_connections (hone k)) (hsocket k)
  | atFinalisation =>
    exact destroy_atFinalisation (destroy_connections (hone k)) (hsocket k) (hfree _)

theorem closedExactlyOnce_of_settle {log : List Call}
    (hconns : log.filterMap Call.connection = [])
    (hsettle : Ledger.settle ∅ (log.filterMap Call.entry) = some held) : ClosedExactlyOnce log where
  once := by
    intro fd hfd
    rw [hconns] at hfd
    cases hfd
  held := by rw [hsettle, Option.isSome_some]

theorem closedExactlyOnce_closing {log : List Call} (hconns : log.filterMap Call.connection = [])
    (hsettle : Ledger.settle ∅ (log.filterMap Call.entry) = some {n}) :
    ClosedExactlyOnce (log ++ [Call.close n]) := by
  have hentry : ([Call.close n].filterMap Call.entry) = [.release n] := rfl
  have hsettle' : Ledger.settle ∅ ((log ++ [Call.close n]).filterMap Call.entry) =
      some (({n} : Finset Int).erase n) := by
    rw [List.filterMap_append, Ledger.settle_append, hsettle, Option.bind_some, hentry,
      Ledger.settle, if_pos (Finset.mem_singleton_self n)]
    rfl
  refine closedExactlyOnce_of_settle ?_ hsettle'
  rw [List.filterMap_append, hconns]
  rfl

theorem not_closedExactlyOnce_twice {log calls : List Call} (hm : m ≠ n)
    (hconns : log.filterMap Call.connection = [m])
    (hsettle : Ledger.settle ∅ (log.filterMap Call.entry) = some {m, n})
    (hcalls : calls.Perm [.close m, .close m, .close n]) : ¬ClosedExactlyOnce (log ++ calls) := by
  intro hlaw
  have hmem : m ∈ (log ++ calls).filterMap Call.connection := by
    rw [List.filterMap_append, hconns]
    exact List.mem_append_left _ (List.mem_singleton_self m)
  have honce := hlaw.once m hmem
  have hcount := Ledger.settle_count hsettle m
  have hperm : (calls.filterMap Call.entry).Perm [.release m, .release m, .release n] :=
    hcalls.filterMap Call.entry
  rw [List.filterMap_append, List.count_append, List.count_append, hperm.count_eq,
    hperm.count_eq] at honce
  simp only [Finset.notMem_empty, if_false, Finset.mem_insert, true_or, if_true] at hcount
  simp [Ne.symm hm] at honce
  omega

theorem destroy_closes (ha : Accounted limit srv k) (timing : CloseTiming) (a : Answers) :
    ∃ k', (srv.destroy timing).run a k = .ok ((), k') ∧
      (ClosedExactlyOnce k'.log ↔ k.log.filterMap Call.connection = []) := by
  obtain ⟨held, hsettle, hp⟩ := ha
  generalize hconns : k.log.filterMap Call.connection = conns at hp ⊢
  cases hp with
  | @starting k s held ht htcp hstat =>
    cases ht with
    | closed t =>
      let s : Socket := ⟨t, -1, .uninitialized, false⟩
      have hdestroy : (withSocket limit s).serverSocket.destroy.run a k = .ok ((), k) := rfl
      refine ⟨k, destroy_alone rfl rfl hdestroy timing, ?_⟩
      exact iff_of_true (closedExactlyOnce_of_settle hconns hsettle) rfl
    | @opened t n stat f hf hd =>
      have hn := k.nonneg_of_table hf
      refine ⟨_, destroy_alone rfl rfl (Socket.destroy_open hn) timing, ?_⟩
      exact iff_of_true (closedExactlyOnce_closing hconns hsettle) rfl
  | @listening k n f hf hl =>
    have hn := k.nonneg_of_table hf
    refine ⟨_, destroy_alone rfl rfl (Socket.destroy_open hn) timing, ?_⟩
    exact iff_of_true (closedExactlyOnce_closing hconns hsettle) rfl
  | @refused k n f hf hl =>
    have hn := k.nonneg_of_table hf
    refine ⟨_, destroy_refused limit hn timing, ?_⟩
    exact iff_of_true (closedExactlyOnce_closing hconns hsettle) rfl
  | @connected k n m f hf hl hm hne =>
    have hn := k.nonneg_of_table hf
    obtain ⟨g, hg⟩ := Option.isSome_iff_exists.1 hm
    obtain ⟨k', calls, hdestroy, hlog', hcalls⟩ :=
      destroy_connected limit hn (k.nonneg_of_table hg) timing
    refine ⟨k', hdestroy, ?_⟩
    rw [hlog']
    apply iff_of_false _ (List.cons_ne_nil m [])
    exact not_closedExactlyOnce_twice hne hconns hsettle hcalls

/-- In a run that ends with the destruction of the server, descriptors are closed once exactly
when none was accepted. -/
theorem closedExactlyOnce_iff (k₀ : Kernel)
    (hrun : Machine.run step (createWith limit, { k₀ with log := [] }) is = .ok (srv, k))
    (timing : CloseTiming) (a : Answers) :
    ∃ k', (srv.destroy timing).run a k = .ok ((), k') ∧
      (ClosedExactlyOnce k'.log ↔ k.log.filterMap Call.connection = []) :=
  destroy_closes (accounted_of_run rfl hrun) timing a

def oneClient : List (ServerInput × Answers) :=
  [(.init 8080, startAnswers), (.fire (.event 3 2), { accept := some 5 })]

theorem run_oneClient : ∃ k, Machine.run step (createWith 16, .boot) oneClient =
    .ok (accepted 16 3 5, k) ∧ 5 ∈ k.log.filterMap Call.connection := by
  obtain ⟨k, hstart, ⟨f, hf, hl⟩, hfree⟩ := exists_started 16
  have hgrant : k.grant (some 5) = 5 := k.grant_some (by decide) (hfree 5 (by decide))
  obtain ⟨k', hfire, hk⟩ := fire_listening_connect (a := { accept := some 5 }) 16 hf hl hgrant 2
  have hstep : step (listening 16 3, k) (.fire (.event 3 2), { accept := some 5 }) =
      .ok (accepted 16 3 5, k') := hfire
  obtain ⟨cs, hcs, -⟩ := hk.calls
  have hcall : Call.accept 3 5 ∈ k'.log := by
    rw [hcs]
    simp
  refine ⟨k', ?_, List.mem_filterMap.2 ⟨_, hcall, rfl⟩⟩
  rw [oneClient, Machine.run_cons_ok (step_init hstart), Machine.run_cons_ok hstep, Machine.run_nil]

theorem closedExactlyOnce_iff_oneClient : ∃ k k',
    Machine.run step (createWith 16, .boot) oneClient = .ok (accepted 16 3 5, k) ∧
    ((accepted 16 3 5).destroy .immediately).run {} k = .ok ((), k') ∧
    (ClosedExactlyOnce k'.log ↔ k.log.filterMap Call.connection = []) := by
  obtain ⟨k, hrun, -⟩ := run_oneClient
  obtain ⟨k', hdestroy, hiff⟩ := closedExactlyOnce_iff .boot hrun .immediately {}
  exact ⟨k, k', hrun, hdestroy, hiff⟩

theorem not_closedExactlyOnce_oneClient : ∃ k k',
    Machine.run step (createWith 16, .boot) oneClient = .ok (accepted 16 3 5, k) ∧
    ((accepted 16 3 5).destroy .immediately).run {} k = .ok ((), k') ∧
    ¬ClosedExactlyOnce k'.log := by
  obtain ⟨k, hrun, hmem⟩ := run_oneClient
  obtain ⟨k', hdestroy, hiff⟩ := destroy_closes (accounted_of_run rfl hrun) .immediately {}
  refine ⟨k, k', hrun, hdestroy, fun hlaw => ?_⟩
  rw [hiff.1 hlaw] at hmem
  cases hmem

end TcpServer

end Gortsp
