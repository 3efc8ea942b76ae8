import Gortsp.ServerInit

namespace Gortsp
set_option autoImplicit true

namespace TcpServer

/-- The listening descriptor has `O_NONBLOCK` added to the flags it came with, and the event base
holds one persistent event for it. -/
structure ListensNonBlocking (flags : FlagWord) (srv : TcpServer) (k : Kernel) : Prop where
  listened : srv.serverSocket.stat = .listened
  nonblocking : ∃ f, k.table srv.serverSocket.fd = some f ∧ f.flags = flags.nonblocking
  event : ∃ ev, srv.taskScheduler.evtHandler.events = [ev] ∧ ev.fd = srv.serverSocket.fd ∧
    ev.pending ∧ ev.persistent ∧ ev.callback = some .onConnectFunc
  noIoevent : srv.taskScheduler.evtHandler.bufferEvents = []
  callback : srv.eventFunc .onConnectFunc = some .onConnect

/-- `init` on a fresh server returns `SUCCESS` exactly when all its calls succeeded, and then
listens without blocking. -/
def InitReports (limit port : UInt16) (a : Answers) (k : Kernel) : Prop :=
  ∃ st srv k' calls, ((createWith limit).init port).run a k = .ok ((st, srv), k') ∧
    k'.log = k.log ++ calls ∧ (st = .success ↔ ∀ c ∈ calls, c.succeeded) ∧
    (st = .success → ListensNonBlocking a.flags srv k')

def OnlySetflFails (a : Answers) (k : Kernel) : Prop :=
  k.grant a.socket ≠ -1 ∧ (a.getfl ∧ a.bind ∧ a.listen) ∧ ¬a.SetsFlag a.flags

theorem listening_listens {flags : FlagWord} (hf : k.table n = some f)
    (hflags : f.flags = flags.nonblocking) :
    ListensNonBlocking flags (listening limit n) k where
  listened := rfl
  nonblocking := ⟨f, hf, hflags⟩
  event := ⟨(Event.new n (some .onConnectFunc)).add, rfl, rfl, rfl, Event.persistent_new n _, rfl⟩
  noIoevent := rfl
  callback := rfl

theorem init_reports (h : ¬OnlySetflFails a k) : InitReports limit port a k := by
  obtain ⟨st, srv, k', hrun, hout⟩ := init_outcome limit port a k
  have herr : RtspStatus.internalErr ≠ .success := by decide
  cases hout with
  | noSocket hg =>
    have hfail : ¬∀ c ∈ [Call.socket .stream .tcp (-1)], c.succeeded := by
      intro hall
      cases hall _ (List.mem_singleton_self _)
    exact ⟨_, _, _, _, hrun, rfl, iff_of_false herr hfail, fun h => absurd h herr⟩
  | @stopped n s calls k' hg hn hno hs ht hlog hcalls hfail =>
    have hfail' : ¬∀ c ∈ Call.socket .stream .tcp n :: calls, c.succeeded := by
      intro hall
      obtain ⟨c, hc, hno⟩ := hfail
      exact hno (hall c (List.mem_cons_of_mem _ hc))
    exact ⟨_, _, _, _, hrun, hlog, iff_of_false herr hfail', fun h => absurd h herr⟩
  | @listening n flags calls k' hg hn hok htable hlog hcalls hreport hflags =>
    have hset : a.SetsFlag a.flags := by
      by_contra hno
      exact h ⟨by omega, hok, hno⟩
    have hall : ∀ c ∈ Call.socket .stream .tcp n :: calls, c.succeeded := by
      intro c hc
      rcases List.mem_cons.1 hc with hc | hc
      · rw [hc]
        exact decide_eq_true hn
      · exact hreport.2 hset c hc
    have hf := Kernel.table_of_update htable
    exact ⟨_, _, _, _, hrun, hlog, iff_of_true rfl hall,
      fun _ => listening_listens hf (hflags hset)⟩

theorem init_misreports (h : OnlySetflFails a k) : ¬InitReports limit port a k := by
  intro hlaw
  obtain ⟨st, srv, k', calls, hrun, hlog, hiff, -⟩ := hlaw
  obtain ⟨st', srv', k'', hrun', hout⟩ := init_outcome limit port a k
  rw [hrun] at hrun'
  cases hrun'
  cases hout with
  | noSocket hg => exact h.1 hg
  | stopped hg hn hno hs ht hlog' hcalls hfail => exact hno h.2.1
  | listening hg hn hok htable hlog' hcalls hreport hflags =>
    have hsame := List.append_cancel_left (hlog.symm.trans hlog')
    have hall := hiff.1 rfl
    rw [hsame] at hall
    exact h.2.2 (hreport.1 fun c hc => hall c (List.mem_cons_of_mem _ hc))

/-- The result of `init` is faithful unless a failed `fcntl(F_SETFL)` is all that went wrong. -/
theorem initReports_iff (limit port : UInt16) (a : Answers) (k : Kernel) :
    InitReports limit port a k ↔ ¬OnlySetflFails a k := by
  constructor
  · intro hlaw h
    exact init_misreports h hlaw
  · exact init_reports

theorem not_initReports_refused_setfl : ¬InitReports 16 8080
    { socket := some 3, getfl := true, bind := true, listen := true } Kernel.boot := by
  apply init_misreports
  have hflag : ¬Answers.SetsFlag { socket := some 3, getfl := true, bind := true, listen := true }
      .none := by
    rintro (h | h)
    · exact h (by decide)
    · cases h
  exact ⟨by decide, ⟨rfl, rfl, rfl⟩, hflag⟩

def initAll (srv : TcpServer) (k : Kernel) :
    List (UInt16 × Answers) → Except Fault (List RtspStatus × TcpServer × Kernel)
  | [] => .ok ([], srv, k)
  | (port, a) :: rest =>
    match (srv.init port).run a k with
    | .ok ((st, srv), k) => (initAll srv k rest).map fun r => (st :: r.1, r.2)
    | .error e => .error e

def ListensOn (port : UInt16) (srv : TcpServer) (k : Kernel) : Prop :=
  srv.serverSocket.stat = .listened ∧
    ∃ f, k.table srv.serverSocket.fd = some f ∧ f.listening = true ∧ f.BoundFor inaddrAny port

def AllSucceed (a : Answers) (k : Kernel) : Prop :=
  0 ≤ k.grant a.socket ∧ a.getfl ∧ a.setfl ∧ a.bind ∧ a.listen

/-- The server is as it was before any call of `init`, so that a later one can succeed. -/
structure Untouched (table : Int → Option KernelSocket) (srv : TcpServer) (k : Kernel) : Prop where
  uninitialized : srv.serverSocket.stat = .uninitialized ∧ srv.serverSocket.fd = -1
  noDescriptor : k.table = table
  noEvent : srv.taskScheduler.evtHandler.events = [] ∧
    srv.taskScheduler.evtHandler.bufferEvents = []
  retry : ∀ port a, AllSucceed a k →
    ∃ srv' k', (srv.init port).run a k = .ok ((.success, srv'), k') ∧ ListensOn port srv' k'

def RetrySafe (limit : UInt16) (k : Kernel) (calls : List (UInt16 × Answers)) : Prop :=
  ∀ pre, pre <+: calls → ∃ sts srv k', initAll (createWith limit) k pre = .ok (sts, srv, k') ∧
    ((∀ st ∈ sts, st ≠ .success) → Untouched k.table srv k')

/-- Every call fails at `::socket`, up to the first one that gets a descriptor, and that one
gets all the rest. -/
def FailAtSocket (k : Kernel) : List (UInt16 × Answers) → Prop
  | [] => True
  | (_, a) :: rest =>
    if k.grant a.socket = -1 then FailAtSocket k rest else a.getfl ∧ a.bind ∧ a.listen

theorem failAtSocket_record (k : Kernel) (c : Call) (calls : List (UInt16 × Answers)) :
    FailAtSocket (k.record c) calls ↔ FailAtSocket k calls := by
  induction calls with
  | nil => exact Iff.rfl
  | cons call calls ih =>
    have hg : (k.record c).grant call.2.socket = k.grant call.2.socket := rfl
    simp only [FailAtSocket, hg, ih]

theorem initAll_cons {st : RtspStatus} {srv' : TcpServer}
    (h : (srv.init port).run a k = .ok ((st, srv'), k')) (rest : List (UInt16 × Answers)) :
    initAll srv k ((port, a) :: rest) =
      (initAll srv' k' rest).map fun r => (st :: r.1, r.2) := by
  simp only [initAll, h]

theorem initAll_busy (h : srv.serverSocket.stat > .uninitialized ∨ srv.serverSocket.fd ≥ 0)
    (calls : List (UInt16 × Answers)) :
    initAll srv k calls = .ok (calls.map fun _ => .internalErr, srv, k) := by
  induction calls with
  | nil => rfl
  | cons call calls ih =>
    rw [initAll_cons (init_busy h call.1), ih]
    rfl

theorem untouched_fresh (limit : UInt16) (k : Kernel) :
    Untouched k.table (createWith limit) k where
  uninitialized := ⟨rfl, rfl⟩
  noDescriptor := rfl
  noEvent := ⟨rfl, rfl⟩
  retry := by
    intro port a h
    obtain ⟨hn, hread, -, hbind, hlisten⟩ := h
    obtain ⟨st, srv, k', hrun, hout⟩ := init_outcome limit port a k
    cases hout with
    | noSocket hg => omega
    | stopped hg hn' hno hs ht hlog hcalls hfail => exact absurd ⟨hread, hbind, hlisten⟩ hno
    | @listening n flags calls k' hg hn' hok htable hlog hcalls hreport hflags =>
      have hf := Kernel.table_of_update htable
      exact ⟨_, _, hrun, rfl, _, hf, rfl, _, ⟨_, rfl, rfl, ntohs_htons _⟩,
        a.portFor_ne_zero port, a.portFor_eq⟩

theorem retrySafe_noSocket (hg : k.grant a.socket = -1) (rest : List (UInt16 × Answers)) :
    RetrySafe limit k ((port, a) :: rest) ↔
      RetrySafe limit (k.record (.socket .stream .tcp (-1))) rest := by
  have hrun : ((createWith limit).init port).run a k = .ok ((.internalErr, createWith limit),
      k.record (.socket .stream .tcp (-1))) := by
    obtain ⟨st, srv, k', hrun, hout⟩ := init_outcome limit port a k
    cases hout with
    | noSocket _ => exact hrun
    | stopped hg' hn => omega
    | listening hg' hn => omega
  constructor
  · intro h pre hpre
    obtain ⟨sts, srv, k', hall, hsafe⟩ := h ((port, a) :: pre) (List.cons_prefix_cons.2 ⟨rfl, hpre⟩)
    rw [initAll_cons hrun] at hall
    obtain ⟨⟨sts', srv', k''⟩, hr, he⟩ := Routine.map_ok_cases hall
    cases he
    refine ⟨_, _, _, hr, fun hst => hsafe ?_⟩
    intro st hmem
    rcases List.mem_cons.1 hmem with rfl | hmem
    · decide
    · exact hst st hmem
  · intro h pre hpre
    rcases List.prefix_cons_iff.1 hpre with rfl | ⟨pre', rfl, hpre'⟩
    · exact ⟨[], createWith limit, k, rfl, fun _ => untouched_fresh limit k⟩
    · obtain ⟨sts, srv, k', hall, hsafe⟩ := h pre' hpre'
      refine ⟨.internalErr :: sts, srv, k', ?_, fun hst => hsafe ?_⟩
      · rw [initAll_cons hrun, hall]
        rfl
      · intro st hmem
        exact hst st (List.mem_cons_of_mem _ hmem)

theorem retrySafe_opened (hg : k.grant a.socket ≠ -1) (rest : List (UInt16 × Answers)) :
    RetrySafe limit k ((port, a) :: rest) ↔ a.getfl ∧ a.bind ∧ a.listen := by
  obtain ⟨st, srv, k', hrun, hout⟩ := init_outcome limit port a k
  cases hout with
  | noSocket hg' => exact absurd hg' hg
  | @stopped n s calls k' hg' hn hno hs ht hlog hcalls hfail =>
    apply iff_of_false _ hno
    intro h
    obtain ⟨sts, srv, k'', hall, hsafe⟩ := h [(port, a)] (List.prefix_append [(port, a)] rest)
    rw [initAll_cons hrun] at hall
    cases hall
    have hun := (hsafe (by simp)).uninitialized.1
    rcases hs.2 with hs | hs
    · cases hs.symm.trans hun
    · cases hs.symm.trans hun
  | @listening n flags calls k' hg' hn hok htable hlog hcalls hreport hflags =>
    apply iff_of_true _ hok
    intro pre hpre
    rcases List.prefix_cons_iff.1 hpre with rfl | ⟨pre', rfl, -⟩
    · exact ⟨[], createWith limit, k, rfl, fun _ => untouched_fresh limit k⟩
    · refine ⟨_, _, _, by rw [initAll_cons hrun, initAll_busy (.inr hn)]; rfl, fun hst => ?_⟩
      exact absurd rfl (hst .success List.mem_cons_self)

/-- A failed `init` can be repeated exactly when it failed at `::socket`. -/
theorem retrySafe_iff (limit : UInt16) (k : Kernel) (calls : List (UInt16 × Answers)) :
    RetrySafe limit k calls ↔ FailAtSocket k calls := by
  induction calls generalizing k with
  | nil =>
    apply iff_of_true _ trivial
    intro pre hpre
    rw [List.prefix_nil.1 hpre]
    exact ⟨[], createWith limit, k, rfl, fun _ => untouched_fresh limit k⟩
  | cons call rest ih =>
    by_cases hg : k.grant call.2.socket = -1
    · rw [retrySafe_noSocket hg, ih, failAtSocket_record, FailAtSocket, if_pos hg]
    · rw [retrySafe_opened hg, FailAtSocket, if_neg hg]

theorem not_retrySafe_refused_bind : ¬RetrySafe 16 Kernel.boot
    [(8080, { socket := some 3, getfl := true, setfl := true, listen := true })] := by
  rw [retrySafe_opened (by decide)]
  decide

end TcpServer

end Gortsp
