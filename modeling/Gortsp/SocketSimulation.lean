import Gortsp.Machine
import Gortsp.SocketOutcome

namespace Gortsp
set_option autoImplicit true

def SocketStat.Describes (type : SocketType) (f : KernelSocket) : SocketStat → Prop
  | .created => f.protocol = type.protocol ∧ f.localAddr = none ∧ f.listening = false
  | .binded => f.localAddr.isSome ∧ f.listening = false
  | .listened | .accepting => type = .tcpSocket ∧ f.localAddr.isSome ∧ f.listening = true
  | .uninitialized | .conneted => False

theorem SocketStat.Describes.of_shape {stat : SocketStat} (h : stat.Describes type f)
    (he : f'.shape = f.shape) : stat.Describes type f' := by
  simp only [KernelSocket.shape, Prod.mk.injEq] at he
  obtain ⟨hp, ha, hl⟩ := he
  cases stat with
  | uninitialized => exact h
  | conneted => exact h
  | created => exact ⟨hp.trans h.1, ha.trans h.2.1, hl.trans h.2.2⟩
  | binded => exact ⟨ha ▸ h.1, hl.trans h.2⟩
  | listened => exact ⟨h.1, ha ▸ h.2.1, hl.trans h.2.2⟩
  | accepting => exact ⟨h.1, ha ▸ h.2.1, hl.trans h.2.2⟩

inductive Socket.Tracks (k : Kernel) : Socket → Finset Int → Prop where
  | closed (t : SocketType) : Tracks k ⟨t, -1, .uninitialized, false⟩ ∅
  | opened {t : SocketType} {n : Int} {stat : SocketStat} {f : KernelSocket}
      (hf : k.table n = some f) (hd : stat.Describes t f) : Tracks k ⟨t, n, stat, false⟩ {n}

theorem Socket.Tracks.of_shape (h : Socket.Tracks k s held)
    (hk : ∀ n ∈ held, (k'.table n).map KernelSocket.shape = (k.table n).map KernelSocket.shape) :
    Socket.Tracks k' s held := by
  cases h with
  | closed t => exact .closed t
  | @opened t n stat f hf hd =>
    have hs := hk n (Finset.mem_singleton_self n)
    rw [hf, Option.map_some, Option.map_eq_some_iff] at hs
    obtain ⟨f', hf', he⟩ := hs
    exact .opened hf' (hd.of_shape he)

theorem Socket.Tracks.isSome (h : Socket.Tracks k s held) (hn : n ∈ held) :
    n = s.fd ∧ (k.table n).isSome := by
  cases h with
  | closed t => exact absurd hn (Finset.notMem_empty n)
  | opened hf hd =>
    rw [Finset.mem_singleton.1 hn, hf]
    exact ⟨rfl, rfl⟩

theorem Socket.Tracks.unopened (h : Socket.Tracks k s held) (hs : s.stat = .uninitialized) :
    s = .createWith s.type ∧ held = ∅ := by
  cases h with
  | closed t => exact ⟨rfl, rfl⟩
  | opened hf hd =>
    cases hs
    exact hd.elim

def Call.accepted : Call → Option Int
  | .accept _ ret => some ret
  | _ => none

/-- What the calls of one operation do to the descriptors that `::socket` returned. A number
that `::accept` returned belongs to the `Socket` made for the connection. -/
def ownEntries (calls : List Call) : List (Ledger.Entry Int) :=
  (calls.filterMap Call.entry).filter fun e => e.resource ∉ calls.filterMap Call.accepted

def Socket.Continues (k : Kernel) (held : Finset Int) (x : Except Fault (Socket × Kernel)) :
    Prop :=
  ∃ s' k' calls held', x = .ok (s', k') ∧ k'.log = k.log ++ calls ∧
    Ledger.settle held (ownEntries calls) = some held' ∧ s'.Tracks k' held'

theorem ownEntries_dropped (n m : Int) :
    ownEntries (.accept n m :: Socket.droppedCalls m) = [] := by
  by_cases hm : 0 ≤ m
  · simp [ownEntries, Socket.droppedCalls, Call.entry, Call.accepted, hm, Ledger.Entry.resource]
  · simp [ownEntries, Socket.droppedCalls, Call.entry, Call.accepted, hm]

theorem ownEntries_accept (n m : Int) : ownEntries [.accept n m] = [] := by
  by_cases hm : 0 ≤ m
  · simp [ownEntries, Call.entry, Call.accepted, hm, Ledger.Entry.resource]
  · simp [ownEntries, Call.entry, Call.accepted, hm]

theorem ownEntries_fcntl {calls : List Call} (h : ∀ c ∈ calls,
    (∃ ret, c = .fcntlGetfl n ret) ∨ ∃ arg ret, c = .fcntlSetfl n arg ret) :
    ownEntries calls = [] := by
  have hnone : calls.filterMap Call.entry = [] := by
    apply List.filterMap_eq_nil_iff.2
    intro c hc
    rcases h c hc with ⟨ret, rfl⟩ | ⟨arg, ret, rfl⟩
    · rfl
    · rfl
  rw [ownEntries, hnone]
  rfl

/-- An operation of a socket that follows the kernel leaves one that does. -/
theorem Socket.Outcome.tracks (ho : Socket.Outcome s a k op res k' calls)
    (h : s.Tracks k held) :
    ∃ held', Ledger.settle held (ownEntries calls) = some held' ∧
      res.socket.Tracks k' held' := by
  cases ho with
  | refused hst => exact ⟨held, rfl, h⟩
  | compiledOut => exact ⟨held, rfl, h⟩
  | retyped hs hfd =>
    obtain ⟨he, rfl⟩ := h.unopened hs
    rw [he]
    exact ⟨∅, rfl, .closed _⟩
  | noSocket hs hfd hg =>
    obtain ⟨he, rfl⟩ := h.unopened hs
    rw [he]
    exact ⟨∅, rfl, .closed _⟩
  | @opened n hs hfd hg hn =>
    obtain ⟨he, rfl⟩ := h.unopened hs
    rw [he]
    refine ⟨{n}, ?_, .opened (f := ⟨s.type.kind, s.type.protocol, none, false, a.flags, []⟩) ?_
      ⟨rfl, rfl, rfl⟩⟩
    · simp [ownEntries, Call.entry, Call.accepted, hn, Ledger.settle]
    · rw [Kernel.record_table, Kernel.install_self k hn]
      rfl
  | bindFailed hs hb => exact ⟨held, rfl, h.of_shape fun _ _ => rfl⟩
  | @bound ip port hs hb =>
    cases h with
    | closed t => cases hs
    | @opened t n stat f hf hd =>
      cases hs
      refine ⟨{n}, rfl, .opened (f := { f with localAddr := some (anyAddr (a.portFor port)) }) ?_
        ⟨rfl, hd.2.2⟩⟩
      simp only [Kernel.record_table, Kernel.modify_table, hf, Option.map_some,
        Function.update_self]
  | listenFailed ht hs hl => exact ⟨held, rfl, h.of_shape fun _ _ => rfl⟩
  | listens ht hs hl =>
    cases h with
    | closed t => cases hs
    | @opened t n stat f hf hd =>
      cases hs
      cases ht
      refine ⟨{n}, rfl, .opened (f := { f with listening := true }) ?_ ⟨rfl, hd.1, rfl⟩⟩
      simp only [Kernel.record_table, Kernel.modify_table, hf, Option.map_some,
        Function.update_self]
  | taken ht hs hc hr =>
    cases h with
    | closed t => cases hs
    | @opened t n stat f hf hd =>
      cases hs
      obtain ⟨-, hf'⟩ := Sys.accept_keeps hf hr
      refine ⟨{n}, ?_, .opened hf' hd⟩
      rw [ownEntries_accept]
      rfl
  | dropped ht hs hc hr hd' =>
    cases h with
    | closed t => cases hs
    | @opened t n stat f hf hd =>
      cases hs
      obtain ⟨hne, hf'⟩ := Sys.accept_keeps hf hr
      refine ⟨{n}, ?_, .opened ((destroy_keeps hne hd').trans hf') hd⟩
      rw [ownEntries_dropped]
      rfl
  | sent hr hk => exact ⟨held, rfl, h.of_shape fun n _ => hk.shape n⟩
  | flagged hs hst hk hcalls hne =>
    refine ⟨held, ?_, h.of_shape fun n _ => hk.shape n⟩
    rw [ownEntries_fcntl hcalls]
    rfl
  | closed hop hfd =>
    cases h with
    | closed t => exact ⟨∅, rfl, .closed t⟩
    | opened hf hd => exact absurd (k.nonneg_of_table hf) (Int.not_le.2 hfd)
  | released hop hfd =>
    cases h with
    | closed t => exact absurd hfd (by decide : ¬(0 : Int) ≤ -1)
    | opened hf hd =>
      refine ⟨∅, ?_, .closed _⟩
      simp [ownEntries, Call.entry, Call.accepted, Ledger.settle]

theorem Socket.Tracks.perform (h : Socket.Tracks k s held) (op : SocketOp) (a : Answers) :
    Socket.Continues k held ((s.perform op).run a k) := by
  obtain ⟨res, k', calls, hr, hlog, hout⟩ := s.operate_ends op a k
  obtain ⟨held', hs, ht⟩ := hout.tracks h
  exact ⟨res.socket, k', calls, held', Socket.perform_of_operate hr, hlog, hs, ht⟩

/-- A socket simulates the kernel socket it owns; `held` are the descriptors that `::socket`
returned to it and that it has not closed. -/
structure Socket.Simulates (s : Socket) (held : Finset Int) (k : Kernel) : Prop where
  uninitialized_iff : s.stat = .uninitialized ↔ s.fd = -1
  unowned_iff : s.fd = -1 ↔ held = ∅
  owned : ∀ n ∈ held, n = s.fd ∧ (k.table n).isSome
  created : s.stat = .created → ∃ f, k.table s.fd = some f ∧
    f.protocol = s.type.protocol ∧ f.localAddr = none ∧ f.listening = false
  binded : s.stat = .binded → ∃ f, k.table s.fd = some f ∧
    f.localAddr.isSome ∧ f.listening = false
  listened : s.stat = .listened ∨ s.stat = .accepting → s.type = .tcpSocket ∧
    ∃ f, k.table s.fd = some f ∧ f.localAddr.isSome ∧ f.listening = true
  not_conneted : s.stat ≠ .conneted
  not_connected : s.connected = false

theorem Socket.Tracks.simulates (h : Socket.Tracks k s held) : s.Simulates held k := by
  have howned : ∀ n ∈ held, n = s.fd ∧ (k.table n).isSome := fun n hn => h.isSome hn
  cases h with
  | closed t =>
    exact ⟨by simp, by simp, howned, by simp, by simp, by simp, by simp, rfl⟩
  | @opened t n stat f hf hd =>
    have hn : n ≠ -1 := by
      have := k.nonneg_of_table hf
      omega
    have hne : ({n} : Finset Int) ≠ ∅ := Finset.singleton_ne_empty n
    cases stat with
    | uninitialized => exact hd.elim
    | conneted => exact hd.elim
    | created =>
      exact ⟨by simp [hn], by simp [hn], howned, fun _ => ⟨f, hf, hd⟩, by simp, by simp, by simp,
        rfl⟩
    | binded =>
      exact ⟨by simp [hn], by simp [hn], howned, by simp, fun _ => ⟨f, hf, hd⟩, by simp, by simp,
        rfl⟩
    | listened =>
      exact ⟨by simp [hn], by simp [hn], howned, by simp, by simp,
        fun _ => ⟨hd.1, f, hf, hd.2⟩, by simp, rfl⟩
    | accepting =>
      exact ⟨by simp [hn], by simp [hn], howned, by simp, by simp,
        fun _ => ⟨hd.1, f, hf, hd.2⟩, by simp, rfl⟩

def Kernel.replace (k : Kernel) (fd : Int) : Option KernelSocket → Kernel
  | some f => k.install fd f
  | none => k.release fd

theorem Kernel.replace_of_ne (k : Kernel) (f : Option KernelSocket) (h : n ≠ fd) :
    (k.replace fd f).table n = k.table n := by
  cases f with
  | none => exact Function.update_of_ne h _ _
  | some f => exact k.install_table_of_ne f h

inductive SocketInput where
  | call (op : SocketOp) (a : Answers)
  | elsewhere (fd : Int) (f : Option KernelSocket)

/-- A socket in the middle of a run: the ledger lists the descriptors that `::socket` returned
to it and the `::close` calls it issued. -/
structure SocketRun where
  socket : Socket
  kernel : Kernel
  ledger : List (Ledger.Entry Int)

namespace SocketRun

def start (type : Option SocketType) (k : Kernel) : SocketRun :=
  ⟨match type with
    | none => Socket.create
    | some type => Socket.createWith type, k, []⟩

def extend (r : SocketRun) (kernel : Kernel) : List (Ledger.Entry Int) :=
  r.ledger ++ ownEntries (kernel.log.drop r.kernel.log.length)

/-- The rest of the process leaves the descriptor of this socket alone. -/
def step (r : SocketRun) : SocketInput → Except Fault SocketRun
  | .call op a =>
    ((r.socket.perform op).run a r.kernel).map fun (socket, kernel) =>
      ⟨socket, kernel, r.extend kernel⟩
  | .elsewhere fd f =>
    if fd = r.socket.fd then .ok r else .ok { r with kernel := r.kernel.replace fd f }

def destroy (r : SocketRun) (a : Answers) : Except Fault (List (Ledger.Entry Int)) :=
  (r.socket.destroy.run a r.kernel).map fun (_, kernel) => r.extend kernel

def Tracks (r : SocketRun) : Prop :=
  ∃ held, Ledger.settle ∅ r.ledger = some held ∧ r.socket.Tracks r.kernel held

theorem start_tracks (type : Option SocketType) (k : Kernel) : (start type k).Tracks := by
  refine ⟨∅, rfl, ?_⟩
  cases type with
  | none => exact .closed .udpSocket
  | some type => exact .closed type

theorem extend_settles {r : SocketRun} (hs : Ledger.settle ∅ r.ledger = some held)
    (hl : k.log = r.kernel.log ++ calls)
    (he : Ledger.settle held (ownEntries calls) = some held') :
    Ledger.settle ∅ (r.extend k) = some held' := by
  rw [extend, hl, List.drop_left, Ledger.settle_append, hs, Option.bind_some, he]

theorem step_tracks (r : SocketRun) (i : SocketInput) (h : r.Tracks) :
    ∃ r', r.step i = .ok r' ∧ r'.Tracks := by
  obtain ⟨held, hs, ht⟩ := h
  cases i with
  | call op a =>
    obtain ⟨s', k', calls, held', hr, hl, he, ht'⟩ := ht.perform op a
    refine ⟨_, by rw [step, hr]; rfl, held', ?_, ht'⟩
    exact extend_settles hs hl he
  | elsewhere fd f =>
    by_cases hfd : fd = r.socket.fd
    · exact ⟨r, if_pos hfd, held, hs, ht⟩
    · refine ⟨_, if_neg hfd, held, hs, ht.of_shape fun n hn => ?_⟩
      obtain ⟨rfl, -⟩ := ht.isSome hn
      rw [Kernel.replace_of_ne _ _ (Ne.symm hfd)]

theorem destroy_settles {r : SocketRun} (h : r.Tracks) (a : Answers) :
    ∃ kernel, r.destroy a = .ok (r.extend kernel) ∧
      Ledger.settle ∅ (r.extend kernel) = some ∅ := by
  obtain ⟨socket, kernel, ledger⟩ := r
  obtain ⟨held, hs, ht⟩ := h
  cases ht with
  | closed t =>
    refine ⟨kernel, ?_, extend_settles hs (List.append_nil _).symm rfl⟩
    rw [destroy, Socket.destroy_closed (by decide : (-1 : Int) < 0)]
    rfl
  | @opened t n stat f hf hd =>
    have hn : n ≥ 0 := kernel.nonneg_of_table hf
    have hclose : Ledger.settle {n} (ownEntries [.close n]) = some ∅ := by
      simp [ownEntries, Call.entry, Call.accepted, Ledger.settle]
    refine ⟨(kernel.release n).record (.close n), ?_, extend_settles hs rfl hclose⟩
    rw [destroy, Socket.destroy_open hn]
    rfl

/-- Over every run, with every answer of the kernel and whatever the rest of the process does
to other descriptors, a socket simulates the kernel socket it owns, and once it is destroyed
every descriptor it got from `::socket` has been closed exactly once. -/
theorem simulates_kernel (type : Option SocketType) (k : Kernel) (is : List SocketInput)
    (a : Answers) :
    ∃ r held ledger, Machine.run step (start type k) is = .ok r ∧
      Ledger.settle ∅ r.ledger = some held ∧ r.socket.Simulates held r.kernel ∧
      r.destroy a = .ok ledger ∧ r.ledger <+: ledger ∧ Ledger.EachReleasedOnce ledger := by
  obtain ⟨r, hr, ht⟩ := Machine.run_total step_tracks (start_tracks type k) is
  obtain ⟨kernel, hd, he⟩ := destroy_settles ht a
  obtain ⟨held, hs, hsim⟩ := ht
  exact ⟨r, held, r.extend kernel, hr, hs, hsim.simulates, hd, List.prefix_append _ _,
    Ledger.eachReleasedOnce_of_settle he⟩

end SocketRun

end Gortsp
