import Gortsp.SocketSimulation
import Gortsp.ConnectionLifecycle

namespace Gortsp
set_option autoImplicit true

/-- The ways in which the program makes a socket; `::accept` may have returned `-1`. -/
inductive Socket.Made : Socket → Prop where
  | create : Made Socket.create
  | createWith (type : SocketType) : Made (Socket.createWith type)
  | createFromAccept {n : Int} (hn : -1 ≤ n) : Made (Socket.createFromAccept n)

/-- The operations that can be tried again, with a kernel that lets their calls succeed. -/
def SocketOp.Permitted (s : Socket) (a : Answers) (k : Kernel) : SocketOp → Prop
  | .init => 0 ≤ k.grant a.socket
  | .bind _ _ => (k.table s.fd).isSome ∧ a.bind
  | .listen _ => (k.table s.fd).isSome ∧ a.listen
  | .setNonBlock => (k.table s.fd).isSome ∧ a.getfl
  | _ => False

theorem SocketOp.Closes.not_permitted {op : SocketOp} (h : op.Closes) : ¬op.Permitted s a k := by
  cases op with
  | close => exact id
  | disconnect => exact id
  | _ => exact h.elim

namespace Socket

def SameButFd (s t : Socket) : Prop := s = { t with fd := s.fd }

def advanced (s : Socket) : SocketOp → Socket
  | .init => s.changeStatus .created
  | .bind _ _ => s.changeStatus .binded
  | .listen _ => s.changeStatus .listened
  | _ => s

/-- A failed operation leaves the socket and the connection passed to it as they were, and when
it was the kernel that failed it, trying again succeeds as the first try would have. -/
def FailsCleanly (s : Socket) (op : SocketOp) (a : Answers) (k : Kernel) : Prop :=
  ∃ res k', (s.operate op).run a k = .ok (res, k') ∧
    (res.status ≠ .success → res.socket = s ∧ res.conn = op.conn ∧
      (k'.log ≠ k.log → ∀ a₁ k₁ a₂ k₂, op.Permitted res.socket a₁ k₁ → op.Permitted s a₂ k₂ →
        ∃ again k₁' direct k₂', (res.socket.operate op).run a₁ k₁ = .ok (again, k₁') ∧
          (s.operate op).run a₂ k₂ = .ok (direct, k₂') ∧ again.status = .success ∧
          direct.status = .success ∧ again.socket.SameButFd direct.socket))

variable {s t u : Socket} {a : Answers} {k k' : Kernel} {op : SocketOp} {res : Result}
  {calls : List Call}

theorem SameButFd.join (hs : s.SameButFd u) (ht : t.SameButFd u) : s.SameButFd t := by
  rw [SameButFd] at hs ht ⊢
  rw [hs, ht]

theorem Made.fd (h : Made s) : -1 ≤ s.fd := by
  cases h with
  | create => exact Int.le_refl (-1)
  | createWith type => exact Int.le_refl (-1)
  | createFromAccept hn => exact hn

theorem Outcome.fd (h : s.Outcome a k op res k' calls) (hfd : -1 ≤ s.fd) :
    -1 ≤ res.socket.fd := by
  cases h with
  | noSocket hs hneg hg => exact Int.le_refl (-1)
  | opened hs hneg hg hn => exact Int.le_trans (by decide) hn
  | closed hop hneg => exact Int.le_refl (-1)
  | released hop hpos => exact Int.le_refl (-1)
  | _ => exact hfd

/-- `init` overwrites `fd_` before it knows the outcome; a socket that owns no descriptor
has `-1` there already. -/
theorem Outcome.failed (h : s.Outcome a k op res k' calls) (hfd : -1 ≤ s.fd)
    (hst : res.status ≠ .success) :
    res.socket = s ∧ res.conn = op.conn ∧ (calls ≠ [] → s.refusal op = none) := by
  cases h with
  | refused h => exact ⟨rfl, rfl, fun hne => absurd rfl hne⟩
  | noSocket hs hneg hg =>
    have he : s.fd = -1 := by omega
    refine ⟨?_, rfl, fun _ => if_neg (not_busy hs hneg)⟩
    change { s with fd := -1 } = s
    rw [← he]
  | bindFailed hs hb => exact ⟨rfl, rfl, fun _ => if_neg (not_not.2 hs)⟩
  | listenFailed ht hs hl => exact ⟨rfl, rfl, fun _ => if_neg (by simp [ht, hs])⟩
  | sent hr hk => exact ⟨rfl, rfl, fun _ => rfl⟩
  | flagged hs hst hk hcalls hne => exact ⟨rfl, rfl, fun _ => if_neg hs⟩
  | _ => exact absurd rfl hst

theorem operate_permitted (hg : s.refusal op = none) (hp : op.Permitted s a k) :
    ∃ res k', (s.operate op).run a k = .ok (res, k') ∧ res.status = .success ∧
      res.socket.SameButFd (s.advanced op) := by
  obtain ⟨res, k', calls, hr, -, hout⟩ := s.operate_ends op a k
  refine ⟨res, k', hr, ?_⟩
  cases hout with
  | refused h => cases hg.symm.trans h
  | noSocket hs hneg hno =>
    have hp' : 0 ≤ k.grant a.socket := hp
    rw [hno] at hp'
    exact absurd hp' (by decide)
  | opened hs hneg hgrant hn => exact ⟨rfl, rfl⟩
  | bindFailed hs hb => exact absurd hp hb
  | bound hs hb => exact ⟨rfl, rfl⟩
  | listenFailed ht hs hl => exact absurd hp hl
  | listens ht hs hl => exact ⟨rfl, rfl⟩
  | flagged hs hst hk hcalls hne => exact ⟨hst.2 hp, rfl⟩
  | retyped hs hneg => exact hp.elim
  | taken ht hs hc hr => exact hp.elim
  | dropped ht hs hc hr hd => exact hp.elim
  | compiledOut => exact hp.elim
  | sent hr hk => exact hp.elim
  | closed hop hneg => exact (hop.not_permitted hp).elim
  | released hop hpos => exact (hop.not_permitted hp).elim

theorem failsCleanly_of_fd (hfd : -1 ≤ s.fd) (op : SocketOp) (a : Answers) (k : Kernel) :
    s.FailsCleanly op a k := by
  obtain ⟨res, k', calls, hr, hlog, hout⟩ := s.operate_ends op a k
  refine ⟨res, k', hr, fun hst => ?_⟩
  obtain ⟨hsocket, hconn, hguard⟩ := hout.failed hfd hst
  refine ⟨hsocket, hconn, fun hcalled a₁ k₁ a₂ k₂ h₁ h₂ => ?_⟩
  have hg : s.refusal op = none := by
    apply hguard
    intro hnil
    apply hcalled
    rw [hlog, hnil, List.append_nil]
  rw [hsocket] at h₁ ⊢
  obtain ⟨again, k₁', hrun₁, hok₁, hsame₁⟩ := operate_permitted hg h₁
  obtain ⟨direct, k₂', hrun₂, hok₂, hsame₂⟩ := operate_permitted hg h₂
  exact ⟨again, k₁', direct, k₂', hrun₁, hrun₂, hok₁, hok₂, hsame₁.join hsame₂⟩

end Socket

def TcpConnection.FailsCleanly (conn : TcpConnection) (op : TcpOp) (a : Answers) (k : Kernel) :
    Prop :=
  ∀ st conn' k', (conn.operate op).run a k = .ok ((st, conn'), k') → st ≠ .success → conn' = conn

theorem TcpConnection.disconnect_success {conn : TcpConnection}
    (hr : conn.disconnect.run a k = .ok ((st, conn'), k')) : st = .success := by
  cases hs : conn.socket with
  | none =>
    rw [disconnect, hs] at hr
    cases hr
  | some s =>
    obtain ⟨k'', hr'⟩ := TcpConnection.disconnect_attached hs a k
    cases hr.symm.trans hr'
    rfl

theorem TcpConnection.failsCleanly (conn : TcpConnection) (op : TcpOp) (a : Answers)
    (k : Kernel) : conn.FailsCleanly op a k := by
  intro st conn' k' hr hst
  cases op with
  | accept socket =>
    have hacc : conn.accept socket = (st, conn') := congrArg Prod.fst (Except.ok.inj hr)
    cases hs : conn.socket with
    | none =>
      rw [TcpConnection.accept, hs] at hacc
      exact absurd (congrArg Prod.fst hacc).symm hst
    | some s =>
      rw [TcpConnection.accept_attached hs] at hacc
      exact (congrArg Prod.snd hacc).symm
  | connect ip port =>
    cases hr
    rfl
  | send data =>
    rw [TcpConnection.operate, Routine.run_bind] at hr
    split at hr
    · cases hr
      rfl
    · cases hr
  | disconnect => exact absurd (TcpConnection.disconnect_success hr) hst

theorem SocketRun.step_fd {r r' : SocketRun} (h : -1 ≤ r.socket.fd) (hr : r.step i = .ok r') :
    -1 ≤ r'.socket.fd := by
  cases i with
  | call op a =>
    obtain ⟨res, k', calls, hrun, -, hout⟩ := r.socket.operate_ends op a r.kernel
    rw [SocketRun.step, Socket.perform_of_operate hrun] at hr
    cases hr
    exact hout.fd h
  | elsewhere fd f =>
    simp only [SocketRun.step] at hr
    split at hr
    · cases hr
      exact h
    · cases hr
      exact h

/-- In every state that a socket reaches, and in every state of a connection, an operation that
fails leaves no trace in the object. -/
theorem failsCleanly_reached {socket : Socket} (hmade : socket.Made)
    (hrun : Machine.run SocketRun.step ⟨socket, k, []⟩ is = .ok r) :
    (∀ op a, r.socket.FailsCleanly op a r.kernel) ∧
      ∀ (conn : TcpConnection) (op : TcpOp) (a : Answers) (k : Kernel),
        conn.FailsCleanly op a k := by
  have hfd : -1 ≤ r.socket.fd :=
    Machine.run_invariant (I := fun r => -1 ≤ r.socket.fd)
      (fun _ _ _ h hr => SocketRun.step_fd h hr) hmade.fd hrun
  exact ⟨fun op a => Socket.failsCleanly_of_fd hfd op a r.kernel, TcpConnection.failsCleanly⟩

theorem failsCleanly_reached_opened :
    ∃ r, Machine.run SocketRun.step ⟨.createWith .tcpSocket, .boot, []⟩
        [.call .init { socket := some 3 }] = .ok r ∧
      (∀ op a, r.socket.FailsCleanly op a r.kernel) ∧
      ∀ (conn : TcpConnection) (op : TcpOp) (a : Answers) (k : Kernel),
        conn.FailsCleanly op a k := by
  obtain ⟨r, hr, -⟩ := Machine.run_total SocketRun.step_tracks
    (SocketRun.start_tracks (some .tcpSocket) .boot) [.call .init { socket := some 3 }]
  exact ⟨r, hr, failsCleanly_reached (.createWith .tcpSocket) hr⟩

end Gortsp
