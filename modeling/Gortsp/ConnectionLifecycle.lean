import Gortsp.SocketSimulation

namespace Gortsp
set_option autoImplicit true

inductive TcpOp where
  | accept (socket : Option Socket)
  | connect (remoteIp : StdString) (remotePort : UInt16)
  | send (data : StdString)
  | disconnect

def TcpConnection.operate (conn : TcpConnection) : TcpOp → Sys (RtspStatus × TcpConnection)
  | .accept socket => return conn.accept socket
  | .connect remoteIp remotePort => return (conn.connect remoteIp remotePort, conn)
  | .send data => do
    let status ← conn.send data
    return (status, conn)
  | .disconnect => conn.disconnect

/-- What the caller of `accept` promises: a socket that owns an open connection. -/
def TcpOp.Offers : TcpOp → Prop
  | .accept socket => ∃ s, socket = some s ∧ s.connected = true ∧ 0 ≤ s.fd
  | _ => True

inductive Link where
  | never
  | linked
  | closed
  deriving DecidableEq

def Link.after (link : Link) (op : TcpOp) (st : RtspStatus) : Link :=
  match link, op with
  | .never, .accept _ => if st = .success then .linked else .never
  | .never, .connect _ _ => if st = .success then .linked else .never
  | .linked, .disconnect => .closed
  | link, _ => link

structure ConnectionRun where
  conn : TcpConnection
  kernel : Kernel
  link : Link

namespace ConnectionRun

def start (k : Kernel) : ConnectionRun := ⟨.create, k, .never⟩

def step (r : ConnectionRun) (i : TcpOp × Answers) : Except Fault ConnectionRun :=
  ((r.conn.operate i.1).run i.2 r.kernel).map fun ((status, conn), kernel) =>
    ⟨conn, kernel, r.link.after i.1 status⟩

/-- The operation returns and keeps the socket that is attached, and `connected` tells how far
the connection is. -/
def Orderly (r : ConnectionRun) (i : TcpOp × Answers) : Prop :=
  ∃ r', r.step i = .ok r' ∧
    (∀ s, r.conn.socket = some s →
      r'.conn.socket = some s ∨ i.1 = .disconnect ∧ r'.conn.socket = some s.closed) ∧
    (r'.conn.connected = true ↔ r'.link = .linked) ∧
    (r'.conn.connected = true → 0 ≤ r'.conn.fd)

def Lawful (k : Kernel) (ops : List (TcpOp × Answers)) (a : Answers) : Prop :=
  Machine.Along step Orderly (start k) ops ∧
    ∃ r k', Machine.run step (start k) ops = .ok r ∧ r.conn.destroy.run a r.kernel = .ok ((), k')

/-- A socket is attached; it is open until the connection is over. -/
inductive Attached : ConnectionRun → Prop where
  | linked {conn : TcpConnection} {k : Kernel} {s : Socket} (hs : conn.socket = some s)
      (hc : s.connected = true) (hfd : 0 ≤ s.fd) : Attached ⟨conn, k, .linked⟩
  | closed {conn : TcpConnection} {k : Kernel} {s : Socket} (hs : conn.socket = some s.closed) :
      Attached ⟨conn, k, .closed⟩

end ConnectionRun

section Operations

variable {conn : TcpConnection} {s : Socket} {k : Kernel} {a : Answers}

theorem TcpConnection.accept_attached (hs : conn.socket = some s) (socket : Option Socket) :
    conn.accept socket = (.multiOperator, conn) := by
  rw [accept, if_pos (Option.isSome_of_eq_some hs)]

theorem TcpConnection.send_attached (hs : conn.socket = some s) (data : StdString)
    (a : Answers) (k : Kernel) : ∃ st k', (conn.send data).run a k = .ok (st, k') := by
  obtain ⟨st, k', hr, -⟩ := s.send_steady data a k
  refine ⟨st, k', ?_⟩
  rw [send, hs, Routine.deref_some, Routine.run_bind_ok (Routine.run_pure _ _ _), hr]

theorem Socket.disconnect_closed (s : Socket) (a : Answers) (k : Kernel) :
    ∃ k', s.disconnect.run a k = .ok ((.success, s.closed), k') := by
  by_cases hfd : s.fd < 0
  · exact ⟨k, close_closed hfd⟩
  · exact ⟨_, close_open (Int.not_lt.1 hfd)⟩

theorem TcpConnection.disconnect_attached (hs : conn.socket = some s) (a : Answers)
    (k : Kernel) : ∃ k', conn.disconnect.run a k =
      .ok ((.success, { conn with socket := some s.closed }), k') := by
  obtain ⟨k', hr⟩ := s.disconnect_closed a k
  refine ⟨k', ?_⟩
  rw [disconnect, hs, Routine.deref_some, Routine.run_bind_ok (Routine.run_pure _ _ _),
    Routine.run_bind_ok hr]
  rfl

theorem TcpConnection.destroy_attached (hs : conn.socket = some s) (a : Answers) (k : Kernel) :
    ∃ k', conn.destroy.run a k = .ok ((), k') := by
  obtain ⟨k', hr⟩ := TcpConnection.disconnect_attached hs a k
  have hclosed : s.closed.fd < 0 := (by decide : (-1 : Int) < 0)
  refine ⟨k', ?_⟩
  rw [destroy, Routine.run_bind_ok hr]
  exact Socket.destroy_closed hclosed

end Operations

namespace ConnectionRun

theorem step_ok {r : ConnectionRun} {c : TcpConnection}
    (h : (r.conn.operate op).run a r.kernel = .ok ((st, c), k)) :
    r.step (op, a) = .ok ⟨c, k, r.link.after op st⟩ := by
  rw [step, h]
  rfl

theorem Attached.socket {r : ConnectionRun} (h : r.Attached) :
    ∃ s, r.conn.socket = some s ∧ r.link ≠ .never := by
  cases h with
  | linked hs hc hfd => exact ⟨_, hs, (by decide : Link.linked ≠ .never)⟩
  | closed hs => exact ⟨_, hs, (by decide : Link.closed ≠ .never)⟩

theorem Attached.observed {r : ConnectionRun} (h : r.Attached) :
    (r.conn.connected = true ↔ r.link = .linked) ∧
      (r.conn.connected = true → 0 ≤ r.conn.fd) := by
  cases h with
  | linked hs hc hfd =>
    simp only [TcpConnection.connected, TcpConnection.fd, hs, hc, hfd, implies_true, and_self]
  | closed hs => simp [TcpConnection.connected, hs, Socket.closed]

theorem Attached.kept {r : ConnectionRun} (h : r.Attached) (hop : op ≠ .disconnect)
    (a : Answers) : ∃ k, r.step (op, a) = .ok { r with kernel := k } := by
  obtain ⟨s, hs, hlink⟩ := h.socket
  have hafter (st : RtspStatus) : r.link.after op st = r.link := by
    cases hl : r.link with
    | never => exact absurd hl hlink
    | closed => rfl
    | linked =>
      cases op with
      | disconnect => exact absurd rfl hop
      | _ => rfl
  have hrun : ∃ st k, (r.conn.operate op).run a r.kernel = .ok ((st, r.conn), k) := by
    cases op with
    | accept socket =>
      rw [TcpConnection.operate, TcpConnection.accept_attached hs]
      exact ⟨_, _, rfl⟩
    | connect ip port => exact ⟨_, _, rfl⟩
    | send data =>
      obtain ⟨st, k, hr⟩ := TcpConnection.send_attached hs data a r.kernel
      exact ⟨st, k, Routine.run_bind_ok hr _⟩
    | disconnect => exact absurd rfl hop
  obtain ⟨st, k, hr⟩ := hrun
  refine ⟨k, ?_⟩
  rw [step_ok hr, hafter]

theorem Attached.with_kernel {r : ConnectionRun} (h : r.Attached) (k : Kernel) :
    Attached { r with kernel := k } := by
  cases h with
  | linked hs hc hfd => exact .linked hs hc hfd
  | closed hs => exact .closed hs

theorem Attached.disconnected {r : ConnectionRun} (h : r.Attached) (a : Answers) :
    ∃ s k, r.conn.socket = some s ∧ r.step (.disconnect, a) =
      .ok ⟨{ r.conn with socket := some s.closed }, k, .closed⟩ := by
  obtain ⟨s, hs, hlink⟩ := h.socket
  obtain ⟨k, hr⟩ := TcpConnection.disconnect_attached hs a r.kernel
  refine ⟨s, k, hs, ?_⟩
  have hafter : r.link.after .disconnect .success = .closed := by
    cases hl : r.link with
    | never => exact absurd hl hlink
    | linked => rfl
    | closed => rfl
  have hrun : (r.conn.operate .disconnect).run a r.kernel =
      .ok ((.success, { r.conn with socket := some s.closed }), k) := hr
  rw [step_ok hrun, hafter]

theorem Attached.step {r : ConnectionRun} (h : r.Attached) (i : TcpOp × Answers) :
    r.Orderly i ∧ ∃ r', r.step i = .ok r' ∧ r'.Attached := by
  obtain ⟨op, a⟩ := i
  by_cases hop : op = .disconnect
  · subst hop
    obtain ⟨s, k, hs, hstep⟩ := h.disconnected a
    have hclosed : Attached ⟨{ r.conn with socket := some s.closed }, k, .closed⟩ := .closed rfl
    refine ⟨⟨_, hstep, ?_, hclosed.observed⟩, _, hstep, hclosed⟩
    intro s' hs'
    rw [hs] at hs'
    cases hs'
    exact .inr ⟨rfl, rfl⟩
  · obtain ⟨k, hstep⟩ := h.kept hop a
    have hkept := h.with_kernel k
    exact ⟨⟨_, hstep, fun s hs => .inl hs, hkept.observed⟩, _, hstep, hkept⟩

theorem Attached.run {r : ConnectionRun} (h : r.Attached) (ops : List (TcpOp × Answers))
    (a : Answers) : Machine.Along ConnectionRun.step Orderly r ops ∧
      ∃ r' k', Machine.run ConnectionRun.step r ops = .ok r' ∧
        r'.conn.destroy.run a r'.kernel = .ok ((), k') := by
  constructor
  · apply Machine.along_of_invariant (I := Attached) (fun r i hr => (hr.step i).1) _ h
    intro r i t hr ht
    obtain ⟨r', hr', hI⟩ := (hr.step i).2
    cases ht.symm.trans hr'
    exact hI
  · obtain ⟨r', hr', hI⟩ := Machine.run_total (fun r i hr => (Attached.step hr i).2) h ops
    obtain ⟨s, hs, -⟩ := hI.socket
    obtain ⟨k', hd⟩ := TcpConnection.destroy_attached hs a r'.kernel
    exact ⟨r', k', hr', hd⟩

theorem start_accept (k : Kernel) (socket : Option Socket) (a : Answers) :
    (start k).step (.accept socket, a) =
      .ok ⟨{ TcpConnection.create with socket := socket }, k, .linked⟩ := rfl

theorem Orderly.accepts {k : Kernel} (h : (start k).Orderly (op, a)) :
    ∃ socket, op = .accept socket := by
  obtain ⟨r', hstep, -, hlinked, -⟩ := h
  cases op with
  | accept socket => exact ⟨socket, rfl⟩
  | connect ip port =>
    cases hstep
    cases hlinked.2 rfl
  | send data => cases hstep
  | disconnect => cases hstep

/-- The calls on a connection and its destruction are in order exactly when `accept` is called
first. -/
theorem lawful_iff (k : Kernel) (ops : List (TcpOp × Answers)) (a : Answers)
    (hoffers : ∀ c ∈ ops, c.1.Offers) :
    Lawful k ops a ↔ ∃ socket a₀ rest, ops = (.accept socket, a₀) :: rest := by
  constructor
  · intro h
    obtain ⟨halong, r, k', hrun, hd⟩ := h
    cases ops with
    | nil =>
      cases hrun
      cases hd
    | cons c rest =>
      obtain ⟨op, a₀⟩ := c
      obtain ⟨socket, rfl⟩ := halong.1.accepts
      exact ⟨socket, a₀, rest, rfl⟩
  · intro h
    obtain ⟨socket, a₀, rest, rfl⟩ := h
    obtain ⟨s, rfl, hc, hfd⟩ := hoffers _ List.mem_cons_self
    have hstep := start_accept k (some s) a₀
    have hI : Attached ⟨{ TcpConnection.create with socket := some s }, k, .linked⟩ :=
      .linked rfl hc hfd
    obtain ⟨halong, r, k', hrun, hd⟩ := hI.run rest a
    refine ⟨⟨⟨_, hstep, fun s' hs' => ?_, hI.observed⟩, ?_⟩, r, k', ?_, hd⟩
    · cases hs'
    · intro t ht
      cases ht.symm.trans hstep
      exact halong
    · rw [Machine.run_cons_ok hstep, hrun]

theorem lawful_iff_accepted :
    Lawful .boot [(.accept (some (.createFromAccept 5)), {}), (.disconnect, {})] {} ↔
      ∃ socket a₀ rest, [(TcpOp.accept (some (.createFromAccept 5)), ({} : Answers)),
        (.disconnect, {})] = (.accept socket, a₀) :: rest := by
  apply lawful_iff
  intro c hc
  rcases List.mem_cons.1 hc with rfl | hc
  · exact ⟨_, rfl, rfl, by decide⟩
  · cases List.mem_singleton.1 hc
    trivial

theorem not_lawful_unused : ¬Lawful .boot [] {} := by
  intro h
  obtain ⟨-, r, k', hrun, hd⟩ := h
  cases hrun
  cases hd

end ConnectionRun

end Gortsp
