import Gortsp.Socket

namespace Gortsp
set_option autoImplicit true

structure TcpConnection where
  remoteIp : StdString
  remotePort : UInt16
  localIp : StdString
  localPort : UInt16
  socket : Option Socket
  deriving DecidableEq

namespace TcpConnection

def create : TcpConnection := ⟨.empty, 0, .empty, 0, none⟩

def fd (conn : TcpConnection) : Int :=
  match conn.socket with
  | some socket => socket.fd
  | none => -1

def connected (conn : TcpConnection) : Bool :=
  match conn.socket with
  | some socket => socket.connected
  | none => false

def Owns (conn : TcpConnection) (fd : Int) : Prop := conn.fd = fd ∧ conn.connected = true

def accept (conn : TcpConnection) (socket : Option Socket) : RtspStatus × TcpConnection :=
  if conn.socket.isSome then (.multiOperator, conn)
  else (.success, { conn with socket })

/-- The branch that creates a socket is compiled out. -/
def connect (conn : TcpConnection) (_remoteIp : StdString) (_remotePort : UInt16) : RtspStatus :=
  if conn.socket.isSome then .multiOperator else .success

def disconnect (conn : TcpConnection) : Sys (RtspStatus × TcpConnection) := do
  let (status, socket) ← (← Routine.deref .nullDeref conn.socket).disconnect
  return (status, { conn with socket := some socket })

def send (conn : TcpConnection) (data : StdString) : Sys RtspStatus := do
  (← Routine.deref .nullDeref conn.socket).send data

def destroy (conn : TcpConnection) : Sys Unit := do
  let (_, conn) ← conn.disconnect
  match conn.socket with
  | some socket => socket.destroy
  | none => pure ()

def ofAccept (n : Int) : TcpConnection :=
  { create with socket := some (Socket.createFromAccept n) }

/-- The second close, by the destructor of the socket, finds the descriptor given back. -/
theorem destroy_open {conn : TcpConnection} (hs : conn.socket = some s) (h : s.fd ≥ 0) :
    conn.destroy.run a k = .ok ((), (k.release s.fd).record (.close s.fd)) := by
  have hclosed : s.closed.fd < 0 := (by decide : (-1 : Int) < 0)
  simp only [destroy, disconnect, hs, Routine.deref_some, Routine.run_bind, Routine.run_pure,
    Socket.disconnect, Socket.close_open h, Socket.destroy_closed hclosed]

end TcpConnection

/-- The kernel's answer is handed to `conn` without a test, and the result of the hand-over is
dropped. -/
def Socket.accept (s : Socket) (conn : Option TcpConnection) :
    Sys (RtspStatus × Socket × Option TcpConnection) := do
  if s.type ≠ .tcpSocket ∨ s.stat ≠ .listened then
    return (.illegalParams, s, conn)
  let s := s.changeStatus .accepting
  let fd ← Sys.accept s.fd
  let connsock := Socket.createFromAccept fd
  let conn ← Routine.deref .nullDeref conn
  let (status, conn) := conn.accept (some connsock)
  -- `connsock` goes out of scope here; when `conn` refused it, this was its last owner
  if status ≠ .success then
    connsock.destroy
  return (.success, s, some conn)

theorem Socket.accept_refused {s : Socket} (h : s.type ≠ .tcpSocket ∨ s.stat ≠ .listened) :
    (s.accept conn).run a k = .ok ((.illegalParams, s, conn), k) := by
  simp only [Socket.accept, if_pos h, Routine.run_pure]

theorem Socket.accept_given {s : Socket} (ht : s.type = .tcpSocket) (hs : s.stat = .listened)
    (hc : conn.socket = none) (hr : (Sys.accept s.fd).run a k = .ok (n, k')) :
    (s.accept (some conn)).run a k = .ok ((.success, { s with stat := .accepting },
      some { conn with socket := some (Socket.createFromAccept n) }), k') := by
  have hg : ¬(s.type ≠ .tcpSocket ∨ s.stat ≠ .listened) := by simp [ht, hs]
  simp only [Socket.accept, if_neg hg, Routine.run_bind, Socket.changeStatus, hr,
    Routine.deref_some, Routine.run_pure, TcpConnection.accept, hc]
  rfl

theorem Socket.accept_dropped {s : Socket} (ht : s.type = .tcpSocket) (hs : s.stat = .listened)
    (hc : conn.socket.isSome) (hr : (Sys.accept s.fd).run a k = .ok (n, k'))
    (hd : (Socket.createFromAccept n).destroy.run a k' = .ok ((), k'')) :
    (s.accept (some conn)).run a k =
      .ok ((.success, { s with stat := .accepting }, some conn), k'') := by
  have hg : ¬(s.type ≠ .tcpSocket ∨ s.stat ≠ .listened) := by simp [ht, hs]
  have hm : RtspStatus.multiOperator ≠ .success := by decide
  simp only [Socket.accept, if_neg hg, Routine.run_bind, Socket.changeStatus, hr,
    Routine.deref_some, Routine.run_pure, TcpConnection.accept, hc, if_true, if_pos hm, hd]

end Gortsp
