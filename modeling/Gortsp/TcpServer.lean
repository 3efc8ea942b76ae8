import Gortsp.EventRouting
import Gortsp.Machine
import Gortsp.TcpConnection
import Mathlib.Data.List.AList

namespace Gortsp
set_option autoImplicit true

/-- The members of `TcpServer` whose addresses are registered as an `EventCb*`. -/
inductive EventCb where
  | onConnectFunc
  | onDisconnectFunc
  deriving DecidableEq, Repr

inductive IOEventCb where
  | onReadFunc
  deriving DecidableEq, Repr

inductive EventMethod where
  | onConnect
  | onDiconnect
  deriving DecidableEq, Repr

inductive IOEventMethod where
  | onRead
  deriving DecidableEq, Repr

/-- Before `init` the three `std::function` members are empty. -/
structure TcpServer where
  serverSocket : Socket
  maxConnections : UInt16
  connections : AList fun _ : Int => TcpConnection
  taskScheduler : TaskScheduler EventCb IOEventCb
  onConnectFunc : Option EventMethod
  onReadFunc : Option IOEventMethod
  onDisconnectFunc : Option EventMethod

/-- `unordered_map::insert` keeps the entry of a key that is present. -/
def insertNew (m : AList fun _ : Int => TcpConnection) (fd : Int) (conn : TcpConnection) :
    AList fun _ : Int => TcpConnection :=
  if fd ∈ m then m else m.insert fd conn

def welcome : StdString := ⟨"Welcome to my server".toUTF8.data.toList, by decide⟩

def allAddresses : StdString := ⟨"0.0.0.0".toUTF8.data.toList, by decide⟩

namespace TcpServer

def createWith (maxConnections : UInt16) : TcpServer where
  serverSocket := .createWith .tcpSocket
  maxConnections := maxConnections
  connections := ∅
  taskScheduler := .create (maxConnections.toNat + 1)
  onConnectFunc := none
  onReadFunc := none
  onDisconnectFunc := none

def create : TcpServer :=
  { createWith 16 with taskScheduler := .create 17 }

def init (srv : TcpServer) (port : UInt16) : Sys (RtspStatus × TcpServer) := do
  let (status, serverSocket) ← srv.serverSocket.init
  let srv := { srv with serverSocket }
  if status ≠ .success then
    return (.internalErr, srv)
  if (← srv.serverSocket.setNonBlock) ≠ .success then
    return (.internalErr, srv)
  let (status, serverSocket) ← srv.serverSocket.bind allAddresses port
  let srv := { srv with serverSocket }
  if status ≠ .success then
    return (.internalErr, srv)
  let (status, serverSocket) ← srv.serverSocket.listen 10
  let srv := { srv with serverSocket }
  if status ≠ .success then
    return (.internalErr, srv)
  let srv := { srv with onConnectFunc := some .onConnect }
  let taskScheduler := srv.taskScheduler.registerTask srv.serverSocket.fd (some .onConnectFunc)
  let srv := { srv with taskScheduler }
  let srv := { srv with onReadFunc := some .onRead }
  let srv := { srv with onDisconnectFunc := some .onDiconnect }
  return (.success, srv)

/-- The result of `accept` is dropped. -/
def onConnect (srv : TcpServer) (_fd : Int) (_events : Int16) : Sys (RtspStatus × TcpServer) := do
  let conn := TcpConnection.create
  let (_, serverSocket, conn) ← srv.serverSocket.accept (some conn)
  let srv := { srv with serverSocket }
  let conn ← Routine.deref .nullDeref conn
  let _ ← conn.send welcome
  let present := decide (conn.fd ∈ srv.connections)
  let srv := { srv with connections := insertNew srv.connections conn.fd conn }
  let taskScheduler := srv.taskScheduler.registerIotask conn.fd (some .onReadFunc) none
    (some .onDisconnectFunc)
  let srv := { srv with taskScheduler }
  -- a connection that the table did not take ends with this scope
  if present then
    conn.destroy
  return (.success, srv)

def onRead (_srv : TcpServer) (_fd : Int) (_buff : StdString) : RtspStatus := .success

def onDiconnect (_srv : TcpServer) (_fd : Int) (_events : Int16) : RtspStatus := .success

def eventFunc (srv : TcpServer) : EventCb → Option EventMethod
  | .onConnectFunc => srv.onConnectFunc
  | .onDisconnectFunc => srv.onDisconnectFunc

def ioFunc (srv : TcpServer) : IOEventCb → Option IOEventMethod
  | .onReadFunc => srv.onReadFunc

def invoke (srv : TcpServer) : Invocation EventCb IOEventCb → Sys (RtspStatus × TcpServer)
  | .event cb n mask => do
    match ← Routine.deref .badFunctionCall (srv.eventFunc cb) with
    | .onConnect => srv.onConnect n mask
    | .onDiconnect => return (srv.onDiconnect n mask, srv)
  | .io cb n buff => do
    match ← Routine.deref .badFunctionCall (srv.ioFunc cb) with
    | .onRead => return (srv.onRead n buff, srv)

/-- One turn of the event loop of `start`; what the callbacks return is dropped. -/
def fire (srv : TcpServer) (f : Firing) : Sys TcpServer := do
  let (evtHandler, calls) ← Routine.lift (srv.taskScheduler.evtHandler.fire f)
  let srv := { srv with taskScheduler := { srv.taskScheduler with evtHandler } }
  calls.foldlM (fun srv call => do return (← srv.invoke call).2) srv

end TcpServer

/-- When libevent closes the descriptor of a bufferevent that was freed. -/
inductive CloseTiming where
  | immediately
  | atFinalisation
  deriving DecidableEq, Repr

def Bufferevent.free (bev : Bufferevent) : Sys Unit := do
  if bev.closeOnFree ∧ bev.fd ≥ 0 then
    Sys.close bev.fd

def EventBase.closeFreed (base : EventBase ε ω) : Sys Unit :=
  base.bufferEvents.forM fun be => be.ptr.free

/-- The members are destroyed in reverse order of declaration: the scheduler with its event
base, the connections, the server socket. -/
def TcpServer.destroy (srv : TcpServer) (timing : CloseTiming) : Sys Unit := do
  if timing = .immediately then
    srv.taskScheduler.evtHandler.closeFreed
  srv.connections.entries.forM fun entry => entry.2.destroy
  srv.serverSocket.destroy
  if timing = .atFinalisation then
    srv.taskScheduler.evtHandler.closeFreed

inductive ServerInput where
  | init (port : UInt16)
  | fire (f : Firing)
  deriving DecidableEq

namespace TcpServer

def step (state : TcpServer × Kernel) (i : ServerInput × Answers) :
    Except Fault (TcpServer × Kernel) :=
  match i.1 with
  | .init port => do
    let ((_, srv), k) ← (state.1.init port).run i.2 state.2
    return (srv, k)
  | .fire f => (state.1.fire f).run i.2 state.2

end TcpServer

end Gortsp
