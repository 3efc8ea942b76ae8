import Gortsp.Routine
import Gortsp.Machine
import Gortsp.Ledger
import Gortsp.Platform
import Gortsp.Socket
import Gortsp.TcpConnection
import Gortsp.SocketOutcome
import Gortsp.SocketSimulation
import Gortsp.SendLaw
import Gortsp.CharArray
import Gortsp.EventHandler
import Gortsp.DrainLoop
import Gortsp.EventRouting
import Gortsp.TcpServer
import Gortsp.ServerInit
import Gortsp.ServerInitLaws
import Gortsp.ServerPhases
import Gortsp.ServerClients
import Gortsp.ServerTeardown
import Gortsp.ReadDelivery
import Gortsp.SocketGuards
import Gortsp.AcceptReport
import Gortsp.ConnectionLifecycle
import Gortsp.SocketFailures
import Gortsp.BindAddress
import Gortsp.ServerLimit
import Gortsp.Logger
import Gortsp.LoggerThreads
import Gortsp.LoggerConfig
import Gortsp.Termination
import Gortsp.Executor
import Gortsp.ThreadPool
import Gortsp.PoolSteps
import Gortsp.PoolRuns
import Gortsp.Batcher
import Gortsp.EchoServer
import Gortsp.EchoNetwork
import Gortsp.PatternFormatter
import Gortsp.PatternItems
import Gortsp.LogLine
import Gortsp.LogLineFields
import Gortsp.LogLineRuns
import Gortsp.LoggerLines
import Gortsp.LogWorld
import Gortsp.LogSinks
import Gortsp.LogCalls
import Gortsp.LogDelivery
import Gortsp.LogWorldRuns
import Gortsp.PeriodicWorker
import Gortsp.FlusherRuns
import Gortsp.ServerMain
import Gortsp.FileTree
import Gortsp.LogFile
import Gortsp.LogFileTouches
import Gortsp.LogFileOpening
