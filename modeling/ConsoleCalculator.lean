import ConsoleCalculator.Base.Interleave
import ConsoleCalculator.Base.Exceptions
import ConsoleCalculator.Base.Machine
import ConsoleCalculator.Base.Separated
import ConsoleCalculator.Base.Assignments
import ConsoleCalculator.Base.Decimal
import ConsoleCalculator.Base.ConnInfo
import ConsoleCalculator.Base.Keyed
import ConsoleCalculator.Base.Rely
import ConsoleCalculator.Base.Simulation
import ConsoleCalculator.Base.Workers
import ConsoleCalculator.Protocol
import ConsoleCalculator.Core
import ConsoleCalculator.Storage.OperationKey
import ConsoleCalculator.Storage.Postgres
import ConsoleCalculator.Storage.Service
import ConsoleCalculator.Server.RequestHandler
import ConsoleCalculator.Server.Records
import ConsoleCalculator.Server.TryBlock
import ConsoleCalculator.Server.HandlerRuns
import ConsoleCalculator.Server.Transparency
import ConsoleCalculator.Server.Restart
import ConsoleCalculator.Server.StorageWorker
import ConsoleCalculator.Server.WorkerRuns
import ConsoleCalculator.Server.Session
import ConsoleCalculator.Server.SessionBuffer
import ConsoleCalculator.Server.Containment
import ConsoleCalculator.Server.TcpServer
import ConsoleCalculator.Server.Application
import ConsoleCalculator.Server.ApplicationRuns
import ConsoleCalculator.Server.InternalErrors
import ConsoleCalculator.Server.Shutdown
import ConsoleCalculator.Server.SingleCalls
import ConsoleCalculator.Server.CacheHits
import ConsoleCalculator.Server.Arithmetic
import ConsoleCalculator.Server.ServerConfig
import ConsoleCalculator.Server.ConfigValues
import ConsoleCalculator.Server.ConnectionString
import ConsoleCalculator.Server.AtomicService
import ConsoleCalculator.Server.ServiceRuns
import ConsoleCalculator.Server.Durability
import ConsoleCalculator.Server.ServiceAnswers
import ConsoleCalculator.Server.Connections
import ConsoleCalculator.Server.ConnectionRuns
import ConsoleCalculator.Server.Clients
import ConsoleCalculator.Server.InMemoryService
import ConsoleCalculator.Server.SignalHandler
import ConsoleCalculator.Server.Startup
import ConsoleCalculator.Server.Process
import ConsoleCalculator.Server.Main
