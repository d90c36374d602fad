import ZooKeeperServer.Transition.Machine
import ZooKeeperServer.SessionStore.Turns
import ZooKeeperServer.SessionStore.ReaperIndependence
import ZooKeeperServer.SessionStore.Ownership
import ZooKeeperServer.Streaming.Transcript
import ZooKeeperServer.Http.Answers
import ZooKeeperServer.Service.FailureAtomicity
import ZooKeeperServer.Service.Release
import ZooKeeperServer.Service.InFlight
import ZooKeeperServer.Service.SystemPrompt
import ZooKeeperServer.Service.Appending
import ZooKeeperServer.Service.RoleOrder
import ZooKeeperServer.Service.Conversations
import ZooKeeperServer.Service.PublicRequests
import ZooKeeperServer.Server.Executor
import ZooKeeperServer.Server.ToolCapture
import ZooKeeperServer.Server.Auth
import ZooKeeperServer.Server.MessageGrammar
import ZooKeeperServer.Server.ToolPath
import ZooKeeperServer.Server.IntegerRange
import ZooKeeperServer.Streaming.TokenSplit
import ZooKeeperServer.Service.PromptAlignment
import ZooKeeperServer.SessionStore.Representation
import ZooKeeperServer.SessionStore.Trimming
import ZooKeeperServer.Server.ToolSchema
import ZooKeeperServer.Http.Metrics
import ZooKeeperServer.Http.DisconnectRegistry
import ZooKeeperServer.Service.HistoryReports
import ZooKeeperServer.SessionStore.Linearizable
import ZooKeeperServer.Server.Runtime
import ZooKeeperServer.Http.StreamWatch
import ZooKeeperServer.Server.ToolProcesses
import ZooKeeperServer.Streaming.ReadBack
import ZooKeeperServer.Streaming.Overtaking
import ZooKeeperServer.Service.SessionOrder
import ZooKeeperServer.Service.Sourcing
import ZooKeeperServer.Http.SessionAnswers
