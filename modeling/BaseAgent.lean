import BaseAgent.Async.Program
import BaseAgent.Async.Pool
import BaseAgent.Models.Python
import BaseAgent.Models.Run
import BaseAgent.Flows.Models
import BaseAgent.Flows.Lifecycle
import BaseAgent.Flows.Repository
import BaseAgent.Flows.Lease
import BaseAgent.Flows.Protocol
import BaseAgent.Flows.Service
import BaseAgent.Flows.EventLog
import BaseAgent.Flows.Budget
import BaseAgent.Flows.Sequential
import BaseAgent.Flows.Recovery
import BaseAgent.Flows.Transport
import BaseAgent.Flows.Cancellation
import BaseAgent.Flows.Work
import BaseAgent.Flows.Worker
import BaseAgent.Runtime.Models
import BaseAgent.Runtime.Supervision
import BaseAgent.Runtime.Protocol
import BaseAgent.Runtime.Tools
import BaseAgent.Runtime.Strategy
import BaseAgent.Runtime.Engine
import BaseAgent.Runtime.Handle
import BaseAgent.Runtime.Script
import BaseAgent.Runtime.Walk
import BaseAgent.Runtime.Transcript
import BaseAgent.Runtime.Budget
import BaseAgent.Runtime.Termination
import BaseAgent.Flows.SideEffects
import BaseAgent.Flows.ToolEffects
import BaseAgent.Flows.Delivery
import BaseAgent.Flows.WorkHistory
import BaseAgent.Runtime.Conversations
import BaseAgent.Runtime.Subscriptions
import BaseAgent.Providers.Cli
import BaseAgent.Flows.Propagation
import BaseAgent.Graphs.DepthFirst
import BaseAgent.Models.Plan
import BaseAgent.Planning.Plans
import BaseAgent.Planning.Hooks
import BaseAgent.Planning.Strategy
import BaseAgent.Planning.Engine
import BaseAgent.Text.Json
import BaseAgent.Text.Lexing
import BaseAgent.Models.Lines
import BaseAgent.Planning.Fences
import BaseAgent.Providers.JsonLines
import BaseAgent.Models.JsonText
import BaseAgent.Models.Prefixes
import BaseAgent.DataSources.Query
import BaseAgent.Async.Observer
import BaseAgent.Planning.Course
import BaseAgent.Planning.Rounds
import BaseAgent.Planning.Execution
import BaseAgent.Planning.Lineage
import BaseAgent.Planning.Operations
import BaseAgent.Planning.Refusal
import BaseAgent.Planning.History
import BaseAgent.Planning.Offers
import BaseAgent.Planning.Progress
import BaseAgent.Planning.Impasse
import BaseAgent.Planning.Advance
import BaseAgent.Planning.Coherence
import BaseAgent.Planning.Interruption
import BaseAgent.Planning.Terminal
import BaseAgent.Flows.Accounting
import BaseAgent.Flows.Settlement
import BaseAgent.Flows.Rejection
import BaseAgent.Flows.Enforcement
import BaseAgent.Flows.Straight
import BaseAgent.Flows.Transparency
import BaseAgent.Raft.Models
import BaseAgent.Raft.Parser
import BaseAgent.Raft.State
import BaseAgent.Raft.Worker
import BaseAgent.Raft.Course
import BaseAgent.Raft.Inbox
import BaseAgent.Raft.Recovery
import BaseAgent.Postgres.Rows
import BaseAgent.Postgres.Subscription
import BaseAgent.Models.Uuid
import BaseAgent.Postgres.WorkSource
import BaseAgent.Postgres.WorkAgreement
import BaseAgent.Postgres.FlowRepository
import BaseAgent.Postgres.RepositoryAgreement
import BaseAgent.DataSources.SqlGuard
import BaseAgent.DataSources.SqlWrapper
import BaseAgent.Resources.Manager
import BaseAgent.Resources.Release
import BaseAgent.Toolkits.Workspace
import BaseAgent.Raft.Rule
import BaseAgent.Runtime.Resumption
import BaseAgent.Raft.Rendering
import BaseAgent.Raft.Replies
import BaseAgent.Raft.FollowUps
import BaseAgent.Raft.Host
import BaseAgent.Text.Writing
import BaseAgent.Models.JsonReading
import BaseAgent.Runtime.Issued
import BaseAgent.Providers.OpenAiChat
import BaseAgent.DataSources.Document
