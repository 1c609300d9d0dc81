import Picoclaw.Go.Map
import Picoclaw.Go.Strings
import Picoclaw.Go.Float
import Picoclaw.Go.Json
import Picoclaw.Go.Runtime
import Picoclaw.Go.Filepath
import Picoclaw.Go.Url
import Picoclaw.Go.Calendar
import Picoclaw.Go.Os
import Picoclaw.Mcp.Manager
import Picoclaw.Mcp.Catalog
import Picoclaw.Mcp.Lifecycle
import Picoclaw.Mcp.Protocol
import Picoclaw.Tools.Mcp
import Picoclaw.Tools.MemoryBrowse
import Picoclaw.Memory.Archive
import Picoclaw.Memory.Search
import Picoclaw.Dashboard.Activity
import Picoclaw.Dashboard.ConfigApi
import Picoclaw.Dashboard.Schema
import Picoclaw.Orchestrator.Family
import Picoclaw.Orchestrator.Mailbox
import Picoclaw.Orchestrator.Main
import Picoclaw.Providers.Schedule
import Picoclaw.Safety.Filter
import Picoclaw.Gateway.Webhook
import Picoclaw.Qdrant.Address
import Picoclaw.Qdrant.Client
import Picoclaw.Memory.Isolation
import Picoclaw.Memory.Embedding
