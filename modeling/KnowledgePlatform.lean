import KnowledgePlatform.Api.Agreement
import KnowledgePlatform.Api.Auth
import KnowledgePlatform.Api.AuthEffects
import KnowledgePlatform.Api.AuthLimits
import KnowledgePlatform.Api.BudgetStatus
import KnowledgePlatform.Api.Chat
import KnowledgePlatform.Api.ChatStream
import KnowledgePlatform.Api.ConnectionPool
import KnowledgePlatform.Api.Conversation
import KnowledgePlatform.Api.Deps
import KnowledgePlatform.Api.Filenames
import KnowledgePlatform.Api.OAuthClients
import KnowledgePlatform.Api.OfflineChat
import KnowledgePlatform.Api.RefreshRaces
import KnowledgePlatform.Api.Requests
import KnowledgePlatform.Api.Routers
import KnowledgePlatform.Api.Schemas
import KnowledgePlatform.Api.Security
import KnowledgePlatform.Api.Sse
import KnowledgePlatform.Api.UserManagement
import KnowledgePlatform.Api.VendorChat
import KnowledgePlatform.Core.BudgetAlerts
import KnowledgePlatform.Core.ChunkSizes
import KnowledgePlatform.Core.Chunking
import KnowledgePlatform.Core.Citations
import KnowledgePlatform.Core.Config
import KnowledgePlatform.Core.CostDrift
import KnowledgePlatform.Core.Db
import KnowledgePlatform.Core.FakeEmbeddings
import KnowledgePlatform.Core.GreedyPacking
import KnowledgePlatform.Core.Ingestion
import KnowledgePlatform.Core.Llm
import KnowledgePlatform.Core.LlmStreams
import KnowledgePlatform.Core.Models
import KnowledgePlatform.Core.Pricing
import KnowledgePlatform.Core.Prompts
import KnowledgePlatform.Core.RankFusion
import KnowledgePlatform.Core.RateLimit
import KnowledgePlatform.Core.Retrieval
import KnowledgePlatform.Core.SearchHits
import KnowledgePlatform.Core.Sources
import KnowledgePlatform.Core.Usage
import KnowledgePlatform.Foundations.Archives
import KnowledgePlatform.Foundations.Counters
import KnowledgePlatform.Foundations.FeatureHashing
import KnowledgePlatform.Foundations.Framing
import KnowledgePlatform.Foundations.Generators
import KnowledgePlatform.Foundations.Groups
import KnowledgePlatform.Foundations.Lexing
import KnowledgePlatform.Foundations.Lineage
import KnowledgePlatform.Foundations.Noninterference
import KnowledgePlatform.Foundations.Numeric
import KnowledgePlatform.Foundations.Paging
import KnowledgePlatform.Foundations.Pool
import KnowledgePlatform.Foundations.Program
import KnowledgePlatform.Foundations.Referential
import KnowledgePlatform.Foundations.Relational
import KnowledgePlatform.Foundations.Revisions
import KnowledgePlatform.Foundations.RowSecurity
import KnowledgePlatform.Foundations.Runs
import KnowledgePlatform.Foundations.Scoreboard
import KnowledgePlatform.Foundations.SqlLexer
import KnowledgePlatform.Foundations.Tenancy
import KnowledgePlatform.Foundations.Transactions
import KnowledgePlatform.Foundations.Windows
import KnowledgePlatform.Migrations.Catalog
import KnowledgePlatform.Migrations.Commands
import KnowledgePlatform.Migrations.Deployment
import KnowledgePlatform.Migrations.Versions
import KnowledgePlatform.Platform.Accounting
import KnowledgePlatform.Platform.Accounts
import KnowledgePlatform.Platform.ApiKeys
import KnowledgePlatform.Platform.Authorization
import KnowledgePlatform.Platform.Documents
import KnowledgePlatform.Platform.Erasure
import KnowledgePlatform.Platform.History
import KnowledgePlatform.Platform.IngestionEvents
import KnowledgePlatform.Platform.IngestionRuns
import KnowledgePlatform.Platform.Isolation
import KnowledgePlatform.Platform.Lineages
import KnowledgePlatform.Platform.Noninterference
import KnowledgePlatform.Platform.Privileges
import KnowledgePlatform.Platform.Provenance
import KnowledgePlatform.Platform.StoredValues
import KnowledgePlatform.Platform.UploadRaces
import KnowledgePlatform.Platform.UsagePages
import KnowledgePlatform.Platform.World
import KnowledgePlatform.Python.Datetime
import KnowledgePlatform.Python.Decimal
import KnowledgePlatform.Python.Repr
import KnowledgePlatform.Python.Text
import KnowledgePlatform.Python.Uuid
import KnowledgePlatform.Scripts.PrepareDb
import KnowledgePlatform.Web.Answers
import KnowledgePlatform.Web.AuthContext
import KnowledgePlatform.Web.Chat
import KnowledgePlatform.Web.CitationParts
import KnowledgePlatform.Web.CitationText
import KnowledgePlatform.Web.Client
import KnowledgePlatform.Web.DoneFrames
import KnowledgePlatform.Web.SendBridge
import KnowledgePlatform.Web.Sends
import KnowledgePlatform.Web.Sessions
import KnowledgePlatform.Web.Uploads
import KnowledgePlatform.Worker.Deliveries
import KnowledgePlatform.Worker.Webhooks
