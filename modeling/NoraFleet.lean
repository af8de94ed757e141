import NoraFleet.TempNetworks.Expiry
import NoraFleet.TempNetworks.Listeners
import NoraFleet.TempNetworks.Deployment
import NoraFleet.Base.Ticks
import NoraFleet.Watcher.PeriodicEvents
import NoraFleet.Reservations.Accumulating
import NoraFleet.Reservations.HandOver
import NoraFleet.Reservations.WaitForOne
import NoraFleet.Base.Json
import NoraFleet.LocalStore.Files
import NoraFleet.LocalStore.Tolerance
import NoraFleet.LocalStore.Renewal
import NoraFleet.S3Store.Expiration
import NoraFleet.HttpServer.AllowedAgents
import NoraFleet.HttpServer.ServedNames
import NoraFleet.S3Store.Credentials
import NoraFleet.S3Store.Retries
import NoraFleet.Base.Runs
import NoraFleet.HttpServer.Deployments
import NoraFleet.HttpServer.Redeployed
import NoraFleet.HttpServer.BetweenSweeps
import NoraFleet.HttpServer.RecentUse
import NoraFleet.Base.Flow
import NoraFleet.Networks.AgentNetwork
import NoraFleet.HttpServer.Handlers
import NoraFleet.HttpServer.Slots
import NoraFleet.Manifests.Filters
import NoraFleet.Manifests.PeriodicSettings
import NoraFleet.Manifests.LaterWins
import NoraFleet.Base.Rounding
import NoraFleet.Base.Shortest
import NoraFleet.Base.Numerals
import NoraFleet.Base.Dumps
import NoraFleet.LocalStore.Writing
import NoraFleet.LocalStore.RoundTrip
import NoraFleet.S3Store.Storing
import NoraFleet.Stores.Mirrored
import NoraFleet.AzureStore.Blobs
import NoraFleet.AzureStore.Serving
import NoraFleet.Chat.ChatSession
import NoraFleet.Chat.EndOfStream
import NoraFleet.Base.Replace
import NoraFleet.Base.Braces
import NoraFleet.Chat.HistoryProcessor
import NoraFleet.Sessions.InvocationContext
import NoraFleet.Sessions.StreamingRequest
import NoraFleet.Sessions.Closing
import NoraFleet.Sessions.Released
import NoraFleet.Sessions.Exchanges
import NoraFleet.Sessions.Ledger
import NoraFleet.Watcher.EventWorkMonitor
import NoraFleet.Sessions.Keeping
import NoraFleet.Sessions.ClosedOnce
import NoraFleet.Messages.MessageJournal
import NoraFleet.Messages.Processors
import NoraFleet.Messages.SlyDataRedactor
import NoraFleet.Messages.Redaction
import NoraFleet.Messages.StructureParsers
import NoraFleet.Messages.Tracing
import NoraFleet.Messages.OriginatingJournal
import NoraFleet.Messages.Origins
import NoraFleet.Base.Urls
import NoraFleet.Networks.ExternalAgents
import NoraFleet.Messages.ChatMessages
import NoraFleet.RunContext.AgentChain
import NoraFleet.RunContext.ChainResults
import NoraFleet.RunContext.ToolOutputs
import NoraFleet.Messages.TextRoundTrip
import NoraFleet.Messages.ChatHistories
import NoraFleet.Base.Traversal
import NoraFleet.Networks.References
import NoraFleet.Networks.Connectivity
import NoraFleet.Base.Keys
import NoraFleet.Base.Merging
import NoraFleet.Networks.ConfigFilters
import NoraFleet.Networks.ToolResolution
import NoraFleet.Validation.ToolsShape
import NoraFleet.Networks.ToolCalls
import NoraFleet.Tools.BaseModels
import NoraFleet.Validation.Parameters
import NoraFleet.Tools.FunctionTools
import NoraFleet.Tokens.TokenCounter
import NoraFleet.Tokens.Accounting
import NoraFleet.Tokens.Attribution
import NoraFleet.Authorization.OpenFgaClients
import NoraFleet.Authorization.Listing
import NoraFleet.Authorization.Granting
import NoraFleet.Middleware.ToolSelector
import NoraFleet.Testing.ResponseKeys
import NoraFleet.Base.Layers
import NoraFleet.Llms.FullConfig
import NoraFleet.Llms.Fallbacks
import NoraFleet.Validation.NetworkValidators
import NoraFleet.Validation.DanglingReferences
import NoraFleet.Mcp.ToolAnswers
import NoraFleet.Activations.ExternalActivation
import NoraFleet.Activations.ArgumentAssigner
import NoraFleet.Mcp.RootHandler
import NoraFleet.Base.Lines
import NoraFleet.Streaming.ChatStreams
import NoraFleet.Base.Quotes
import NoraFleet.Validation.Classification
import NoraFleet.Networks.NameCorrection
import NoraFleet.Validation.Reachability
import NoraFleet.Base.Locks
import NoraFleet.HttpServer.AgentServiceProvider
import NoraFleet.Base.Worklist
import NoraFleet.Mcp.ToolRequestValidator
import NoraFleet.TempNetworks.LeastRecent
import NoraFleet.Base.SearchOrder
import NoraFleet.Networks.ReportOrder
import NoraFleet.Base.BackEdges
import NoraFleet.Validation.Cycles
import NoraFleet.Base.Rewriting
import NoraFleet.Networks.StringDefinitions
import NoraFleet.Base.Paths
import NoraFleet.Networks.Defaults
import NoraFleet.Networks.DefaultedConfigs
import NoraFleet.Base.Forks
import NoraFleet.Persistence.HoconParseLock
import NoraFleet.Base.Readings
import NoraFleet.Watcher.RegistryChanges
import NoraFleet.Watcher.Reloading
import NoraFleet.Base.Owners
import NoraFleet.Base.FileSystem
import NoraFleet.LocalStore.WholeFiles
import NoraFleet.Base.Retention
import NoraFleet.Chat.Conversations
import NoraFleet.TempNetworks.Deployed
import NoraFleet.Networks.DefinedConfigs
import NoraFleet.Networks.ResolvedConfigs
import NoraFleet.Validation.Legibility
import NoraFleet.Validation.Faults
import NoraFleet.Validation.ParametersSchema
import NoraFleet.Validation.Reporting
import NoraFleet.Base.Distinct
import NoraFleet.Networks.ConfigTexts
import NoraFleet.Networks.EnteringDefaults
import NoraFleet.Networks.RenamedAgents
import NoraFleet.Networks.FilterPasses
import NoraFleet.Networks.FilteredTwice
