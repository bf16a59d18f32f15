import Abyss.Mitm.Http.Message
import Abyss.Mitm.Relay.Capture
import Abyss.Stream.Incremental
import Abyss.Stream.Marker
import Abyss.Mitm.Relay.Chunked
import Abyss.Mitm.Relay.ChunkedBody
import Abyss.Mitm.Relay.ChunkedFeeds
import Abyss.Mitm.Relay.Body
import Abyss.Mitm.Relay.BodyPlan
import Abyss.Mitm.Relay.Wire
import Abyss.Mitm.Relay.Delivery
import Abyss.Mitm.Http.Head
import Abyss.Mitm.Relay.Exchange
import Abyss.Mitm.Relay.Transparency
import Abyss.Mitm.Relay.Containment
import Abyss.Mitm.Http.CanonicalHead
import Abyss.Mitm.Relay.Submission
import Abyss.Mitm.Relay.Interim
import Abyss.Mitm.Relay.RequestFraming
import Abyss.Mitm.Explicit.Target
import Abyss.Mitm.Explicit.Request
import Abyss.Mitm.Explicit.Agreement
import Abyss.Mitm.Explicit.Replay
import Abyss.Mitm.Tls.DecryptPolicy
import Abyss.Mitm.Tls.HostName
import Abyss.Mitm.Tls.PolicySemantics
import Abyss.Mitm.Explicit.Authority
import Abyss.Mitm.Explicit.AuthorityRoundTrip
import Abyss.Mitm.Explicit.Rewrite
import Abyss.Mitm.Explicit.HeadReading
import Abyss.Mitm.Http.HeadBound
import Abyss.Mitm.Tls.PatternValidation
import Abyss.Broker.RuntimeConfig
import Abyss.Broker.Serializable
import Abyss.Mitm.WebSocket.Faithful
import Abyss.Stream.Collect
import Abyss.Stream.Copy
import Abyss.Mitm.Flow.Detection
import Abyss.Mitm.Flow.ClientHello
import Abyss.Mitm.Explicit.Decoder
import Abyss.Mitm.Flow.Passthrough
import Abyss.Mitm.Explicit.HostHeader
import Abyss.Mitm.Relay.ForwardedHead
import Abyss.Mitm.Flow.HttpFlow
import Abyss.Broker.ExplicitIngress
import Abyss.Mitm.Hook.ContentDecoding
import Abyss.Mitm.Hook.FastPath
import Abyss.Broker.Framed.Frame
import Abyss.Stream.Polled
import Abyss.Broker.Framed.Codec
import Abyss.Broker.Framed.Decoders
import Abyss.Broker.Framed.FlowReader
import Abyss.Broker.Framed.ClientStream
import Abyss.Broker.Framed.FlowWriter
import Abyss.Broker.Framed.WriteContract
import Abyss.Text.Json
import Abyss.Text.JsonCodec
import Abyss.PluginProtocol.Message
import Abyss.PluginProtocol.Event
import Abyss.PluginProtocol.RoundTrip
import Abyss.AgentHook.Anthropic.Content
import Abyss.AgentHook.Anthropic.Streaming
import Abyss.AgentHook.Event.Normalizer
import Abyss.AgentHook.Event.ContentPolicy
import Abyss.AgentHook.Anthropic.UploadCache
import Abyss.AgentHook.Anthropic.UploadExpiry
import Abyss.AgentHook.OpenAi.Content
import Abyss.AgentHook.OpenAi.Responses.Request
import Abyss.AgentHook.OpenAi.Responses.Response
import Abyss.AgentHook.OpenAi.Responses.Assembly
import Abyss.Data.FilterMap
import Abyss.AgentHook.OpenAi.Responses.Replay
import Abyss.AgentHook.OpenAi.Exchange
import Abyss.AgentHook.Anthropic.Usage
import Abyss.AgentHook.ContentUsage
import Abyss.AgentHook.Fields
import Abyss.AgentHook.Image
import Abyss.AgentHook.OpenAi.Responses.WebSocket
import Abyss.Data.SplitAfter
import Abyss.AgentHook.OpenAi.Responses.WebSocketTurns
import Abyss.AgentHook.OpenAi.Responses.WebSocketBounds
import Abyss.AgentHook.Harness.Detectors
import Abyss.AgentHook.OpenAi.Responses.WebSocketPrewarm
import Abyss.AgentHook.OpenAi.ChatCompletions.Assembly
import Abyss.AgentHook.OpenAi.ChatCompletions.Streaming
import Abyss.AgentHook.OpenAi.ChatCompletions.Replay
import Abyss.AgentHook.OpenAi.Responses.EventReplay
import Abyss.PluginProtocol.Codec
import Abyss.Sdk.Client
import Abyss.Sdk.EventRoundTrip
import Abyss.Broker.Plugin.Session
import Abyss.Broker.Plugin.Transcript
import Abyss.Broker.Plugin.Contract
import Abyss.Delivery.Request
import Abyss.Delivery.Authentication
import Abyss.Delivery.Uploader
import Abyss.Delivery.CredentialSafety
import Abyss.Delivery.Durability
import Abyss.Broker.Proxy.Service
import Abyss.Broker.Proxy.Lifecycle
import Abyss.Broker.Proxy.Worker
import Abyss.Broker.Proxy.Accounting
import Abyss.Broker.NetworkDiagnostics.Failure
import Abyss.Broker.NetworkDiagnostics.Observation
import Abyss.Broker.NetworkDiagnostics.Store
import Abyss.Broker.NetworkDiagnostics.Retention
import Abyss.Mitm.Ca.Consistency
import Abyss.Mitm.Ca.Store
import Abyss.Cli.DeliveryWorker
import Abyss.Cli.SingleDeliveryWorker
import Abyss.Sdk.Exposed
import Abyss.Sdk.Python
import Abyss.Sdk.TypeScript
import Abyss.Sdk.Schema
import Abyss.Data.Result
import Abyss.Sdk.PythonSchema
import Abyss.Sdk.TypeScriptSchema
import Abyss.Sdk.RustSchema
import Abyss.Sdk.Timestamp
import Abyss.Sdk.EventAgreement
import Abyss.AgentHook.Harness.Registry
import Abyss.Mitm.Hook.Dispatcher
import Abyss.Mitm.Hook.Isolation
import Abyss.Mitm.Hook.Unwinding
import Abyss.AgentHook.OpenAi.Responses.WebSocketTurnContent
import Abyss.AgentHook.OpenAi.Responses.WebSocketDrops
import Abyss.System.Fallible
import Abyss.Cli.DeployLocal.Process
import Abyss.Cli.DeployLocal.Deployment
import Abyss.Cli.DeployLocal.Lifecycle
import Abyss.Cli.DeployLocal.Launch
import Abyss.Cli.DeployLocal.Stages
import Abyss.Cli.DeployLocal.AllOrNothing
import Abyss.Cli.DeployLocal.Runs
import Abyss.Mitm.Outbound.HttpConnect
import Abyss.Mitm.Outbound.Handshake
import Abyss.Broker.ProcessArguments
import Abyss.Mitm.Hook.BoundedCollection
import Abyss.Archive.Crc32
import Abyss.Archive.Zip
import Abyss.Broker.RedirectContext
import Abyss.Broker.Traffic.Monitor
import Abyss.Broker.Traffic.Rates
import Abyss.Cli.ClaudeCode.Configurator
import Abyss.Cli.ClaudeCode.Preservation
import Abyss.Cli.SupportBundle.RoundTrip
import Abyss.AgentHook.Event.Identity
import Abyss.AgentHook.Sse
import Abyss.AgentHook.Anthropic.Multipart
import Abyss.AgentHook.Anthropic.UsageMerge
import Abyss.AgentHook.UsageInvariant
import Abyss.Delivery.Replay
import Abyss.Mitm.Relay.SerializedHead
import Abyss.Broker.ProcessContext
import Abyss.QueryCli.Pages
import Abyss.QueryCli.Resumed
import Abyss.Text.Base64
import Abyss.AgentHook.Event.Passthrough
import Abyss.Mitm.Ca.TrustStore
import Abyss.System.ReplacedFile
import Abyss.Cli.DeployLocal.Artifacts
import Abyss.Broker.Diagnostics
import Abyss.Broker.ExplicitUpstream
