import McpRuntime.Outbound.CircuitRuns
import McpRuntime.Transport.Cancellation
import McpRuntime.Transport.Atomicity
import McpRuntime.Transport.SessionLeases
import McpRuntime.Execution.Execute
import McpRuntime.Outbound.Redirect
import McpRuntime.Application.Concealment
import McpRuntime.Application.Bulkhead
import McpRuntime.Application.Payload
import McpRuntime.Redaction.Secrecy
import McpRuntime.Lifecycle.Discipline
import McpRuntime.Lifecycle.Drain
import McpRuntime.Gateway.KeyCache
import McpRuntime.Tool.IdentityFields
import McpRuntime.Tool.Migration
import McpRuntime.Gateway.Rerouting
import McpRuntime.Registry.GoJson
import McpRuntime.Telemetry
import McpRuntime.Publisher.Workflow
import McpRuntime.Publisher.Activation
import McpRuntime.Schema.Termination
import McpRuntime.Gateway.Pages
import McpRuntime.Manifest.Lossless
import McpRuntime.Evaluation.Agreement
import McpRuntime.Application.Retries
import McpRuntime.Policy.Denials
import McpRuntime.Gateway.Identity
import McpRuntime.Manifest.Canonical
import McpRuntime.Registry.Cache
import McpRuntime.Registry.SecretScan
import McpRuntime.Registry.Transparency
import McpRuntime.Registry.Discovery
import McpRuntime.Redaction.Shape
import McpRuntime.Transport.Pagination
import McpRuntime.Gateway.RouteNames
import McpRuntime.Execution.JsonValue
import McpRuntime.Registry.GatewayEndpoint
import McpRuntime.Outbound.SentUrls
import McpRuntime.Outbound.Echoes
import McpRuntime.Outbound.Egress
import McpRuntime.Outbound.Host
import McpRuntime.Redaction.Idempotence
import McpRuntime.Publisher.Official
import McpRuntime.Evaluation.Expectations
import McpRuntime.Evaluation.Loading
import McpRuntime.Reliability.Correlation
