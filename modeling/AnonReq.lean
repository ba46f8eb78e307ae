import AnonReq.Audit.Concurrent
import AnonReq.Audit.Pagination
import AnonReq.Audit.Tamper
import AnonReq.Policy.RateWindow
import AnonReq.Policy.Store
import AnonReq.Tenant.Scope
import AnonReq.Governance.Approval
import AnonReq.Proxy.Pac
import AnonReq.Firewall.Streaming
import AnonReq.Multimodal.MultipartAnalyzer
import AnonReq.Multimodal.ToolCall
import AnonReq.Streaming.Termination
import AnonReq.Proxy.Dispatcher
import AnonReq.Verification.Scanner
import AnonReq.Detection.Merge
import AnonReq.Lifecycle.Service
import AnonReq.Audit.Anchor
import AnonReq.Voice.TextMode
import AnonReq.Voice.AudioMode
import AnonReq.Policy.Reporting
import AnonReq.Policy.Spend
import AnonReq.Detection.Mnpi
import AnonReq.Pipeline.SentRequest
import AnonReq.Pipeline.WriteBack
import AnonReq.Governance.PolicyValidation
import AnonReq.Pipeline.ToolArguments
import AnonReq.Soc.Buffer
import AnonReq.Firewall.Rules
import AnonReq.Secrets.Reloader
import AnonReq.Soc.QradarCef
import AnonReq.Proxy.ResponseFraming
import AnonReq.Governance.ToolInspector
import AnonReq.Detection.Recognizers
import AnonReq.Discovery.DedupMerge
import AnonReq.Voice.TranscriptBuffer
import AnonReq.Dsar.Erasure
import AnonReq.Retention.HoldQueries
import AnonReq.Breach.SharedSession
import AnonReq.Breach.DeadLetters
import AnonReq.Dsar.Restriction
import AnonReq.Rag.Chunking
import AnonReq.Rag.RetrievalPolicy
import AnonReq.Rag.RetrievalDetection
import AnonReq.Rag.ResponseRestoration
import AnonReq.Cache.Transparency
import AnonReq.Audit.CsvExport
import AnonReq.Compliance.PresetEnforcement
import AnonReq.Proxy.TrafficDetection
import AnonReq.Agent.ResultSanitizer
import AnonReq.Debug.PreviewOffsets
import AnonReq.Streaming.Choices
import AnonReq.Providers.EventStreams
import AnonReq.Mcp.Inspector
import AnonReq.Casb.Engine
import AnonReq.Discovery.Inventory
import AnonReq.Discovery.ProxyParser
import AnonReq.Oversight.Queue
import AnonReq.Dsar.Cases
import AnonReq.Locale.Germany
import AnonReq.Firewall.Pipeline
import AnonReq.Auth.Oidc
import AnonReq.Ediscovery.EdrmXml
