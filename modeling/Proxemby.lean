import Proxemby.Auth.Authorization
import Proxemby.Auth.Durable
import Proxemby.Auth.Store
import Proxemby.Auth.Token
import Proxemby.Escape
import Proxemby.Hosts
import Proxemby.Http
import Proxemby.Lib.Base64
import Proxemby.Lib.DotSegments
import Proxemby.Lib.Exposition
import Proxemby.Lib.FileSystem
import Proxemby.Lib.Gregorian
import Proxemby.Lib.HttpMessage
import Proxemby.Lib.Integers
import Proxemby.Lib.Machine
import Proxemby.Lib.Numerals
import Proxemby.Lib.Ordered
import Proxemby.Lib.Results
import Proxemby.Lib.Rfc8259
import Proxemby.Lib.Slots
import Proxemby.Lib.StableSort
import Proxemby.Lib.Sweep
import Proxemby.Lib.Text
import Proxemby.Lib.Unambiguous
import Proxemby.Lib.Utf8
import Proxemby.Loading.Blank
import Proxemby.Loading.FlagGrammar
import Proxemby.Loading.Flags
import Proxemby.Loading.Precedence
import Proxemby.Loading.Sources
import Proxemby.Loading.Values
import Proxemby.Logging.Record
import Proxemby.Logging.Sink
import Proxemby.Logging.TextFormat
import Proxemby.Logging.Timestamps
import Proxemby.Logging.Unforgeable
import Proxemby.PrivateFile
import Proxemby.Queries
import Proxemby.RedactedQueries
import Proxemby.Redaction
import Proxemby.Rewrite.Acceptance
import Proxemby.Rewrite.Calls
import Proxemby.Rewrite.Completeness
import Proxemby.Rewrite.Cursor
import Proxemby.Rewrite.Document
import Proxemby.Rewrite.Learning
import Proxemby.Rewrite.Literals
import Proxemby.Rewrite.Rewriter
import Proxemby.Rewrite.Scanner
import Proxemby.Rewrite.Soundness
import Proxemby.Rewrite.Totality
import Proxemby.Rewrite.Traced
import Proxemby.Rewrite.Url
import Proxemby.Server.Admin
import Proxemby.Server.AuthGate
import Proxemby.Server.Body
import Proxemby.Server.Buffered
import Proxemby.Server.ClientFilter
import Proxemby.Server.Completion
import Proxemby.Server.Config
import Proxemby.Server.Exchanges
import Proxemby.Server.Forwarding
import Proxemby.Server.Gate
import Proxemby.Server.Handle
import Proxemby.Server.Headers
import Proxemby.Server.Identity
import Proxemby.Server.Invariants
import Proxemby.Server.Issued
import Proxemby.Server.Ledger
import Proxemby.Server.Lifecycle
import Proxemby.Server.Logins
import Proxemby.Server.LogoutPath
import Proxemby.Server.Normalisation
import Proxemby.Server.Outbound
import Proxemby.Server.Playback
import Proxemby.Server.Policy
import Proxemby.Server.Prefixes
import Proxemby.Server.Process
import Proxemby.Server.Reference
import Proxemby.Server.Rejections
import Proxemby.Server.Resource
import Proxemby.Server.Restart
import Proxemby.Server.Route
import Proxemby.Server.RouteNames
import Proxemby.Server.Routing
import Proxemby.Server.Sessions
import Proxemby.Server.Signatures
import Proxemby.Server.Steps
import Proxemby.Server.Traffic
import Proxemby.Server.Users
import Proxemby.Stats.Agreement
import Proxemby.Stats.CatchUp
import Proxemby.Stats.Classify
import Proxemby.Stats.Concurrent
import Proxemby.Stats.Counters
import Proxemby.Stats.Flush
import Proxemby.Stats.History
import Proxemby.Stats.Metrics
import Proxemby.Stats.Overflow
import Proxemby.Stats.Persistence
import Proxemby.Stats.Reference
import Proxemby.Stats.Scrapes
import Proxemby.Stats.Streams
import Proxemby.Util
