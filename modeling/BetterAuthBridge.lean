import BetterAuthBridge.Library.Tasks
import BetterAuthBridge.Library.Throttle
import BetterAuthBridge.Library.Slots
import BetterAuthBridge.Library.Procedure
import BetterAuthBridge.Library.Base64
import BetterAuthBridge.Library.Failure
import BetterAuthBridge.Library.Floats
import BetterAuthBridge.Errors
import BetterAuthBridge.Models
import BetterAuthBridge.Refusals
import BetterAuthBridge.Urls
import BetterAuthBridge.Csrf
import BetterAuthBridge.CookieParsing
import BetterAuthBridge.CookieResolution
import BetterAuthBridge.Signing
import BetterAuthBridge.CsrfPolicies
import BetterAuthBridge.CsrfAcceptance
import BetterAuthBridge.Authz
import BetterAuthBridge.InspectedGates
import BetterAuthBridge.FailClosed
import BetterAuthBridge.MacDomains
import BetterAuthBridge.Ownership
import BetterAuthBridge.SignedCodec
import BetterAuthBridge.CookieVerifier
import BetterAuthBridge.CookieAcceptance
import BetterAuthBridge.CookieNames
import BetterAuthBridge.CookieOrder
import BetterAuthBridge.Library.Ordered
import BetterAuthBridge.Library.Recency
import BetterAuthBridge.RedisStore
import BetterAuthBridge.RemoteResponse
import BetterAuthBridge.RemoteProbe
import BetterAuthBridge.RemoteVerifier
import BetterAuthBridge.Labels
import BetterAuthBridge.Composition
import BetterAuthBridge.CacheRetention
import BetterAuthBridge.RemoteSections
import BetterAuthBridge.RemoteSteps
import BetterAuthBridge.RemoteInvariants
import BetterAuthBridge.RemoteSoundness
import BetterAuthBridge.RemoteSlots
import BetterAuthBridge.OutboundCookie
import BetterAuthBridge.RemoteReadiness
import BetterAuthBridge.RemoteLatch
import BetterAuthBridge.RemoteCache
import BetterAuthBridge.RemoteOutcomes
import BetterAuthBridge.SqlStore
import BetterAuthBridge.SqlReading
import BetterAuthBridge.ReadersAgree
import BetterAuthBridge.IdentifierModes
import BetterAuthBridge.StoreMisses
import BetterAuthBridge.StoredAlike
import BetterAuthBridge.AntiOracle
import BetterAuthBridge.ModesAgree
import BetterAuthBridge.StoreAnswers
import BetterAuthBridge.JwksDocument
import BetterAuthBridge.JwksAnswers
import BetterAuthBridge.JwksKeyMap
import BetterAuthBridge.JwksClient
import BetterAuthBridge.JwksSteps
import BetterAuthBridge.JwksThrottle
import BetterAuthBridge.JwksMemory
import BetterAuthBridge.JwtVerifier
import BetterAuthBridge.JwtSelection
import BetterAuthBridge.JwtClaims
import BetterAuthBridge.Dispatch
import BetterAuthBridge.CookieCollisions
import BetterAuthBridge.ExplainedRefusals
import BetterAuthBridge.Origins
import BetterAuthBridge.ColumnPlan
import BetterAuthBridge.CappedRead
import BetterAuthBridge.CollisionKeys
import BetterAuthBridge.Backoff
import BetterAuthBridge.Outages
import BetterAuthBridge.Library.Words
import BetterAuthBridge.SharedSecrets
import BetterAuthBridge.Library.Linearize
import BetterAuthBridge.OnceLatches
import BetterAuthBridge.OutageThreads
import BetterAuthBridge.SqlDiscovery
import BetterAuthBridge.SqlLookups
import BetterAuthBridge.Library.Progress
import BetterAuthBridge.Completion
import BetterAuthBridge.DependencyMemo
import BetterAuthBridge.VerifiedOnce
import BetterAuthBridge.RemoteStartup
import BetterAuthBridge.Library.Uri
import BetterAuthBridge.RemoteConfig
import BetterAuthBridge.PinnedUri
import BetterAuthBridge.Exchange
import BetterAuthBridge.DeclaredSchemes
import BetterAuthBridge.WorkerThreads
import BetterAuthBridge.Library.Spelling
import BetterAuthBridge.Legibility
import BetterAuthBridge.RemoteLegibility
import BetterAuthBridge.JwtLegibility
import BetterAuthBridge.CookieLegibility
import BetterAuthBridge.DispatchLegibility
