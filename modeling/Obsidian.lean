import Obsidian.Actions
import Obsidian.Allows
import Obsidian.Api
import Obsidian.ApiSteps
import Obsidian.App.AccessLists
import Obsidian.App.Alerts
import Obsidian.App.ApiKeys
import Obsidian.App.Auth
import Obsidian.App.CardNumbers
import Obsidian.App.ClientAddresses
import Obsidian.App.Counters
import Obsidian.App.FailedCalls
import Obsidian.App.GeoIP
import Obsidian.App.GeoOutages
import Obsidian.App.GeoRules
import Obsidian.App.GraphQL
import Obsidian.App.GraphQLBatches
import Obsidian.App.Guards
import Obsidian.App.IPAllow
import Obsidian.App.KeyQuota
import Obsidian.App.Mediation
import Obsidian.App.RateBlocks
import Obsidian.App.RateLimit
import Obsidian.App.RatePolicy
import Obsidian.App.RateWindows
import Obsidian.App.RedisLimit
import Obsidian.App.RedisWindows
import Obsidian.App.RuleStore
import Obsidian.App.Security
import Obsidian.App.Store
import Obsidian.App.Threat
import Obsidian.App.ThreatFile
import Obsidian.App.ThreatRefresh
import Obsidian.App.ThreatSpellings
import Obsidian.App.VisitorCounts
import Obsidian.App.WafMiddleware
import Obsidian.ArgumentLimits
import Obsidian.BodyBuffer
import Obsidian.BodyLimits
import Obsidian.BodyLog
import Obsidian.BodyProcessors.Json
import Obsidian.BodyProcessors.Multipart
import Obsidian.BodyProcessors.Registry
import Obsidian.BodyProcessors.Urlencoded
import Obsidian.BodyReaders
import Obsidian.BodyWrites
import Obsidian.Captures
import Obsidian.ChainProducts
import Obsidian.Chains
import Obsidian.ChangedFlags
import Obsidian.Collections
import Obsidian.Data.Base64
import Obsidian.Data.Bytes
import Obsidian.Data.Channels
import Obsidian.Data.CheckSums
import Obsidian.Data.Cursors
import Obsidian.Data.Decimal
import Obsidian.Data.Digest
import Obsidian.Data.Except
import Obsidian.Data.FixedWindows
import Obsidian.Data.Interleavings
import Obsidian.Data.Journal
import Obsidian.Data.Json
import Obsidian.Data.Lines
import Obsidian.Data.Memo
import Obsidian.Data.Multimap
import Obsidian.Data.Net
import Obsidian.Data.Networks
import Obsidian.Data.Readers
import Obsidian.Data.Redis
import Obsidian.Data.Steps
import Obsidian.Data.Text
import Obsidian.Data.Thinning
import Obsidian.Data.Tuples
import Obsidian.Data.Windows
import Obsidian.Deliveries
import Obsidian.Evaluate
import Obsidian.EvaluationFrames
import Obsidian.Http.Middleware
import Obsidian.Http.RequestBodies
import Obsidian.InputFrames
import Obsidian.Interruptions
import Obsidian.Lockstep
import Obsidian.Memoize
import Obsidian.Multimatch
import Obsidian.NameViews
import Obsidian.Operators.Builders
import Obsidian.Operators.ByteEscapes
import Obsidian.Operators.IPMatch
import Obsidian.Operators.ValidateNid
import Obsidian.Operators.ValidateURLEncoding
import Obsidian.Phases
import Obsidian.Recycling
import Obsidian.Rule
import Obsidian.RuleSteps
import Obsidian.Seclang.ActionLists
import Obsidian.Seclang.ActionTexts
import Obsidian.Seclang.ChainWiring
import Obsidian.Seclang.Compiled
import Obsidian.Seclang.Defaults
import Obsidian.Seclang.Directives
import Obsidian.Seclang.MacroExpansion
import Obsidian.Seclang.Macros
import Obsidian.Seclang.ParsedLines
import Obsidian.Seclang.Parser
import Obsidian.Seclang.Removals
import Obsidian.Seclang.RuleChanges
import Obsidian.Seclang.RuleInvariants
import Obsidian.Seclang.RuleParser
import Obsidian.Seclang.Updates
import Obsidian.Skips
import Obsidian.TargetExclusion
import Obsidian.Transaction
import Obsidian.TransformationCache
import Obsidian.Transformations.BackslashEscapes
import Obsidian.Transformations.Base64
import Obsidian.Transformations.Cleaning
import Obsidian.Transformations.CommandLines
import Obsidian.Transformations.Comments
import Obsidian.Transformations.Decoding
import Obsidian.Transformations.Indexed
import Obsidian.Transformations.Registry
import Obsidian.Transformations.RoundTrips
import Obsidian.Types
import Obsidian.Uploads
import Obsidian.Variables
