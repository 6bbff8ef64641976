import RpcSpec.Foundation.Loop
import RpcSpec.Foundation.Base128
import RpcSpec.Admission.Types
import RpcSpec.Admission.ProtobufVisitor
import RpcSpec.Admission.ProtobufWire
import RpcSpec.Admission.ProtobufProgress
import RpcSpec.Admission.ProtobufGrammar
import RpcSpec.Admission.ProtobufRoundTrip
import RpcSpec.Admission.PackedFixed
import RpcSpec.Admission.PackedVarint
import RpcSpec.Admission.VarintExactness
import RpcSpec.Admission.Reading
import RpcSpec.Admission.RepeatedVarints
import RpcSpec.Admission.Concatenation
import RpcSpec.Foundation.Transition
import RpcSpec.Foundation.LazyBucket
import RpcSpec.Foundation.KeyedMap
import RpcSpec.Foundation.LastWins
import RpcSpec.Foundation.Grouping
import RpcSpec.Admission.TokenBucket
import RpcSpec.Admission.AdmissionSpec
import RpcSpec.Admission.SizePricing
import RpcSpec.Admission.ConnectionLimiter
import RpcSpec.Admission.SoloConnection
import RpcSpec.Admission.EntryLevels
import RpcSpec.Admission.RateBound
import RpcSpec.Admission.EagerBucket
import RpcSpec.Admission.Isolation
import RpcSpec.Admission.Tracking
import RpcSpec.Admission.IdleSweep
import RpcSpec.Foundation.Linearization
import RpcSpec.Foundation.Monitor
import RpcSpec.Admission.SharedBucket
import RpcSpec.Admission.Contention
import RpcSpec.Admission.LockedLimiter
import RpcSpec.Admission.TotalBudget
import RpcSpec.Admission.Conformance
import RpcSpec.Admission.LockedBudget
import RpcSpec.Admission.JsonVisitor
import RpcSpec.Admission.JsonTree
import RpcSpec.Admission.JsonTraversal
import RpcSpec.Admission.FirstDrop
import RpcSpec.Admission.AdmittedCost
import RpcSpec.Foundation.Faults
import RpcSpec.Foundation.Moves
import RpcSpec.Foundation.Outline
import RpcSpec.Foundation.Lockstep
import RpcSpec.Foundation.Agreement
import RpcSpec.Foundation.Matching
import RpcSpec.Foundation.Interchange
import RpcSpec.Dsl.Errors
import RpcSpec.Dsl.Json
import RpcSpec.Dsl.RenamedKeys
import RpcSpec.Dsl.XrplParse
import RpcSpec.Dsl.HexText
import RpcSpec.Dsl.FieldSpec
import RpcSpec.Dsl.LedgerTypes
import RpcSpec.Dsl.Validators
import RpcSpec.Dsl.Converters
import RpcSpec.Dsl.Ledger
import RpcSpec.Dsl.TypedSpec
import RpcSpec.Dsl.LedgerRule
import RpcSpec.Dsl.Overrides
import RpcSpec.Dsl.Completeness
import RpcSpec.Dsl.Contracts
import RpcSpec.Dsl.Rewrites
import RpcSpec.Dsl.Frame
import RpcSpec.Dsl.Locality
import RpcSpec.Dsl.Comparison
import RpcSpec.Dsl.Alike
import RpcSpec.Dsl.KeyTexts
import RpcSpec.Dsl.KeyedItems
import RpcSpec.Dsl.ParseFrame
import RpcSpec.Dsl.UnreadKeys
import RpcSpec.Dsl.GuardedFields
import RpcSpec.Dsl.AliasRenaming
import RpcSpec.Dsl.OwnKeys
import RpcSpec.Dsl.ReadKeys
import RpcSpec.Dsl.Deprecations
import RpcSpec.Dsl.Warnings
import RpcSpec.Dsl.Settled
import RpcSpec.Dsl.Modifiers
import RpcSpec.Dsl.Inlining
import RpcSpec.Dsl.Deferred
import RpcSpec.Dsl.Narrowing
import RpcSpec.Dsl.FieldOrder
import RpcSpec.Dsl.Separation
import RpcSpec.Dsl.SpecDump
import RpcSpec.Dsl.SpecDumpReading
import RpcSpec.Dsl.VersionedSpec
import RpcSpec.Dsl.Selection
import RpcSpec.Dsl.Verdicts
import RpcSpec.Dsl.Placeholders
import RpcSpec.Dsl.Integers
import RpcSpec.Dsl.Truth
import RpcSpec.Dsl.Clamping
import RpcSpec.Dsl.NumberTexts
import RpcSpec.Dsl.MarkerTexts
import RpcSpec.Dsl.Storage
import RpcSpec.Dsl.BlindItems
import RpcSpec.Dsl.FaultFree
import RpcSpec.Handlers.Common
import RpcSpec.Handlers.Accounts
import RpcSpec.Handlers.Balances
import RpcSpec.Handlers.HotWallets
import RpcSpec.Handlers.Ledgers
import RpcSpec.Handlers.Tokens
import RpcSpec.Handlers.History
import RpcSpec.Handlers.LedgerRanges
import RpcSpec.Handlers.Limits
import RpcSpec.Handlers.Placeholders
import RpcSpec.Handlers.Markets
import RpcSpec.Handlers.Subscriptions
import RpcSpec.Handlers.LedgerEntry
import RpcSpec.Handlers.LedgerEntrySelectors
import RpcSpec.Handlers.LedgerEntryParsed
import RpcSpec.Handlers.Aliases
import RpcSpec.Handlers.Writers
import RpcSpec.Handlers.HexTexts
import RpcSpec.Handlers.TakerAssets
import RpcSpec.Handlers.Issues
import RpcSpec.Handlers.SwappedSides
import RpcSpec.Handlers.SwappedBooks
import RpcSpec.Handlers.OrderBooks
import RpcSpec.Handlers.AllHandlers
import RpcSpec.Handlers.Normalization
import RpcSpec.Handlers.Separation
import RpcSpec.Handlers.Documentation
import RpcSpec.Handlers.Deferred
import RpcSpec.Handlers.Storage
import RpcSpec.Handlers.Versions
import RpcSpec.Handlers.Cancellation
import RpcSpec.Handlers.LenientFlags
import RpcSpec.Handlers.Assets
import RpcSpec.Handlers.OracleLists
