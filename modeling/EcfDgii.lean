import EcfDgii.Programs
import EcfDgii.Execution
import EcfDgii.Trimming
import EcfDgii.Text
import EcfDgii.Calendar
import EcfDgii.Timestamps
import EcfDgii.Documents
import EcfDgii.DgiiReplies
import EcfDgii.Tables
import EcfDgii.Engine
import EcfDgii.Transport
import EcfDgii.CanonicalXml
import EcfDgii.Transmission
import EcfDgii.Submission
import EcfDgii.StatusPolling
import EcfDgii.StatusUpdates
import EcfDgii.Traces
import EcfDgii.SubmissionTrace
import EcfDgii.TransportTrace
import EcfDgii.TransmissionTrace
import EcfDgii.SubmissionFollows
import EcfDgii.StatusTrace
import EcfDgii.DocumentInvariants
import EcfDgii.WrittenAhead
import EcfDgii.StateVocabulary
import EcfDgii.AwaitedVerdicts
import EcfDgii.SignedContent
import EcfDgii.DocumentTypes
import EcfDgii.TerminalStates
import EcfDgii.FinalDocuments
import EcfDgii.UncertainDocuments
import EcfDgii.RejectionVerdicts
import EcfDgii.TenantReads
import EcfDgii.EncfLookups
import EcfDgii.Machines
import EcfDgii.SequenceNumbers
import EcfDgii.FiscalNumbers
import EcfDgii.SettledTransmissions
import EcfDgii.SingleTransmissions
import EcfDgii.Reservations
import EcfDgii.WrappedOperations
import EcfDgii.SettledReservations
import EcfDgii.ExclusiveReservations
import EcfDgii.ReplayedResponses
import EcfDgii.IdempotentReplays
import EcfDgii.ExpiringTables
import EcfDgii.RedisCacheService
import EcfDgii.CacheCoherence
import EcfDgii.LockExclusion
import EcfDgii.TokenManager
import EcfDgii.TokenTrace
import EcfDgii.TokenFreshness
import EcfDgii.TokenInvalidation
import EcfDgii.Separators
import EcfDgii.CanonicalRequestHelper
import EcfDgii.UserOrWorkerFilter
import EcfDgii.ReplayedNonces
import EcfDgii.EmisorReceptorController
import EcfDgii.PeerTokens
import EcfDgii.PeerSignatures
import EcfDgii.ReplayScopes
import EcfDgii.TenantData
import EcfDgii.TenantSubmissions
import EcfDgii.UserTenants
import EcfDgii.DirectSending
import EcfDgii.Retransmissions
import EcfDgii.Markup
import EcfDgii.Rounding
import EcfDgii.XmlFormats
import EcfDgii.CanonicalLines
import EcfDgii.CanonicalTotals
import EcfDgii.CanonicalBuilder
import EcfDgii.PrintedAmounts
import EcfDgii.PrintedTotals
import EcfDgii.RfceTotals
import EcfDgii.AlikeDocuments
import EcfDgii.CallerStrings
import EcfDgii.NormalizedLines
import EcfDgii.PrintedItems
import EcfDgii.ProratedRetentions
import EcfDgii.SquaredLines
import EcfDgii.ConvertedLines
import EcfDgii.ForeignTotals
import EcfDgii.DomesticTotals
import EcfDgii.LineIndicators
import EcfDgii.IdentifiedBuyers
import EcfDgii.PrintedRates
import EcfDgii.JsonMapping
import EcfDgii.Summaries
import EcfDgii.SummaryRetries
import EcfDgii.QueryStrings
import EcfDgii.DgiiQueries
import EcfDgii.IsoStamps
import EcfDgii.ExpiryStamps
import EcfDgii.Utf8
import EcfDgii.EscapedBytes
import EcfDgii.TruncatedBytes
import EcfDgii.Elements
import EcfDgii.SummaryDocuments
import EcfDgii.SummaryTotals
import EcfDgii.Patterns
import EcfDgii.CertificateNumbers
import EcfDgii.CertificatePasswords
import EcfDgii.TenantSignerResolver
import EcfDgii.TenantCertificates
import EcfDgii.NormalizedDates
import EcfDgii.DocumentFields
import EcfDgii.CreditNoteDates
import EcfDgii.ReferenceNumbers
import EcfDgii.VerdictReadings
import EcfDgii.Transactions
import EcfDgii.AllocatedNumbers
import EcfDgii.Custody
import EcfDgii.RenewalCleanup
import EcfDgii.Resp
import EcfDgii.RedisReplies
import EcfDgii.SharedValues
import EcfDgii.Strategies
import EcfDgii.ReconcilePasses
import EcfDgii.QueriedEnvironments
import EcfDgii.TrimmedNumbers
import EcfDgii.Customers
import EcfDgii.Linearizability
import EcfDgii.CustomerLifetimes
import EcfDgii.StoredAnswers
import EcfDgii.PollingBacklog
import EcfDgii.PeerReceipts
import EcfDgii.PrintedRows
