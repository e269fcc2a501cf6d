import Recouple.Lib.FirstSeen
import Recouple.Lib.KeyedFold
import Recouple.Lib.Json
import Recouple.Core.Locality
import Recouple.Core.Settlement
import Recouple.Extraction.PageCoverage
import Recouple.Core.ExtractStability
import Recouple.Core.LedgerExtract
import Recouple.Extraction.PagedRead
import Recouple.Core.Identity
import Recouple.Core.PrintedMoney
import Recouple.Extraction.Reconcile
import Recouple.Pipeline.RefusedSignIn
import Recouple.Pipeline.RemittanceLines
import Recouple.Pipeline.SharedInvoices
import Recouple.Lib.Cuts
import Recouple.Pipeline.ClaimKeys
import Recouple.Core.Resolution
import Recouple.Lib.Calls
import Recouple.Pipeline.Store
import Recouple.Pipeline.OpenCases
import Recouple.Pipeline.Growth
import Recouple.Pipeline.OpenedLines
import Recouple.Pipeline.ReadDocument
import Recouple.Pipeline.RetrySafety
import Recouple.Pipeline.ClaimMatching
import Recouple.Pipeline.SecondReading
import Recouple.Database.EventHashes
import Recouple.Database.ChainRuns
import Recouple.Core.Reconciliation
import Recouple.Core.ReconcileStability
import Recouple.Core.Journal
import Recouple.Core.SettlementLines
import Recouple.Core.SettlementRules
import Recouple.Core.SettlementVerdict
import Recouple.Core.JournalConservation
import Recouple.Extraction.Schemas
import Recouple.Extraction.Wire
import Recouple.Extraction.Assembly
import Recouple.Extraction.Assembled
import Recouple.Extraction.WireAccounting
import Recouple.Extraction.Restore
import Recouple.Lib.NumberText
import Recouple.Extraction.RoundTrip
import Recouple.Database.MergeRuns
import Recouple.Database.Workflow
import Recouple.Database.WorkflowStores
import Recouple.Database.WorkflowRuns
import Recouple.Database.WorkflowSafety
import Recouple.Database.PacketApproval
import Recouple.Lib.Double
import Recouple.Qbo.PaymentSplit
import Recouple.Qbo.SplitReading
import Recouple.Qbo.SplitSpec
import Recouple.Qbo.SplitLoop
import Recouple.Qbo.SplitConservation
import Recouple.Database.Coverage
import Recouple.Database.CoverageRuns
import Recouple.Qbo.Posting
import Recouple.Qbo.PostingClose
import Recouple.Lib.Threads
import Recouple.Qbo.TokenRefresh
import Recouple.Qbo.TokenSafety
import Recouple.Pipeline.PortalJob
import Recouple.Pipeline.PortalRead
import Recouple.Pipeline.PortalConnection
import Recouple.Pipeline.PortalOutcome
import Recouple.Lib.Pages
import Recouple.Qbo.Histories
import Recouple.Qbo.HistoriesComplete
import Recouple.Pipeline.EmailParts
import Recouple.Pipeline.InboundEmail
import Recouple.Pipeline.InboundRecord
import Recouple.Lib.JsonText
import Recouple.Portal.Guard
import Recouple.Portal.Binding
import Recouple.Crypto.Context
import Recouple.Core.PacketBudget
import Recouple.Core.UnitPrice
import Recouple.Extraction.ReconcileNotice
import Recouple.Lib.Rounding
import Recouple.Lib.OneRun
import Recouple.Lib.Thousands
import Recouple.Lib.UpperCase
import Recouple.Lib.DoubleBounds
import Recouple.Core.Allocation
import Recouple.Core.Numerals
import Recouple.Core.NumberCell
import Recouple.Core.MoneyRoundTrips
import Recouple.Extraction.LineArithmetic
import Recouple.Pipeline.OwnCases
import Recouple.Portal.Additions
import Recouple.Qbo.MoneyText
import Recouple.Qbo.Amounts
import Recouple.Lib.Notes
import Recouple.Qbo.PostingBodies
import Recouple.Qbo.ReadBack
import Recouple.Core.CalendarDays
import Recouple.Core.IdentityAnswers
import Recouple.Pipeline.DocumentMatch
import Recouple.Pipeline.DocumentSuggestions
import Recouple.Database.PossibleDuplicates
import Recouple.Core.PacketLines
import Recouple.Ingest.Csv
import Recouple.Ingest.SheetXml
import Recouple.Ingest.XmlExpansion
import Recouple.Ingest.Tiff
import Recouple.Pipeline.RetailerBoard
import Recouple.Pipeline.BoardConservation
import Recouple.Core.PayerCodeMap
import Recouple.Core.PayerCodeAccounts
import Recouple.Core.Sizing
import Recouple.Core.SizingCard
import Recouple.Core.Dates
import Recouple.Core.ComputedDates
import Recouple.Extraction.PrintedAmounts
import Recouple.Extraction.AmountSpans
import Recouple.Extraction.Markup
import Recouple.Extraction.QuoteCheck
import Recouple.Extraction.AmountsVerified
import Recouple.Core.StateMachine
import Recouple.Qbo.PostingJob
import Recouple.Qbo.PostingSafety
import Recouple.Qbo.PostingInvariant
import Recouple.Lib.CanonicalJson
import Recouple.Lib.LinkedLog
import Recouple.Core.LedgerSnapshot
import Recouple.Database.Snapshots
import Recouple.Database.SnapshotChain
