import RateEngine.MaxsecGrant
import RateEngine.Lib.GuardedRun
import RateEngine.Lib.SerialTable
import RateEngine.Db
import RateEngine.TimeCond
import RateEngine.AccountLookup
import RateEngine.RtDataQ
import RateEngine.AccountFallback
import RateEngine.Maxsec
import RateEngine.Lib.Slots
import RateEngine.CallTable
import RateEngine.CreditShares
import RateEngine.Rating
import RateEngine.RatingBooks
import RateEngine.RatingRefinement
import RateEngine.Conservation
import RateEngine.BoundarySplit
import RateEngine.BalanceWorkers
import RateEngine.AccountIsolation
import RateEngine.Lib.RecursiveQuery
import RateEngine.PriceWalk
import RateEngine.PriceAcceptance
import RateEngine.Lib.BucketCache
import RateEngine.RaccCache
import RateEngine.Lib.IsoDate
import RateEngine.TimeCondParity
import RateEngine.Lib.RankedRows
import RateEngine.RateChoice
import RateEngine.RateSelection
import RateEngine.OnlineOffline
import RateEngine.BalancePeriod
import RateEngine.Lib.ObjectHeap
import RateEngine.CallRequests
import RateEngine.CallObjects
import RateEngine.CallLinks
import RateEngine.TermDelivery
import RateEngine.ObjectOwnership
import RateEngine.CdrRaters
import RateEngine.RatedOnce
import RateEngine.FetchSchedule
import RateEngine.Lib.Fields
import RateEngine.CdrFile
import RateEngine.CardlessAccounts
import RateEngine.BatchProgress
import RateEngine.CrashRecovery
import RateEngine.CardBlocking
import RateEngine.DuckdbBatch
import RateEngine.Lib.Drawdown
import RateEngine.FreeSecondsBatches
import RateEngine.Lib.Transaction
import RateEngine.DuckdbCrash
import RateEngine.Lib.Ring
import RateEngine.NetServer
import RateEngine.NetShutdown
import RateEngine.Lib.UniqueTable
import RateEngine.CdrStore
import RateEngine.BilledTime
import RateEngine.CdrFileImport
import RateEngine.Lib.CopyCache
import RateEngine.RtCache
import RateEngine.CallSlots
import RateEngine.NosqlStore
import RateEngine.Lib.Json
import RateEngine.JsonExt
import RateEngine.JsonRoundTrip
import RateEngine.JsonMissing
import RateEngine.CdrmJson
import RateEngine.JsonrpcCc
import RateEngine.MaxsecMaximal
import RateEngine.Lib.Tally
import RateEngine.MaxsecAllowance
import RateEngine.MaxsecWrap
import RateEngine.PrefixSearch
import RateEngine.AccountColumns
import RateEngine.TimeCondHours
import RateEngine.JsonrpcReply
import RateEngine.Lib.EventLog
import RateEngine.ModLoader
import RateEngine.Lib.KeepFirst
import RateEngine.Lib.NamedTable
import RateEngine.Lib.Committed
import RateEngine.Lib.ShortestDecimal
import RateEngine.BplanTables
import RateEngine.BplanDump
import RateEngine.BplanImport
import RateEngine.BplanGrowth
import RateEngine.BplanCatalogue
import RateEngine.BplanLookups
import RateEngine.BplanProvision
import RateEngine.BplanInput
import RateEngine.BplanFrame
import RateEngine.BplanRoundTrip
import RateEngine.Lib.Buffer
import RateEngine.Lib.SqlLiteral
import RateEngine.SqlEscape
import RateEngine.NumberFilters
import RateEngine.RaccPreload
import RateEngine.Lib.GroupScan
import RateEngine.CardPreload
import RateEngine.Lib.EachStep
import RateEngine.WeekDayTable
import RateEngine.TariffOptions
import RateEngine.FreeAllowance
import RateEngine.BillingWindows
import RateEngine.WindowValidity
import RateEngine.FreeSplit
import RateEngine.DateValidation
import RateEngine.WorkerPartition
import RateEngine.DbReconnect
import RateEngine.Lib.Chain
import RateEngine.JsonrpcTransactions
import RateEngine.JsonrpcIds
import RateEngine.JanitorPass
import RateEngine.Lib.TokenReader
import RateEngine.MyCcParser
import RateEngine.WorkerBuffer
import RateEngine.CdrFieldCopies
import RateEngine.Lib.Backlog
import RateEngine.RateEngineCycle
import RateEngine.TlsInterface
import RateEngine.Lib.ReadThrough
import RateEngine.ReferenceAge
import RateEngine.CallClients
import RateEngine.MyCcClient
import RateEngine.Lib.Outputs
import RateEngine.DbResults
import RateEngine.Lib.TxClient
import RateEngine.ProfileTables
import RateEngine.ProfileRegistration
import RateEngine.ProfileRestarts
import RateEngine.CdrColumns
import RateEngine.CdrPipeline
import RateEngine.FileMediator
import RateEngine.AccountRows
import RateEngine.AccountFile
import RateEngine.AccountBook
import RateEngine.AccountOffers
import RateEngine.AccountImport
