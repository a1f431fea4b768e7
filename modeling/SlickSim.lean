import SlickSim.Lib.KeyedList
import SlickSim.Common.Types
import SlickSim.Common.Order
import SlickSim.Common.Messages
import SlickSim.OrderBook.L3
import SlickSim.OrderBook.L3Properties
import SlickSim.OrderBook.Reference
import SlickSim.OrderBook.Book
import SlickSim.OrderBook.Subscriber
import SlickSim.Engine.Publish
import SlickSim.Engine.MatchCommon
import SlickSim.Engine.Fifo
import SlickSim.Engine.ProRata
import SlickSim.Engine.Matching
import SlickSim.Exchange.Symbol
import SlickSim.Exchange.Exchange
import SlickSim.Exchange.Feed
import SlickSim.Venues.Coinbase
import SlickSim.Venues.Hyperliquid
import SlickSim.Exchange.Run
import SlickSim.Ledger.Ledger
import SlickSim.Ledger.Refinement
import SlickSim.Ledger.Machine
import SlickSim.Ledger.Representation
import SlickSim.Ledger.Preservation
import SlickSim.Ledger.Operations
import SlickSim.Ledger.Frame
import SlickSim.Engine.Allocation
import SlickSim.Ledger.Matching
import SlickSim.Ledger.Requests
import SlickSim.Ledger.Amendments
import SlickSim.Ledger.Totals
import SlickSim.Ledger.Feeds
import SlickSim.Ledger.Venues
import SlickSim.Ledger.Reachable
import SlickSim.Ledger.OrderLife
import SlickSim.Properties.BookRepresentation
import SlickSim.Properties.PhantomTotals
import SlickSim.Properties.Uncrossed
import SlickSim.Properties.ReconciledLevels
import SlickSim.Ledger.Lives
import SlickSim.Properties.ReportLifecycle
import SlickSim.Properties.UnpricedAmendment
import SlickSim.Properties.ReportAccounting
import SlickSim.Exchange.Frame
import SlickSim.Properties.LevelBatching
import SlickSim.Lib.PriorityQueue
import SlickSim.Venues.CoinbaseSequencer
import SlickSim.Properties.DispatchOrder
import SlickSim.Properties.NewOrderOutcome
import SlickSim.Lib.SortedPatch
import SlickSim.Venues.HyperliquidPublisher
import SlickSim.Properties.L2Convergence
import SlickSim.Venues.CoinbaseRestGateway
import SlickSim.Properties.RestVerdict
import SlickSim.Properties.SelfTrades
import SlickSim.Properties.SequenceGuard
import SlickSim.Ledger.PhantomLevels
import SlickSim.Ledger.Prints
import SlickSim.Ledger.CreditHistory
import SlickSim.Properties.LevelReconciliation
import SlickSim.Engine.Trail
import SlickSim.Exchange.Trail
import SlickSim.Ledger.Trails
import SlickSim.Properties.PublishedBook
import SlickSim.Gateway.ClOrdIdIndex
import SlickSim.Properties.ClOrdIds
import SlickSim.Gateway.PendingResponses
import SlickSim.Properties.SingleCompletion
import SlickSim.Properties.SnapshotRebuild
import SlickSim.Lib.MachineInt
import SlickSim.Engine.CheckedAllocation
import SlickSim.Lib.Along
import SlickSim.Venues.CoinbaseWsOrderGateway
import SlickSim.Properties.UserRouting
import SlickSim.Venues.MdSubscriptions
import SlickSim.Properties.SubscriptionBookkeeping
import SlickSim.Venues.MdSubscriptionCounts
import SlickSim.Properties.SubscriptionCounts
import SlickSim.Engine.Reports
import SlickSim.Exchange.Reports
import SlickSim.Exchange.RequestReports
import SlickSim.Properties.CorrelationTags
import SlickSim.Ledger.Bystanders
import SlickSim.Properties.UserIsolation
import SlickSim.Engine.EventFlags
import SlickSim.Properties.EventClose
import SlickSim.Lib.Serving
import SlickSim.Ledger.FifoFills
import SlickSim.Properties.PriceTime
import SlickSim.Properties.TradedCredits
import SlickSim.Lib.Sweeping
import SlickSim.Ledger.Plans
import SlickSim.Ledger.Checks
import SlickSim.Ledger.Planned
import SlickSim.Ledger.Performed
import SlickSim.Properties.AllFifo
import SlickSim.Properties.AmendmentPlaces
import SlickSim.Properties.CancelNewest
import SlickSim.Properties.EngineChoice
import SlickSim.Properties.FillOrKill
import SlickSim.Properties.TradeSummaries
import SlickSim.Utils.RingBuffer
import SlickSim.Gateway.RetransmitRing
import SlickSim.Properties.BoundedDeque
import SlickSim.Properties.RetransmitWindow
import SlickSim.Lib.Rounds
import SlickSim.Engine.CheckedLoops
import SlickSim.Ledger.CheckedFills
import SlickSim.Properties.MatchingTermination
import SlickSim.Exchange.TradeSnapshot
import SlickSim.Properties.TradeSnapshot
import SlickSim.Lib.Decimal
import SlickSim.Common.FixedPoint
import SlickSim.Properties.FixedPointText
import SlickSim.Properties.AveragePrice
import SlickSim.MdFeed.MulticastPacketFeed
import SlickSim.Properties.FeedMembership
import SlickSim.Lib.JsonText
import SlickSim.MarketDataPublisher.SequencedMessage
import SlickSim.Properties.SequencedText
import SlickSim.Properties.CreateCorrelation
import SlickSim.Properties.L2RoundTrip
import SlickSim.Ledger.Naming
import SlickSim.Gateway.OrderStore
import SlickSim.Properties.FillCounts
import SlickSim.Venues.HyperliquidRestGateway
import SlickSim.Properties.OidRoundTrip
import SlickSim.Properties.ArrivalOrder
import SlickSim.Properties.DispatchWatermark
import SlickSim.Lib.Framing
import SlickSim.Gateway.TcpOrderGateway
import SlickSim.Properties.ServedStreams
import SlickSim.Properties.SnapshotFrames
import SlickSim.Properties.Relay
import SlickSim.Properties.StoredOrders
import SlickSim.Properties.SocketStreams
import SlickSim.Properties.UserStreams
import SlickSim.Venues.CoinbaseOrderHistory
import SlickSim.Properties.OrderHistory
import SlickSim.Venues.CoinbaseCommon
import SlickSim.Properties.UserReplica
import SlickSim.Properties.UserBook
import SlickSim.Ledger.Tape
import SlickSim.Properties.TapeAgreement
import SlickSim.Exchange.Clock
import SlickSim.Properties.DrainTiming
