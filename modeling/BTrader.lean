import BTrader.Journal.Delivery
import BTrader.Journal.MergeOrder
import BTrader.Journal.SharedJournal
import BTrader.Journal.SeekContract
import BTrader.Journal.ReaderChoice
import BTrader.Journal.PageChange
import BTrader.Strategy.OrderIds
import BTrader.Journal.ClockAgreement
import BTrader.Broker.FillConservation
import BTrader.Broker.BookAgreement
import BTrader.Engines.CPEngine
import BTrader.Engines.TDEngine
import BTrader.Engines.OrderRouting
import BTrader.Journal.SerialWrites
import BTrader.Journal.PublishedWrites
import BTrader.Core.PositionCost
import BTrader.Broker.LifeCycle
import BTrader.Broker.LimitPrice
import BTrader.Broker.Overdraft
import BTrader.Broker.OrderConditions
import BTrader.Broker.TradeIds
import BTrader.Broker.Stopping
import BTrader.Engines.Rejections
import BTrader.Engines.WakeUp
import BTrader.Core.InstrumentKeys
import BTrader.Engines.AccountKeys
import BTrader.Core.RecordStores
import BTrader.Broker.BinanceParams
import BTrader.Broker.BinanceRequests
import BTrader.Core.MessageRoundTrip
import BTrader.Core.MessageReads
import BTrader.Core.Equity
import BTrader.Engines.Backtest
import BTrader.Engines.SyncToken
import BTrader.Engines.LockStep
import BTrader.Engines.TradingDays
import BTrader.Core.BookStatistics
import BTrader.Broker.PricePriority
import BTrader.Extension.DepthCallBoard
import BTrader.Infra.Json
import BTrader.Broker.BinanceData
import BTrader.Broker.SymbolCase
import BTrader.Infra.Csv
import BTrader.Infra.CsvRoundTrip
import BTrader.Infra.MemIPC
import BTrader.Journal.PageReload
import BTrader.Strategy.ConsecutiveBarStrategy
import BTrader.Strategy.NetPosition
import BTrader.Strategy.ClosingOrders
import BTrader.Journal.ReaderPointer
import BTrader.Journal.FailedJoin
import BTrader.Infra.CsvCodec
import BTrader.Infra.CsvBuffer
import BTrader.Infra.CsvLines
import BTrader.Infra.Calendar
import BTrader.Broker.FileDataService
import BTrader.Broker.Subscriptions
import BTrader.Broker.StreamsUri
import BTrader.Strategy.ValidatedSetup
import BTrader.Lib.Window
import BTrader.Lib.Extremes
import BTrader.TradeView.TickTradeBook
import BTrader.TradeView.KLineSet
import BTrader.TradeView.OrderBookModel
import BTrader.TradeView.ConfigManager
import BTrader.Lib.Drawdown
import BTrader.Strategy.ProfitTracking
import BTrader.Strategy.SentOrders
import BTrader.Strategy.DrawdownGate
import BTrader.Strategy.PositionLimit
import BTrader.Algorithm.MaxDrawdown
import BTrader.Algorithm.Ratios
import BTrader.Algorithm.TailRisk
import BTrader.Infra.MemBounds
import BTrader.Core.FdsMap
import BTrader.Bot.SplitMessage
import BTrader.Journal.Rollback
import BTrader.Journal.RollbackRing
import BTrader.Engines.Startup
import BTrader.Journal.JoinRace
import BTrader.Journal.RollbackRestart
import BTrader.Engines.Descriptors
import BTrader.Journal.PageNames
import BTrader.Engines.BacktestEnd
import BTrader.Engines.BacktestFiles
import BTrader.Main.OptionParser
import BTrader.TradeView.CoreAgent
import BTrader.TradeView.StopListening
import BTrader.TradeView.ReadRace
import BTrader.Strategy.MyStrategy
import BTrader.Strategy.TradingCycle
