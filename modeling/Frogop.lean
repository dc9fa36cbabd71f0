import Frogop.Lib.Outcome
import Frogop.Lib.Run
import Frogop.Lib.Custody
import Frogop.Lib.Cursor
import Frogop.Lib.Replay
import Frogop.Lib.TtlCache
import Frogop.Lib.Upsert
import Frogop.Lib.Snapshot
import Frogop.Lib.Batch
import Frogop.Lib.Script
import Frogop.Lib.Pages
import Frogop.Lib.Grouping
import Frogop.Runtime.Basic
import Frogop.Runtime.Chain
import Frogop.Bridge.Outputs
import Frogop.Bridge.Recognition
import Frogop.Bridge.PriceCache
import Frogop.Bridge.EscrowScript
import Frogop.Pool.Base
import Frogop.Pool.OptionsPool.Basic
import Frogop.Pool.Accounts
import Frogop.Pool.OptionsPool.Spec
import Frogop.Pool.Views
import Frogop.Pool.Execution
import Frogop.Pool.OptionsPool.Lifecycle
import Frogop.Pool.OptionsPool.Solvency
import Frogop.Pool.OptionsPool.Arithmetic
import Frogop.Pool.BridgeCalls
import Frogop.Pool.BtcQuote.Basic
import Frogop.Pool.BtcQuote.Spec
import Frogop.Pool.BtcQuote.Lifecycle
import Frogop.Pool.BtcQuote.Reservation
import Frogop.Pool.BtcQuote.Access
import Frogop.Pool.BtcQuote.Exercise
import Frogop.Pool.BtcQuote.Buffers
import Frogop.Pool.BtcQuote.Price
import Frogop.Pool.BtcUnderlying.Basic
import Frogop.Pool.BtcUnderlying.Spec
import Frogop.Pool.BtcUnderlying.Lifecycle
import Frogop.Pool.BtcUnderlying.Escrow
import Frogop.Pool.BtcUnderlying.Solvency
import Frogop.Pool.BtcUnderlying.Exercise
import Frogop.Pool.BtcSolvency
import Frogop.Pool.Slots.Models
import Frogop.Pool.Registry
import Frogop.Pool.OptionsPool.Roll
import Frogop.Pool.OptionsPool.Payouts
import Frogop.Pool.OptionsPool.Batches
import Frogop.Pool.Dust
import Frogop.Factory.Deployment
import Frogop.Router.Legs
import Frogop.Indexer.OptionsPool
import Frogop.Indexer.BtcPools
import Frogop.Indexer.FeeLedger
import Frogop.Indexer.Overlap
import Frogop.Indexer.Rollup
import Frogop.Indexer.SwapVolume
import Frogop.Indexer.Ohlcv
import Frogop.Indexer.Api
import Frogop.Frontend.PoolService
import Frogop.Frontend.Modals
import Frogop.Frontend.OptionsChain
import Frogop.Frontend.ActiveFlows
import Frogop.Frontend.Transactions
import Frogop.Indexer.Truncation
import Frogop.Bridge.ScriptNumber
import Frogop.Frontend.PoolGrouping
import Frogop.Frontend.TokenAmounts
import Frogop.Lib.Register
import Frogop.Market.Basic
import Frogop.Market.Bitcoin
import Frogop.Market.WindDown
import Frogop.Frontend.IndexerService
import Frogop.Indexer.Following
import Frogop.Market.Indexed
import Frogop.Market.Portfolio
import Frogop.Frontend.BuyOption
import Frogop.Bridge.EscrowSpending
import Frogop.Pool.BtcUnderlying.Reclaim
import Frogop.Market.Life
import Frogop.Market.Title
import Frogop.Market.Prices
import Frogop.Market.Slots
