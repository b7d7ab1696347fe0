import Qros.Quant.Market.OrderBook
import Qros.Quant.Market.Aggregator
import Qros.Quant.Statistics.Rolling
import Qros.Quant.Statistics.MaxDrawdown
import Qros.Quant.Backtest.RecoveryAgreement
import Qros.Quant.Backtest.ReportJson
import Qros.Quant.Backtest.Reconcile
import Qros.Quant.Backtest.Sessions
import Qros.Quant.LowLatency.Evidence
import Qros.Quant.Strategy.Risk
import Qros.Quant.Strategy.Reporting
import Qros.Quant.Bridge.Sha256
import Qros.Quant.Strategy.Preimage
import Qros.Quant.Strategy.MirrorRun
import Qros.Quant.Strategy.Unstopped
import Qros.Saas.Lease
import Qros.Saas.Worker
import Qros.Saas.Delivery
import Qros.Saas.Upload
import Qros.Saas.RateLimit
import Qros.Saas.Purge
import Qros.Saas.Listing
import Qros.Saas.Replay
import Qros.Saas.Quota
import Qros.Saas.Deletion
import Qros.Saas.Billing
import Qros.Orchestration.Grid
import Qros.Orchestration.Discipline
import Qros.Orchestration.TrialChain
import Qros.QuantEngine.LabelAgreement
import Qros.Claims.Attach
import Qros.DataEngine.RoundTrip
import Qros.OrderFlow.AuditIdentity
import Qros.OrderFlow.Explain
import Qros.QuantEngine.ReplayOrder
import Qros.Orchestration.PointInTime
import Qros.Orchestration.RegimeGaps
import Qros.Risk.Gate
import Qros.Pipeline.Retention
import Qros.Orchestration.Barriers
import Qros.Orchestration.LabelSymmetry
import Qros.Orchestration.ThreeStateLabels
import Qros.Orchestration.PurgedWalkForward
import Qros.Objects.ReasoningChain
import Qros.Claims.PlanLock
import Qros.Evidence.Lineage
import Qros.Saas.Manifest
import Qros.Quant.Research.Optimizer
import Qros.Orchestration.SequenceGuard
import Qros.QuantEngine.WalkForward
import Qros.QuantEngine.Scheduler
import Qros.DataEngine.TradingView
import Qros.OrderFlow.TradeFlow
import Qros.OrderFlow.TradeClusters
import Qros.QuantEngine.SimpleBacktest
import Qros.DataEngine.Iterator
import Qros.DataEngine.Frozen
import Qros.MarketMemory.OutcomeEngine
import Qros.QuantEngine.StructureEvents
import Qros.ResearchCore.MultipleTesting
import Qros.MarketMemory.Matcher
import Qros.QuantEngine.Econometrics
import Qros.Macro.Revision
import Qros.Macro.Calendar
