import Qros.DataEngine.Records

/-!
# Market memory objects

The object classes of `market_memory/models.py`.  Prices and measures lie in an arbitrary type `F`.
-/

namespace Qros.MarketMemory

open Qros.Lib Qros.Python Qros.DataEngine.Records

/-- The fields of `core/base_object.py`. -/
structure MarketObject where
  id : String
  createdAt : Utc
  ontologyTags : List String
  lifecycle : Lifecycle

structure MarketSnapshot (F : Type) extends MarketObject where
  asset : String
  timestamp : Datetime
  timeframe : String
  «open» : F
  high : F
  low : F
  close : F
  volume : F
  volatility : F
  trendState : String
  marketRegime : String
  indicators : Dict String F
  confidence : F

structure MarketRegime (F : Type) extends MarketObject where
  regime : String
  asset : String
  timestamp : Datetime
  confidence : F
  snapshotIds : List String
  volatilityLevel : F
  trendStrength : F
  durationBars : Int
  notes : String

structure MacroContextSnapshot (F : Type) extends MarketObject where
  timestamp : Datetime
  geography : String
  dxy : F
  realYield : F
  cpi : F
  fedEvent : String
  nfp : F
  geopoliticalEvents : List String
  overallAssessment : String
  confidence : F

structure HistoricalScenario (F : Type) extends MarketObject where
  name : String
  description : String
  startTime : Option Datetime
  endTime : Option Datetime
  snapshotIds : List String
  regimeId : String
  macroId : String
  outcome : String
  priceOutcome : F
  volatilityOutcome : F
  maxFavorableMovement : F
  maxAdverseMovement : F
  tags : List String
  datasetSource : String
  similarityScore : F

end Qros.MarketMemory
