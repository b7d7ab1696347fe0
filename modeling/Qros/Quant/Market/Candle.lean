import Qros.Quant.Market

/-!
# Candles

`include/quant/market/candle.h`.
-/

universe u

namespace Qros.Quant

open List

/-- `Timeframe`; every value of it in the source is one of these. -/
inductive Timeframe where
  | m1
  | m5
  | m15
  | m30
  | h1
  | h4
  | d1
  | w1
  | mn1
deriving DecidableEq

def timeframeName : Timeframe → List Char
  | .m1 => ['M', '1']
  | .m5 => ['M', '5']
  | .m15 => ['M', '1', '5']
  | .m30 => ['M', '3', '0']
  | .h1 => ['H', '1']
  | .h4 => ['H', '4']
  | .d1 => ['D', '1']
  | .w1 => ['W', '1']
  | .mn1 => ['M', 'N', '1']

/-- `timeframe_minutes`: the underlying value of the enumeration. -/
def timeframeMinutes : Timeframe → Int
  | .m1 => 1
  | .m5 => 5
  | .m15 => 15
  | .m30 => 30
  | .h1 => 60
  | .h4 => 240
  | .d1 => 1440
  | .w1 => 10080
  | .mn1 => 43200

theorem timeframeMinutes_pos (tf : Timeframe) : 0 < timeframeMinutes tf := by
  cases tf <;> decide

/-- `std::chrono::minutes`, in the nanoseconds of a `TimePoint`. -/
def minutes (n : Int) : Int := n * 60000000000

structure Candle (F : Type u) where
  timestamp : TimePoint
  «open» : F
  high : F
  low : F
  close : F
  volume : F
  tradeCount : UInt64
  vwap : F
  timeframe : Timeframe
deriving DecidableEq

section

variable {F : Type u} [Zero F]

def Candle.empty : Candle F := ⟨0, 0, 0, 0, 0, 0, 0, 0, .m1⟩

instance : Inhabited (Candle F) := ⟨Candle.empty⟩

def Candle.ofOhlcv (ohlcv : OHLCV F) (tf : Timeframe) : Candle F :=
  { (Candle.empty : Candle F) with
    timestamp := ohlcv.timestamp
    «open» := ohlcv.open
    high := ohlcv.high
    low := ohlcv.low
    close := ohlcv.close
    volume := ohlcv.volume
    timeframe := tf }

variable [LE F] [LT F] [DecidableLE F] [DecidableLT F]

def Candle.isValid (c : Candle F) : Bool :=
  decide (c.low ≤ c.high) && decide (c.open ≤ c.high) && decide (c.close ≤ c.high) &&
    decide (c.low ≤ c.open) && decide (c.low ≤ c.close) && decide (0 ≤ c.volume) &&
    (decide (0 < c.high) || decide (0 < c.low) || decide (0 < c.open) || decide (0 < c.close))

end

/-! ## Series -/

section

variable {F : Type u} [Zero F] [LE F] [LT F] [DecidableLE F] [DecidableLT F]

/-- Valid candles in the order of their time stamps, no two at the same time. -/
structure Series (cs : List (Candle F)) : Prop where
  valid : ∀ c ∈ cs, c.isValid = true
  increasing : cs.Pairwise (fun a b ↦ a.timestamp < b.timestamp)

theorem Series.nil : Series ([] : List (Candle F)) :=
  ⟨fun _ h ↦ absurd h not_mem_nil, List.Pairwise.nil⟩

theorem Series.of_append {as bs : List (Candle F)} (h : Series (as ++ bs)) : Series as :=
  ⟨fun c hc ↦ h.valid c (mem_append_left _ hc), (pairwise_append.mp h.increasing).1⟩

theorem series_concat_iff {cs : List (Candle F)} {c : Candle F} (h : Series cs) :
    Series (cs ++ [c]) ↔
      c.isValid = true ∧ ∀ last, cs.getLast? = some last → last.timestamp < c.timestamp := by
  constructor
  · intro h'
    refine ⟨h'.valid c (by simp), fun last hlast ↦ ?_⟩
    exact (pairwise_append.mp h'.increasing).2.2 last (mem_of_getLast? hlast) c
      (mem_singleton_self c)
  · rintro ⟨hvalid, hlast⟩
    refine ⟨fun d hd ↦ ?_, pairwise_append.mpr ⟨h.increasing, by simp, ?_⟩⟩
    · rcases mem_append.mp hd with hd | hd
      · exact h.valid d hd
      · rwa [mem_singleton.mp hd]
    · intro d hd e he
      rw [mem_singleton.mp he]
      rcases eq_nil_or_concat cs with rfl | ⟨init, last, hcs⟩
      · cases hd
      · rw [concat_eq_append] at hcs
        subst hcs
        have hlt : last.timestamp < c.timestamp := hlast last (by simp)
        rcases mem_append.mp hd with hd | hd
        · have := (pairwise_append.mp h.increasing).2.2 d hd last (by simp)
          exact this.trans hlt
        · rwa [mem_singleton.mp hd]

theorem Series.unique {as bs as' bs' : List (Candle F)} {c c' : Candle F}
    (heq : as ++ c :: bs = as' ++ c' :: bs') (h : Series as) (hc : ¬ Series (as ++ [c]))
    (h' : Series as') (hc' : ¬ Series (as' ++ [c'])) : as = as' := by
  have hlen : as.length = as'.length := by
    rcases Nat.lt_trichotomy as.length as'.length with hlt | heq' | hlt
    · have hpre : as ++ [c] <+: as' := by
        refine List.prefix_of_prefix_length_le ⟨bs, by simpa using heq⟩
          (List.prefix_append as' (c' :: bs')) (by simpa using Nat.succ_le_of_lt hlt)
      obtain ⟨rest, rfl⟩ := hpre
      exact absurd h'.of_append hc
    · exact heq'
    · have hpre : as' ++ [c'] <+: as := by
        refine List.prefix_of_prefix_length_le ⟨bs', by simpa using heq.symm⟩
          (List.prefix_append as (c :: bs)) (by simpa using Nat.succ_le_of_lt hlt)
      obtain ⟨rest, rfl⟩ := hpre
      exact absurd h.of_append hc'
  exact (append_inj heq hlen).1

end

end Qros.Quant
