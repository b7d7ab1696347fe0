import Qros.Quant.Arith
import Qros.Lib.Calendar

/-!
# Bars and time stamps

`include/quant/market/types.h` and the time helpers of `strategy_hash.cpp`.  A
`TimePoint` is a `std::chrono::system_clock::time_point`: nanoseconds since the
epoch.  `toTimeT` and `gmtime` are the library's `to_time_t`, which cuts the
fraction of a second off towards zero, and `gmtime_r`.
-/

universe u

namespace Qros.Quant

open Qros.Lib.Calendar

/-- Nanoseconds since 1970-01-01T00:00:00Z. -/
abbrev TimePoint := Int

structure OHLCV (F : Type u) where
  timestamp : TimePoint
  «open» : F
  high : F
  low : F
  close : F
  volume : F
deriving DecidableEq

instance {F : Type u} [Zero F] : Inhabited (OHLCV F) := ⟨⟨0, 0, 0, 0, 0, 0⟩⟩

def OHLCV.isValid {F : Type u} [LE F] [DecidableLE F] (b : OHLCV F) : Bool :=
  decide (b.low ≤ b.high) && decide (b.open ≤ b.high) && decide (b.close ≤ b.high) &&
    decide (b.low ≤ b.open) && decide (b.low ≤ b.close)

def barAt {F : Type u} [Zero F] (bars : List (OHLCV F)) (i : Nat) : OHLCV F := bars.getD i default

/-- `std::chrono::duration_cast<std::chrono::seconds>`. -/
def toSeconds (d : Int) : Int := d.tdiv 1000000000

def toTimeT (tp : TimePoint) : Int := toSeconds tp

/-- The fields of `std::tm` the engine reads. -/
structure Tm where
  date : Civil
  hour : Int
  min : Int
  sec : Int
  wday : Int

/-- `gmtime_r`; 1970-01-01 was a Thursday. -/
def gmtime (t : Int) : Tm where
  date := civilFromDays (t / 86400)
  hour := t % 86400 / 3600
  min := t % 3600 / 60
  sec := t % 60
  wday := (t / 86400 + 4) % 7

structure UtcParts where
  year : Int
  month : Int
  day : Int
  hour : Int
  weekday : Int
  dayKey : Int

def utcParts (tp : TimePoint) : UtcParts :=
  let tm := gmtime (toTimeT tp)
  { year := tm.date.year
    month := tm.date.month
    day := tm.date.day
    hour := tm.hour
    weekday := tm.wday
    dayKey := tm.date.year * 10000 + tm.date.month * 100 + tm.date.day }

/-- The UTC day a time stamp falls on, as a number of days since the epoch. -/
def utcDay (tp : TimePoint) : Int := toTimeT tp / 86400

theorem toSeconds_mono {s t : Int} (h : s ≤ t) : toSeconds s ≤ toSeconds t := by
  unfold toSeconds
  rw [Int.tdiv_eq_ediv, Int.tdiv_eq_ediv]
  have hsign : Int.sign 1000000000 = 1 := rfl
  simp only [hsign]
  split <;> split <;> omega

theorem utcDay_mono {s t : TimePoint} (h : s ≤ t) : utcDay s ≤ utcDay t :=
  Int.ediv_le_ediv (by decide) (toSeconds_mono h)

/-- Two time stamps have the same `day_key` just if they fall on the same UTC
day. -/
theorem dayKey_eq_iff {s t : TimePoint} :
    (utcParts s).dayKey = (utcParts t).dayKey ↔ utcDay s = utcDay t := by
  constructor
  · intro h
    have hs := civilFromDays_bounds (toTimeT s / 86400)
    have ht := civilFromDays_bounds (toTimeT t / 86400)
    refine civilFromDays_injective (Civil.ext ?_ ?_ ?_) <;>
      simp only [utcParts, gmtime, utcDay] at h ⊢ <;> omega
  · intro h
    have h' : toTimeT s / 86400 = toTimeT t / 86400 := h
    simp only [utcParts, gmtime, h']

theorem dayKey_ne_zero (t : TimePoint) : (utcParts t).dayKey ≠ 0 := by
  have ht := civilFromDays_bounds (toTimeT t / 86400)
  simp only [utcParts, gmtime]
  omega

end Qros.Quant
