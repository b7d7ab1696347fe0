import Mathlib.Data.Nat.Cast.Defs

/-!
# The numerals of the sources

The numerals that several modules write over an arbitrary type, found as constants wherever
they are written.
-/

namespace Qros.Lib

instance atLeastTwo_2 : Nat.AtLeastTwo 2 := inferInstance
instance atLeastTwo_3 : Nat.AtLeastTwo 3 := inferInstance
instance atLeastTwo_4 : Nat.AtLeastTwo 4 := inferInstance
instance atLeastTwo_5 : Nat.AtLeastTwo 5 := inferInstance
instance atLeastTwo_6 : Nat.AtLeastTwo 6 := inferInstance
instance atLeastTwo_10 : Nat.AtLeastTwo 10 := inferInstance
instance atLeastTwo_20 : Nat.AtLeastTwo 20 := inferInstance
instance atLeastTwo_95 : Nat.AtLeastTwo 95 := inferInstance
instance atLeastTwo_99 : Nat.AtLeastTwo 99 := inferInstance
instance atLeastTwo_100 : Nat.AtLeastTwo 100 := inferInstance
instance atLeastTwo_10000 : Nat.AtLeastTwo 10000 := inferInstance
instance atLeastTwo_100000 : Nat.AtLeastTwo 100000 := inferInstance

end Qros.Lib
