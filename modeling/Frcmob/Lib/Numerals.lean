import Mathlib.Algebra.GroupWithZero.Nat
import Mathlib.Data.Nat.Cast.Defs

/-!
The numerals that definitions over a field or at `Fin n` are written with. Each has an instance
of its own, so what a definition means does not depend on where its numeral was used first.
-/

namespace Numerals

/-! ### Numerals of a ring -/

instance two : Nat.AtLeastTwo 2 := inferInstance
instance three : Nat.AtLeastTwo 3 := inferInstance
instance four : Nat.AtLeastTwo 4 := inferInstance
instance six : Nat.AtLeastTwo 6 := inferInstance
instance eight : Nat.AtLeastTwo 8 := inferInstance
instance nine : Nat.AtLeastTwo 9 := inferInstance
instance ten : Nat.AtLeastTwo 10 := inferInstance
instance twelve : Nat.AtLeastTwo 12 := inferInstance
instance fifteen : Nat.AtLeastTwo 15 := inferInstance
instance twenty : Nat.AtLeastTwo 20 := inferInstance
instance thirty : Nat.AtLeastTwo 30 := inferInstance
instance fortyFive : Nat.AtLeastTwo 45 := inferInstance
instance fifty : Nat.AtLeastTwo 50 := inferInstance
instance sixty : Nat.AtLeastTwo 60 := inferInstance
instance hundred : Nat.AtLeastTwo 100 := inferInstance
instance hundredTwenty : Nat.AtLeastTwo 120 := inferInstance
instance thousand : Nat.AtLeastTwo 1000 := inferInstance
instance tenThousand : Nat.AtLeastTwo 10000 := inferInstance

/-! ### Numerals of `Fin n` -/

instance finThree : NeZero 3 := inferInstance
instance finEight : NeZero 8 := inferInstance

end Numerals
