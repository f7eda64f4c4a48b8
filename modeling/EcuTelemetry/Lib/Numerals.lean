/-
  EcuTelemetry.Lib.Numerals

  The numerals of the formulas over an arbitrary field.  Each has one proof that it
  is a numeral, which all definitions share.
-/

import Mathlib.Data.Nat.Cast.Defs

namespace EcuTelemetry.Numerals

instance two : Nat.AtLeastTwo 2 := ⟨by omega⟩
instance three : Nat.AtLeastTwo 3 := ⟨by omega⟩
instance four : Nat.AtLeastTwo 4 := ⟨by omega⟩
instance ten : Nat.AtLeastTwo 10 := ⟨by omega⟩
instance twelve : Nat.AtLeastTwo 12 := ⟨by omega⟩
instance twenty : Nat.AtLeastTwo 20 := ⟨by omega⟩
instance thirtyTwo : Nat.AtLeastTwo 32 := ⟨by omega⟩
instance fifty : Nat.AtLeastTwo 50 := ⟨by omega⟩
instance sixty : Nat.AtLeastTwo 60 := ⟨by omega⟩
instance hundred : Nat.AtLeastTwo 100 := ⟨by omega⟩
instance twoHundred : Nat.AtLeastTwo 200 := ⟨by omega⟩
instance thousand : Nat.AtLeastTwo 1000 := ⟨by omega⟩
instance thousandFifty : Nat.AtLeastTwo 1050 := ⟨by omega⟩
instance threeThousand : Nat.AtLeastTwo 3000 := ⟨by omega⟩

end EcuTelemetry.Numerals
