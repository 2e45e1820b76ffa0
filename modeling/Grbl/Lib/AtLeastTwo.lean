import Mathlib

/-!
# Literals

The proofs that a literal is at least two, by name, for definitions that use the literal in a field.
-/

namespace Grbl.Lib.Literal

scoped instance two : Nat.AtLeastTwo 2 := ⟨by decide⟩

scoped instance three : Nat.AtLeastTwo 3 := ⟨by decide⟩

scoped instance four : Nat.AtLeastTwo 4 := ⟨by decide⟩

scoped instance five : Nat.AtLeastTwo 5 := ⟨by decide⟩

scoped instance ten : Nat.AtLeastTwo 10 := ⟨by decide⟩

scoped instance sixty : Nat.AtLeastTwo 60 := ⟨by decide⟩

scoped instance hundred : Nat.AtLeastTwo 100 := ⟨by decide⟩

scoped instance oneTwentyFive : Nat.AtLeastTwo 125 := ⟨by decide⟩

scoped instance oneTwentySeven : Nat.AtLeastTwo 127 := ⟨by decide⟩

scoped instance oneEighty : Nat.AtLeastTwo 180 := ⟨by decide⟩

scoped instance threeSixty : Nat.AtLeastTwo 360 := ⟨by decide⟩

scoped instance thousand : Nat.AtLeastTwo 1000 := ⟨by decide⟩

scoped instance fifteenTwentyOne : Nat.AtLeastTwo 1521 := ⟨by decide⟩

scoped instance tenThousand : Nat.AtLeastTwo 10000 := ⟨by decide⟩

scoped instance hundredTwentyThousand : Nat.AtLeastTwo 120000 := ⟨by decide⟩

end Grbl.Lib.Literal
