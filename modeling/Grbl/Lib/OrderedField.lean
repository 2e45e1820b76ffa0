import Mathlib

/-!
# Ordered fields

What the arithmetic lemmas ask of a linearly ordered field, by name, so that it is found at once.
-/

namespace Grbl.Lib.OrderedField

variable {K : Type*} [Field K] [LinearOrder K] [IsStrictOrderedRing K]

scoped instance (priority := high) isOrderedRing : IsOrderedRing K := IsStrictOrderedRing.toIsOrderedRing

scoped instance (priority := high) isOrderedAddMonoid : IsOrderedAddMonoid K := IsOrderedRing.toIsOrderedAddMonoid

scoped instance (priority := high) zeroLEOneClass : ZeroLEOneClass K := IsOrderedRing.toZeroLEOneClass

scoped instance (priority := high) charZero : CharZero K := IsStrictOrderedRing.toCharZero

scoped instance (priority := high) existsAddOfLE : ExistsAddOfLE K := inferInstance

scoped instance (priority := high) addLeftMono : AddLeftMono K := inferInstance

scoped instance (priority := high) addRightMono : AddRightMono K := inferInstance

scoped instance (priority := high) addLeftStrictMono : AddLeftStrictMono K := inferInstance

scoped instance (priority := high) addRightStrictMono : AddRightStrictMono K := inferInstance

scoped instance (priority := high) posMulMono : PosMulMono K := inferInstance

scoped instance (priority := high) mulPosMono : MulPosMono K := inferInstance

scoped instance (priority := high) posMulStrictMono : PosMulStrictMono K := inferInstance

scoped instance (priority := high) mulPosStrictMono : MulPosStrictMono K := inferInstance

end Grbl.Lib.OrderedField
