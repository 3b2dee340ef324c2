import MediaManifest.Text.Numeral

/-!
# Binary fractions of 64 bits

A number in the binary interchange format of 64 bits is kept as its bits, so
that equality is decidable.  A finite one is a whole number times a power of
two; the reals that round to it form an interval around it.
-/

namespace MediaManifest.Decimal

/-- A number in the binary interchange format of 64 bits. -/
structure Binary64 where
  bits : UInt64
deriving DecidableEq

namespace Binary64

def toFloat (x : Binary64) : Float :=
  Float.ofBits x.bits

def ofFloat (x : Float) : Binary64 :=
  ⟨x.toBits⟩

def negative (x : Binary64) : Bool :=
  x.bits >>> 63 == 1

def exponentBits (x : Binary64) : Nat :=
  ((x.bits >>> 52) &&& 0x7FF).toNat

def fractionBits (x : Binary64) : Nat :=
  (x.bits &&& 0xFFFFFFFFFFFFF).toNat

def finite (x : Binary64) : Bool :=
  x.exponentBits != 2047

def significand (x : Binary64) : Nat :=
  if x.exponentBits = 0 then x.fractionBits else 2 ^ 52 + x.fractionBits

def power (x : Binary64) : Int :=
  if x.exponentBits = 0 then -1074 else (x.exponentBits : Int) - 1075

/-- Whether the finite number `x` has exactly the value of the integer `n`. -/
def isInteger (x : Binary64) (n : Int) : Bool :=
  let m : Int := if x.negative then -(x.significand : Int) else x.significand
  x.finite && m * Int.pow 2 x.power.toNat == n * Int.pow 2 (-x.power).toNat

/-- Whether the number next below `x` lies only half as far away as the one next above. -/
def unevenGap (x : Binary64) : Bool :=
  x.fractionBits == 0 && 1 < x.exponentBits

end Binary64

end MediaManifest.Decimal
