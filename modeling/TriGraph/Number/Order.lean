/-!
# The order of floats

A float is compared through its sign and its magnitude, the 63 bits below the sign read as a natural number.
`compare?` is the numeric comparison, `totalRank` gives the IEEE total order.
-/

namespace TriGraph.Number

def signWeight : Nat :=
  0x8000000000000000

def leastNormal : Nat :=
  0x10000000000000

def magnitude (x : Float) : Nat :=
  x.toBits.toNat % signWeight

def isNegative (x : Float) : Bool :=
  signWeight ≤ x.toBits.toNat

def infiniteMagnitude : Nat :=
  0x7FF * leastNormal

def isNaN (x : Float) : Bool :=
  infiniteMagnitude < magnitude x

def isFinite (x : Float) : Bool :=
  magnitude x < infiniteMagnitude

def isZero (x : Float) : Bool :=
  magnitude x = 0

/-! ## Comparison -/

/-- Both zeros have rank 0. -/
def rank (x : Float) : Int :=
  if isNegative x then -(magnitude x : Int) else magnitude x

def totalRank (x : Float) : Int :=
  if isNegative x then -(magnitude x : Int) - 1 else magnitude x

def compare? (x y : Float) : Option Ordering :=
  if isNaN x || isNaN y then none else some (compare (rank x) (rank y))

def equal (x y : Float) : Bool :=
  compare? x y == some .eq

def less (x y : Float) : Bool :=
  compare? x y == some .lt

def atMost (x y : Float) : Bool :=
  less x y || equal x y

/-! ## Integers -/

def fitsInt64 (n : Int) : Bool :=
  Int64.minValue.toInt ≤ n && n ≤ Int64.maxValue.toInt

def ofInt (n : Int) : Float :=
  .ofModel (.ofInt n)

/-- Significand `m` and exponent `q` of a finite float, whose absolute value is `m * 2 ^ q`. -/
def parts (x : Float) : Nat × Int :=
  let e : Nat := magnitude x / leastNormal
  let f : Nat := magnitude x % leastNormal
  if e = 0 then (f, -1074) else (f + leastNormal, (e : Int) - 1075)

def toInt? (x : Float) : Option Int :=
  if isFinite x then
    let (m, q) := parts x
    let sign (n : Nat) : Int := if isNegative x then -(n : Int) else n
    let scale := Nat.pow 2 q.natAbs
    if 0 ≤ q then some (sign (m * scale))
    else if m % scale = 0 then some (sign (m / scale))
    else none
  else none

end TriGraph.Number
