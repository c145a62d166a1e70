import TriGraph.Number.Order

/-!
# The shortest decimal of a float

The shortest decimal is the one with the fewest digits among the reals that round to the float and, of those, the one
nearest to it. On the grid of the multiples of a power of ten only the two neighbours of the float matter.
-/

namespace TriGraph.Number

structure Decimal where
  digits : Nat
  exponent : Int
deriving DecidableEq, Repr

def digitCount (n : Nat) : Nat :=
  (Nat.toDigits 10 n).length

def decade (num den : Nat) : Int :=
  if den ≤ num then (digitCount (num / den) : Int) - 1
  else
    let n := digitCount (den / num)
    if Nat.pow 10 (n - 1) * num = den then -((n : Int) - 1) else -(n : Int)

/-- An interval `low .. high` around `mid`, all three counted in the unit `num / den`. -/
structure Interval where
  low : Nat
  mid : Nat
  high : Nat
  closed : Bool
  num : Nat
  den : Nat

namespace Interval

/-- The reals that round to `m * 2 ^ q`, in quarters of the last place; below a power of two the floats are twice as
dense. -/
def around (m : Nat) (q : Int) : Interval :=
  { low := if m = leastNormal ∧ -1074 < q then 4 * m - 1 else 4 * m - 2
    mid := 4 * m
    high := 4 * m + 2
    closed := m % 2 = 0
    num := if 2 ≤ q then Nat.pow 2 (q - 2).toNat else 1
    den := if 2 ≤ q then 1 else Nat.pow 2 (2 - q).toNat }

def shift (i : Interval) (k : Int) : Interval :=
  let scale := Nat.pow 10 k.natAbs
  if 0 ≤ k then { i with den := i.den * scale } else { i with num := i.num * scale }

def aboveLow (i : Interval) (n : Nat) : Bool :=
  i.low * i.num < n * i.den || (i.closed && i.low * i.num = n * i.den)

def belowHigh (i : Interval) (n : Nat) : Bool :=
  n * i.den < i.high * i.num || (i.closed && n * i.den = i.high * i.num)

def nearer (i : Interval) (n : Nat) : Nat :=
  let below := i.mid * i.num - n * i.den
  let above := (n + 1) * i.den - i.mid * i.num
  if below < above then n else if above < below then n + 1 else if n % 2 = 0 then n else n + 1

def integer? (i : Interval) : Option Nat :=
  let n := i.mid * i.num / i.den
  match i.aboveLow n, i.belowHigh (n + 1) with
  | true, true => some (i.nearer n)
  | true, false => some n
  | false, true => some (n + 1)
  | false, false => none

def search (i : Interval) : Nat → Int → Decimal
  | 0, k =>
    let j := i.shift k
    ⟨j.nearer (j.mid * j.num / j.den), k⟩
  | n + 1, k =>
    match (i.shift k).integer? with
    | some d => ⟨d, k⟩
    | none => search i n (k - 1)

end Interval

def Decimal.trim : Nat → Decimal → Decimal
  | 0, d => d
  | n + 1, d => if d.digits % 10 = 0 ∧ d.digits ≠ 0 then trim n ⟨d.digits / 10, d.exponent + 1⟩ else d

/-- Seventeen digits always suffice. -/
def shortest (x : Float) : Decimal :=
  let (m, q) := parts x
  if m = 0 then ⟨0, 0⟩
  else
    let i := Interval.around m q
    (i.search 16 (decade (i.mid * i.num) i.den)).trim 17

end TriGraph.Number
