import TriGraph.Number.Digits
import TriGraph.Number.Order

/-!
# Floats from decimal text

`nearest` gives the float nearest to a decimal. `scaled` is the cheaper reading of documents, by one product or
quotient with a power of ten, so that a long decimal may be off by its last bit.
-/

namespace TriGraph.Number

def maxWord : Nat :=
  0xFFFFFFFFFFFFFFFF

def nearest (m : Nat) (e : Int) : Float :=
  Float.ofScientific m (e < 0) e.natAbs

def fitDigits (n : Nat) : List Char → Nat × List Char
  | [] => (n, [])
  | c :: cs => if 10 * n + digitValue c ≤ maxWord then fitDigits (10 * n + digitValue c) cs else (n, c :: cs)

/-- One product or quotient for each 308 powers of ten; absent on overflow. -/
def scaled (f : Float) (e : Int) : Option Float :=
  if e.natAbs ≤ 308 then
    let p := nearest 1 e.natAbs
    let y := if 0 ≤ e then f * p else f / p
    if isFinite y then some y else none
  else if isZero f then some f
  else if 0 ≤ e then none
  else scaled (f / nearest 1 308) (e + 308)
termination_by e.natAbs
decreasing_by omega

end TriGraph.Number
