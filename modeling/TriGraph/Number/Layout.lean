import TriGraph.Number.Shortest

/-!
# Written floats

A layout says how the shortest decimal of a float is set out.
-/

namespace TriGraph.Number

structure Layout where
  /-- First and last power of ten of a leading digit that is written positionally; all if absent. -/
  positional : Option (Int × Int)
  /-- A whole number ends in `.0`. -/
  pointed : Bool

def Layout.document : Layout :=
  { positional := some (-5, 15), pointed := true }

def Layout.plain : Layout :=
  { positional := none, pointed := false }

namespace Decimal

def digitText (d : Decimal) : List Char :=
  Nat.toDigits 10 d.digits

def leading (d : Decimal) : Int :=
  (digitCount d.digits : Int) - 1 + d.exponent

def zeros (n : Int) : List Char :=
  List.replicate n.toNat '0'

def positionalText (l : Layout) (d : Decimal) : List Char :=
  let ds := d.digitText
  if 0 ≤ d.exponent then ds ++ zeros d.exponent ++ (if l.pointed then ['.', '0'] else [])
  else if 0 ≤ d.leading then
    let whole := d.leading.toNat + 1
    ds.take whole ++ ['.'] ++ ds.drop whole
  else ['0', '.'] ++ zeros (-d.leading - 1) ++ ds

def exponentText (d : Decimal) : List Char :=
  let e := d.leading
  let point : List Char := match d.digitText with
    | [] => []
    | [c] => [c]
    | c :: cs => c :: '.' :: cs
  point ++ ['e', if e < 0 then '-' else '+'] ++ Nat.toDigits 10 e.natAbs

def text (l : Layout) (d : Decimal) : List Char :=
  let here := match l.positional with
    | none => true
    | some (first, last) => decide (d.digits = 0 ∨ first ≤ d.leading ∧ d.leading ≤ last)
  if here then positionalText l d else exponentText d

end Decimal

def text (l : Layout) (x : Float) : String :=
  if isNaN x then "NaN"
  else
    let body := if isFinite x then (shortest x).text l else ['i', 'n', 'f']
    String.ofList (if isNegative x then '-' :: body else body)

end TriGraph.Number
