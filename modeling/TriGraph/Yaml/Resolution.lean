import TriGraph.Document
import TriGraph.Number.Order
import TriGraph.Number.Reading

/-!
# Resolution of plain scalars

A decimal with a needless leading zero is a text. An integer beyond 64 bits that fits in 128 is refused, a longer one
is a float; a float that is too large is a text.
-/

namespace TriGraph.Yaml

/-! ## Words -/

def isNullWord (s : String) : Bool :=
  ["null", "Null", "NULL", "~"].contains s

def boolWord? (s : String) : Option Bool :=
  if ["true", "True", "TRUE"].contains s then some true
  else if ["false", "False", "FALSE"].contains s then some false
  else none

def infinity : Float :=
  1.0 / 0.0

def floatWord? (s : String) : Option Float :=
  if [".inf", ".Inf", ".INF", "+.inf", "+.Inf", "+.INF"].contains s then some infinity
  else if ["-.inf", "-.Inf", "-.INF"].contains s then some (-infinity)
  else if [".nan", ".NaN", ".NAN"].contains s then some (0.0 / 0.0)
  else none

/-! ## Integers -/

def hasNeedlessZero : List Char → Bool
  | '0' :: c :: cs => (c :: cs).all Char.isDigit
  | _ => false

def natural? (cs : List Char) : Option Nat :=
  match cs with
  | '0' :: 'x' :: cs => Number.ofDigitsIn? 16 cs
  | '0' :: 'o' :: cs => Number.ofDigitsIn? 8 cs
  | '0' :: 'b' :: cs => Number.ofDigitsIn? 2 cs
  | cs => if hasNeedlessZero cs then none else Number.ofDigitsIn? 10 cs

def unsigned (cs : List Char) : Bool × List Char :=
  match cs with
  | '-' :: r => (true, r)
  | '+' :: r => (false, r)
  | r => (false, r)

def integer? (cs : List Char) : Option Int :=
  let (negative, r) := unsigned cs
  (natural? r).map fun n => if negative then -(n : Int) else n

def least128 : Int :=
  -0x80000000000000000000000000000000

def greatest128 : Int :=
  0xFFFFFFFFFFFFFFFFFFFFFFFFFFFFFFFF

/-! ## Floats -/

/-- Far exponents are settled by the number of digits. -/
def decimal (m : Nat) (e : Int) : Float :=
  let leading := (Nat.toDigits 10 m).length + e
  if m = 0 || leading < -400 then 0.0
  else if 400 < leading then infinity
  else Number.nearest m e

def exponent? (cs : List Char) : Option Int :=
  match cs with
  | [] => some 0
  | c :: r =>
    if c = 'e' ∨ c = 'E' then
      let (negative, ds) := unsigned r
      if !ds.isEmpty && ds.all Char.isDigit then
        let e : Int := Number.ofDigits ds
        some (if negative then -e else e)
      else none
    else none

def float? (cs : List Char) : Option Float :=
  let (negative, r) := unsigned cs
  let whole := r.takeWhile Char.isDigit
  let (fraction, r) := match r.dropWhile Char.isDigit with
    | '.' :: r => (r.takeWhile Char.isDigit, r.dropWhile Char.isDigit)
    | r => ([], r)
  if whole.isEmpty && fraction.isEmpty then none
  else
    (exponent? r).map fun e =>
      let x := decimal (Number.ofDigits (whole ++ fraction)) (e - fraction.length)
      if negative then -x else x

/-! ## Scalars -/

def resolve (s : String) : Option Document :=
  let cs := s.toList
  if s.isEmpty || isNullWord s then some .null
  else
    match boolWord? s, integer? cs with
    | some b, _ => some (.bool b)
    | none, some n =>
      if Number.fitsInt64 n || 0 ≤ n && n ≤ Number.maxWord then some (.int n)
      else if least128 ≤ n ∧ n ≤ greatest128 then none
      else some (asFloat cs)
    | none, none => some (asFloat cs)
where
  asFloat (cs : List Char) : Document :=
    match floatWord? (String.ofList cs) with
    | some x => .float x
    | none =>
      if hasNeedlessZero (unsigned cs).2 then .text (String.ofList cs)
      else
        match (float? cs).filter Number.isFinite with
        | some x => .float x
        | none => .text (String.ofList cs)

end TriGraph.Yaml
