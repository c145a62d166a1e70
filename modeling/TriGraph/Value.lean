import TriGraph.Catalog
import TriGraph.Number.Order

/-!
# Property values

Two integers are compared exactly, an integer and a float as floats. So `==` is not reflexive at NaN, and values of
different kinds are neither equal nor ordered.
-/

namespace TriGraph

inductive Value where
  | text (s : String)
  | int (n : Int64)
  | float (x : Float)
  | bool (b : Bool)
  | list (items : List Value)
  | object (fields : List (String × Value))
deriving Inhabited

abbrev Properties := Catalog String Value

namespace Value

/-! ## Views -/

def number? : Value → Option Float
  | .int n => some (Number.ofInt n.toInt)
  | .float x => some x
  | _ => none

def text? : Value → Option String
  | .text s => some s
  | _ => none

def bool? : Value → Option Bool
  | .bool b => some b
  | _ => none

/-- A value is truthy unless it is empty, zero or false; NaN is truthy. -/
def truthy : Value → Bool
  | .text s => !s.isEmpty
  | .int n => n != 0
  | .float x => !Number.isZero x
  | .bool b => b
  | .list items => !items.isEmpty
  | .object fields => !fields.isEmpty

/-! ## Equality and order -/

def sameNumber (a b : Value) : Bool :=
  match a.number?, b.number? with
  | some x, some y => Number.equal x y
  | _, _ => false

mutual
def same : Value → Value → Bool
  | .text s, .text t => s == t
  | .bool a, .bool b => a == b
  | .int m, .int n => m == n
  | .list xs, .list ys => sameItems xs ys
  | .object fs, .object gs => sameFields fs gs
  | a, b => sameNumber a b
def sameItems : List Value → List Value → Bool
  | [], [] => true
  | x :: xs, y :: ys => same x y && sameItems xs ys
  | _, _ => false
/-- Objects keep their fields in the order of the names, so equal objects agree field by field. -/
def sameFields : List (String × Value) → List (String × Value) → Bool
  | [], [] => true
  | (k, x) :: fs, (l, y) :: gs => k == l && same x y && sameFields fs gs
  | _, _ => false
end

instance : BEq Value := ⟨same⟩

def compareNumbers? (a b : Value) : Option Ordering :=
  match a.number?, b.number? with
  | some x, some y => Number.compare? x y
  | _, _ => none

def compare? : Value → Value → Option Ordering
  | .text s, .text t => some (compare s t)
  | .bool a, .bool b => some (compare a b)
  | .int m, .int n => some (compare m.toInt n.toInt)
  | a, b => compareNumbers? a b

def less (a b : Value) : Bool :=
  a.compare? b == some .lt

def greater (a b : Value) : Bool :=
  a.compare? b == some .gt

def atMost (a b : Value) : Bool :=
  a.compare? b == some .lt || a.compare? b == some .eq

def atLeast (a b : Value) : Bool :=
  a.compare? b == some .gt || a.compare? b == some .eq

end Value

end TriGraph
