import TriGraph.Value

/-!
# Index keys

A key is what an index keeps of a scalar value. Whole floats in the range of the integers become integer keys, so that
a number has one key however it is written.
-/

namespace TriGraph.Index

inductive Key where
  | bool (b : Bool)
  | int (n : Int64)
  | float (x : Float)
  | text (s : String)
deriving DecidableEq

namespace Key

def ofFloat (x : Float) : Key :=
  match Number.toInt? x with
  | some n => if Number.fitsInt64 n then .int (Int64.ofInt n) else .float x
  | none => .float x

def ofValue? : Value → Option Key
  | .text s => some (.text s)
  | .int n => some (.int n)
  | .float x => some (ofFloat x)
  | .bool b => some (.bool b)
  | .list _ => none
  | .object _ => none

def toValue : Key → Value
  | .bool b => .bool b
  | .int n => .int n
  | .float x => .float x
  | .text s => .text s

/-! ## Order -/

def tier : Key → Nat
  | .bool _ => 0
  | .int _ => 1
  | .float _ => 1
  | .text _ => 2

def order : Key → Key → Ordering
  | .bool a, .bool b => compare a b
  | .text s, .text t => compare s t
  | .int m, .int n => compare m.toInt n.toInt
  | .float x, .float y => compare (Number.totalRank x) (Number.totalRank y)
  | .int n, .float x => (compare (Number.totalRank (Number.ofInt n.toInt)) (Number.totalRank x)).then .lt
  | .float x, .int n => (compare (Number.totalRank x) (Number.totalRank (Number.ofInt n.toInt))).then .gt
  | a, b => compare a.tier b.tier

instance : Ord Key := ⟨order⟩

def atMost (a b : Key) : Bool :=
  order a b != .gt

def sort (ks : List Key) : List Key :=
  ks.mergeSort atMost

def dedup : List Key → List Key
  | a :: b :: ks => if order a b = .eq then dedup (a :: ks) else a :: dedup (b :: ks)
  | ks => ks

end Key

end TriGraph.Index
