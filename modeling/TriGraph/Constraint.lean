import TriGraph.Value

/-!
# Constraints

A constraint is a list of clauses that all have to hold. The functions that add a clause are the builder.
-/

namespace TriGraph

inductive Comparison where
  | gt
  | lt
  | gte
  | lte
  | ne
deriving DecidableEq, Repr

inductive Predicate where
  | eq (v : Value)
  | compare (op : Comparison) (v : Value)

inductive Clause where
  | all (subs : List (List Clause))
  | any (subs : List (List Clause))
  | path (segments : List String) (p : Predicate)
  | field (key : String) (p : Predicate)
  | properties (expected : List (String × Value))

abbrev Constraint := List Clause

namespace Comparison

def name : Comparison → String
  | .gt => "gt"
  | .lt => "lt"
  | .gte => "gte"
  | .lte => "lte"
  | .ne => "ne"

def ofOperator? : String → Option Comparison
  | "$gt" => some .gt
  | "$lt" => some .lt
  | "$gte" => some .gte
  | "$lte" => some .lte
  | "$ne" => some .ne
  | _ => none

end Comparison

/-! ## Predicates -/

namespace Predicate

def test (actual : Value) : Predicate → Bool
  | .eq v => actual == v
  | .compare .gt v => actual.greater v
  | .compare .lt v => actual.less v
  | .compare .gte v => actual.atLeast v
  | .compare .lte v => actual.atMost v
  | .compare .ne v => !(actual == v)

end Predicate

/-! ## Building -/

def splitDots : List Char → List (List Char)
  | [] => [[]]
  | c :: cs =>
    if c = '.' then [] :: splitDots cs
    else
      match splitDots cs with
      | [] => [[c]]
      | s :: ss => (c :: s) :: ss

namespace Clause

def ofKey (key : String) (p : Predicate) : Clause :=
  if key.toList.contains '.' then .path ((splitDots key.toList).map String.ofList) p else .field key p

end Clause

namespace Constraint

def test (key : String) (p : Predicate) (c : Constraint) : Constraint :=
  c ++ [Clause.ofKey key p]

def equals (key : String) (v : Value) (c : Constraint) : Constraint :=
  c.test key (.eq v)

def compare (key : String) (op : Comparison) (v : Value) (c : Constraint) : Constraint :=
  c.test key (.compare op v)

def withProperties (expected : List (String × Value)) (c : Constraint) : Constraint :=
  c ++ [.properties expected]

def withAll (subs : List Constraint) (c : Constraint) : Constraint :=
  c ++ [.all subs]

def withAny (subs : List Constraint) (c : Constraint) : Constraint :=
  c ++ [.any subs]

end Constraint

end TriGraph
