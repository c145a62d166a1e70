import TriGraph.Constraint
import TriGraph.Document.Text
import TriGraph.Value.Document

/-!
# Constraints from documents

An object is read field by field, and the first fault in the order of the fields is the error.
-/

namespace TriGraph.Constraint

/-! ## Errors -/

inductive LiteralFault where
  | null
  | noVariant

inductive Error where
  | notAnObject (got : Document)
  | expectedList (operator : String)
  | propertiesNotObject (got : Document)
  | unknownOperator (operator : String)
  | unsupportedValue (key : String) (reason : LiteralFault)

def LiteralFault.text : LiteralFault → String
  | .null => "null"
  | .noVariant => "data did not match any variant of untagged enum PropertyValue"

def Error.message : Error → String
  | .notAnObject got => "Constraint must be an object, got: " ++ got.compact
  | .expectedList operator => s!"Operator {operator} expects a list of constraint objects"
  | .propertiesNotObject got => "The properties constraint expects an object, got: " ++ got.compact
  | .unknownOperator operator => s!"Unknown operator: {operator}"
  | .unsupportedValue key reason => s!"Unsupported literal for {key}: " ++ reason.text

/-! ## Literals and operators -/

def literal (key : String) (d : Document) : Except Error Value :=
  match d with
  | .null => .error (.unsupportedValue key .null)
  | d =>
    match Value.ofDocument? d with
    | some v => .ok v
    | none => .error (.unsupportedValue key .noVariant)

def literals : List (String × Document) → Except Error (List (String × Value))
  | [] => .ok []
  | (name, d) :: fs => do
    let v ← literal name d
    let vs ← literals fs
    return (name, v) :: vs

def isOperator (name : String) : Bool :=
  name.toList.head? == some '$'

def operators? : Document → Option (List (String × Document))
  | .object [] => none
  | .object fields => if fields.all fun f => isOperator f.1 then some fields else none
  | _ => none

def comparisons (key : String) : List (String × Document) → Except Error Constraint
  | [] => .ok []
  | (op, d) :: fs =>
    match Comparison.ofOperator? op with
    | none => .error (.unknownOperator op)
    | some c => do
      let v ← literal key d
      let cs ← comparisons key fs
      return Clause.ofKey key (.compare c v) :: cs

def ofField (name : String) (d : Document) : Except Error Constraint :=
  if isOperator name then .error (.unknownOperator name)
  else if name = "properties" then
    match d with
    | .object fields => return [.properties (← literals fields)]
    | d => .error (.propertiesNotObject d)
  else
    match operators? d with
    | some ops => comparisons name ops
    | none => return [Clause.ofKey name (.eq (← literal name d))]

/-! ## Documents -/

mutual
def ofDocument : Document → Except Error Constraint
  | .object fields => ofFields fields
  | d => .error (.notAnObject d)
def ofFields : List (String × Document) → Except Error Constraint
  | [] => .ok []
  | (name, d) :: fs => do
    let c ← ofFieldOrJoin name d
    let cs ← ofFields fs
    return c ++ cs
def ofFieldOrJoin (name : String) : Document → Except Error Constraint
  | .list items =>
    if name = "$and" then (ofItems name items).map fun cs => [.all cs]
    else if name = "$or" then (ofItems name items).map fun cs => [.any cs]
    else ofField name (.list items)
  | d => if name = "$and" || name = "$or" then .error (.expectedList name) else ofField name d
def ofItems (operator : String) : List Document → Except Error (List Constraint)
  | [] => .ok []
  | .object fields :: ds => do
    let c ← ofFields fields
    let cs ← ofItems operator ds
    return c :: cs
  | _ :: _ => .error (.expectedList operator)
end

end TriGraph.Constraint
