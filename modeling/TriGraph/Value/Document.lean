import TriGraph.Value
import TriGraph.Document

/-!
# Values as documents

A NaN or an infinity is written as null, which no value is read from. An integer beyond 64 bits is read as a float.
-/

namespace TriGraph.Value

/-! ## Writing -/

mutual
def toDocument : Value → Document
  | .text s => .text s
  | .int n => .int n.toInt
  | .float x => if Number.isFinite x then .float x else .null
  | .bool b => .bool b
  | .list items => .list (toItems items)
  | .object fields => .object (toFields fields)
def toItems : List Value → List Document
  | [] => []
  | v :: vs => v.toDocument :: toItems vs
def toFields : List (String × Value) → List (String × Document)
  | [] => []
  | (k, v) :: fs => (k, v.toDocument) :: toFields fs
end

/-! ## Reading -/

mutual
def ofDocument? : Document → Option Value
  | .null => none
  | .bool b => some (.bool b)
  | .int n => some (if Number.fitsInt64 n then .int (Int64.ofInt n) else .float (Number.ofInt n))
  | .float x => some (.float x)
  | .text s => some (.text s)
  | .list items => (ofItems? items).map .list
  | .object fields => (ofFields? fields).map fun fs => .object (Catalog.ofList fs)
def ofItems? : List Document → Option (List Value)
  | [] => some []
  | d :: ds =>
    match ofDocument? d, ofItems? ds with
    | some v, some vs => some (v :: vs)
    | _, _ => none
def ofFields? : List (String × Document) → Option (List (String × Value))
  | [] => some []
  | (k, d) :: fs =>
    match ofDocument? d, ofFields? fs with
    | some v, some vs => some ((k, v) :: vs)
    | _, _ => none
end

end TriGraph.Value

namespace TriGraph.Properties

def toDocument (ps : Properties) : Document :=
  .object (Value.toFields ps)

/-- The last of several fields with one name counts. -/
def ofDocument? : Document → Option Properties
  | .object fields => (Value.ofFields? fields).map Catalog.ofList
  | _ => none

end TriGraph.Properties
