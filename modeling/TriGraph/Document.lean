import TriGraph.Catalog

/-!
# Documents

A document is the tree that JSON and YAML texts denote. The fields of an object stand as they are written, and a name
may be repeated; in `sorted` the last one with a name counts.
-/

namespace TriGraph

inductive Document where
  | null
  | bool (b : Bool)
  | int (n : Int)
  | float (x : Float)
  | text (s : String)
  | list (items : List Document)
  | object (fields : List (String × Document))
deriving Inhabited

namespace Document

mutual
def sorted : Document → Document
  | .list items => .list (sortedItems items)
  | .object fields => .object (Catalog.ofList (sortedFields fields))
  | d => d
def sortedItems : List Document → List Document
  | [] => []
  | d :: ds => d.sorted :: sortedItems ds
def sortedFields : List (String × Document) → List (String × Document)
  | [] => []
  | (k, d) :: fs => (k, d.sorted) :: sortedFields fs
end

mutual
def depth : Document → Nat
  | .list items => 1 + depthItems items
  | .object fields => 1 + depthFields fields
  | _ => 0
def depthItems : List Document → Nat
  | [] => 0
  | d :: ds => max d.depth (depthItems ds)
def depthFields : List (String × Document) → Nat
  | [] => 0
  | (_, d) :: fs => max d.depth (depthFields fs)
end

/-! ## Leaves and fields -/

def text? : Document → Option String
  | .text s => some s
  | _ => none

def list? : Document → Option (List Document)
  | .list items => some items
  | _ => none

def object? : Document → Option (List (String × Document))
  | .object fields => some fields
  | _ => none

def field? (name : String) : Document → Option Document
  | .object fields => fields.lookup name
  | _ => none

def ofOption {α : Type} (f : α → Document) : Option α → Document
  | none => .null
  | some x => f x

def texts (ss : List String) : Document :=
  .list (ss.map .text)

end Document

end TriGraph
