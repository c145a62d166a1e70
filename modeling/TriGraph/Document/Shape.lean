import TriGraph.Document

/-!
# Shapes of documents

A shape tells which fields of a document count, and how the texts of a format without types are to be understood.
-/

namespace TriGraph

inductive Shape where
  | text
  | optionalText
  | caseName
  | value
  | properties
  | list (item : Shape)
  | record (fields : List (String × Shape))

namespace Shape

def field? (name : String) : Shape → Option Shape
  | .record fields => fields.lookup name
  | _ => none

def item? : Shape → Option Shape
  | .list s => some s
  | _ => none

def isRecord : Shape → Bool
  | .record _ => true
  | _ => false

def itemShapes : Shape → Nat → List Shape
  | .list s, n => List.replicate n s
  | .record fields, _ => fields.map (·.2)
  | _, _ => []

mutual
def narrow (s : Shape) : Document → Document
  | .list items => .list (narrowItems (s.itemShapes items.length) items)
  | .object fields => .object (narrowFields s fields)
  | d => d
def narrowItems : List Shape → List Document → List Document
  | s :: ss, d :: ds => s.narrow d :: narrowItems ss ds
  | _, ds => ds
def narrowFields (s : Shape) : List (String × Document) → List (String × Document)
  | [] => []
  | (name, d) :: fs =>
    if s.isRecord then
      match s.field? name with
      | some t => (name, t.narrow d) :: narrowFields s fs
      | none => narrowFields s fs
    else (name, d) :: fs
end

end Shape

end TriGraph
