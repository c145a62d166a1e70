import TriGraph.Document.Shape
import TriGraph.Yaml.Resolution
import TriGraph.Yaml.Tree

/-!
# Documents from YAML texts

A tree is understood by the shape of what is wanted. Where a value is wanted plain scalars are resolved and the keys
of mappings have to be texts.
-/

namespace TriGraph.Yaml.Tree

def text? : Tree → Option String
  | .scalar _ s => some s
  | _ => none

/-! ## Values -/

mutual
def value? : Tree → Option Document
  | .scalar plain s => if plain then resolve s else some (.text s)
  | .list items => (values? items).map .list
  | .mapping entries => (namedValues? entries).map .object
def values? : List Tree → Option (List Document)
  | [] => some []
  | t :: ts =>
    match value? t, values? ts with
    | some d, some ds => some (d :: ds)
    | _, _ => none
def namedValues? : List (Tree × Tree) → Option (List (String × Document))
  | [] => some []
  | (k, t) :: es =>
    match value? k, value? t, namedValues? es with
    | some (.text name), some d, some fs => some ((name, d) :: fs)
    | _, _, _ => none
end

def properties? : List (Tree × Tree) → Option (List (String × Document))
  | [] => some []
  | (k, t) :: es =>
    match text? k, value? t, properties? es with
    | some name, some d, some fs => some ((name, d) :: fs)
    | _, _, _ => none

/-! ## Shapes -/

def emptyDocument : Shape → Document
  | .text => .text ""
  | .optionalText => .null
  | .caseName => .text ""
  | .value => .null
  | .properties => .object []
  | .list _ => .list []
  | .record _ => .object []

def scalarDocument (shape : Shape) (plain : Bool) (s : String) : Option Document :=
  if plain && s.isEmpty then some (emptyDocument shape)
  else
    match shape with
    | .text => some (.text s)
    | .optionalText => some (if plain && isNullWord s then .null else .text s)
    | .caseName => some (.text s)
    | .value => value? (.scalar plain s)
    | _ => none

mutual
def document? (shape : Shape) : Tree → Option Document
  | .scalar plain s => scalarDocument shape plain s
  | .list items =>
    match shape with
    | .list item => (items? item items).map .list
    | .value => value? (.list items)
    | _ => none
  | .mapping entries =>
    match shape with
    | .record fields => (fields? (.record fields) entries).map .object
    | .properties => (properties? entries).map .object
    | .value => value? (.mapping entries)
    | _ => none
def items? (item : Shape) : List Tree → Option (List Document)
  | [] => some []
  | t :: ts =>
    match document? item t, items? item ts with
    | some d, some ds => some (d :: ds)
    | _, _ => none
def fields? (shape : Shape) : List (Tree × Tree) → Option (List (String × Document))
  | [] => some []
  | (k, t) :: es =>
    match text? k, fields? shape es with
    | some name, some fs =>
      match shape.field? name with
      | some s => (document? s t).map fun d => (name, d) :: fs
      | none => some fs
    | _, _ => none
end

end TriGraph.Yaml.Tree
