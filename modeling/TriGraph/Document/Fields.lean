import TriGraph.Document

/-!
# Fields of a record

A record is an object with named fields or the list of its fields in their declared order. Fields of other names are
ignored, a repeated field is refused, and so is a list that is too long.
-/

namespace TriGraph.Document

/-- Nothing if the field is repeated, absence if there is none. -/
def single? (fields : List (String × Document)) (name : String) : Option (Option Document) :=
  match fields.filter (·.1 == name) with
  | [] => some none
  | [(_, d)] => some (some d)
  | _ => none

def fields? (names : List String) : Document → Option (List (Option Document))
  | .object fields => names.mapM (single? fields)
  | .list items =>
    if items.length ≤ names.length then
      some (items.map some ++ List.replicate (names.length - items.length) none)
    else none
  | _ => none

/-! ## Readers of one field -/

def required {α : Type} (read : Document → Option α) (d : Option Document) : Option α :=
  d.bind read

def withDefault {α : Type} (x : α) (read : Document → Option α) : Option Document → Option α
  | none => some x
  | some d => read d

def optional {α : Type} (read : Document → Option α) : Option Document → Option (Option α)
  | none => some none
  | some .null => some none
  | some d => (read d).map some

def listOf {α : Type} (read : Document → Option α) : Document → Option (List α)
  | .list items => items.mapM read
  | _ => none

def caseName? : Document → Option String
  | .text s => some s
  | .object [(s, .null)] => some s
  | _ => none

end TriGraph.Document
