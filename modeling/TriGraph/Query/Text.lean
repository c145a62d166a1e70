import TriGraph.Query
import TriGraph.Text.Alphanumeric
import TriGraph.Text.Blank

/-!
# Query texts

The words of a query text are `FIND INSTANCES OF CONCEPT x` or `FIND RELATIONS OF TYPE x`, with `IN CONTEXT y` after
them or not. Keywords may be in any mix of ASCII cases.
-/

namespace TriGraph.Query

inductive Error where
  | unrecognized (text : String)
  | invalidIdentifier (word : String)

def Error.message : Error → String
  | .unrecognized text => s!"Unrecognized query: {text}"
  | .invalidIdentifier word => s!"Invalid identifier in query: {word}"

def isIdentifier (word : String) : Bool :=
  !word.isEmpty && word.toList.all fun c => Text.isAlphanumeric c || c == '_'

def afterKeywords? : List String → List String → Option (List String)
  | [], ws => some ws
  | k :: ks, w :: ws => if Text.sameLetters k w then afterKeywords? ks ws else none
  | _ :: _, [] => none

def form? (words : List String) : Option (QueryForm × List String) :=
  match afterKeywords? ["FIND", "INSTANCES", "OF", "CONCEPT"] words with
  | some rest => some (.conceptInstances, rest)
  | none => (afterKeywords? ["FIND", "RELATIONS", "OF", "TYPE"] words).map (.relations, ·)

def ofWords? (words : List String) : Option Query :=
  match form? words with
  | some (form, [subject]) => some { form, subject }
  | some (form, subject :: tail) =>
    match afterKeywords? ["IN", "CONTEXT"] tail with
    | some [context] => some { form, subject, context := some context }
    | _ => none
  | _ => none

def ids (q : Query) : List String :=
  q.subject :: q.context.toList

def parse (s : String) : Except Error Query :=
  match ofWords? (Text.words s) with
  | none => .error (.unrecognized (Text.trim s))
  | some q =>
    match q.ids.find? fun w => !isIdentifier w with
    | some w => .error (.invalidIdentifier w)
    | none => .ok q

end TriGraph.Query
