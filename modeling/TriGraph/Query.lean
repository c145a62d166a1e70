import TriGraph.Document.Fields

/-!
# Queries

A query asks for the instances of a concept or for the relations of a type, in a context if it names one.
-/

namespace TriGraph

inductive QueryForm where
  | conceptInstances
  | relations
deriving DecidableEq, Repr

structure Query where
  form : QueryForm
  subject : String
  context : Option String := none
deriving DecidableEq, Repr

namespace QueryForm

def name : QueryForm → String
  | .conceptInstances => "concept_instances"
  | .relations => "relation_query"

def ofName? : String → Option QueryForm
  | "concept_instances" => some .conceptInstances
  | "relation_query" => some .relations
  | _ => none

def subjectField : QueryForm → String
  | .conceptInstances => "conceptId"
  | .relations => "relationTypeId"

end QueryForm

namespace Query

open Document (required optional text?)

def toDocument (q : Query) : Document :=
  .object ([("type", .text q.form.name), (q.form.subjectField, .text q.subject)] ++
    match q.context with
    | some c => [("contextId", .text c)]
    | none => [])

def ofFields? (form : QueryForm) (d : Document) : Option Query :=
  match d.fields? [form.subjectField, "contextId"] with
  | some [subject, context] => do
    let subject ← required text? subject
    let context ← optional text? context
    some { form, subject, context }
  | _ => none

def ofDocument? (d : Document) : Option Query :=
  match d with
  | .object fields => do
    let form ← (Document.single? fields "type").bind (required text?)
    ofFields? (← QueryForm.ofName? form) (.object fields)
  | .list (.text form :: items) => do ofFields? (← QueryForm.ofName? form) (.list items)
  | _ => none

end Query

end TriGraph
