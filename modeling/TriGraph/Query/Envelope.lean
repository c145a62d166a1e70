import TriGraph.Entity.Document

/-!
# Answers to queries

An envelope says how a query went; only with success it holds results.
-/

namespace TriGraph

inductive QueryStatus where
  | success
  | error
  | inapplicable
deriving DecidableEq, Repr

def QueryStatus.name : QueryStatus → String
  | .success => "success"
  | .error => "error"
  | .inapplicable => "inapplicable"

structure Envelope where
  status : QueryStatus
  message : Option String := none
  subject : Option Node := none
  context : Option Node := none
  results : List Entity := []
  count : Option Nat := none

namespace Envelope

def success (subject : Node) (context : Option Node) (results : List Entity) : Envelope :=
  { status := .success, subject := some subject, context, results, count := some results.length }

def error (message : String) : Envelope :=
  { status := .error, message := some message }

def inapplicable (message : String) : Envelope :=
  { status := .inapplicable, message := some message }

def isSuccess (e : Envelope) : Bool :=
  e.status == .success

def resultIds (e : Envelope) : List String :=
  e.results.map (·.id)

def present (name : String) : Option Document → List (String × Document)
  | some d => [(name, d)]
  | none => []

def toDocument (e : Envelope) : Document :=
  .object ([("status", .text e.status.name)]
    ++ present "message" (e.message.map .text)
    ++ present "subject" (e.subject.map Node.toDocument)
    ++ present "context" (e.context.map Node.toDocument)
    ++ [("results", .list (e.results.map Entity.toDocument))]
    ++ present "count" (e.count.map fun n => .int n))

end Envelope

end TriGraph
