import TriGraph.Knowledge.Relevance
import TriGraph.Query.Envelope
import TriGraph.Query.Text

/-!
# Answers

The context has to exist, the subject has to exist and to apply there; then the answer holds the instances of the
concept that are relevant there, or the relations of the type whose two ends are.
-/

namespace TriGraph.Knowledge

/-! ## Words -/

def missingContext (id : String) : String :=
  s!"Context {id} not found"

def missingSubject (q : Query) : String :=
  match q.form with
  | .conceptInstances => s!"Concept {q.subject} not found"
  | .relations => s!"Relation type {q.subject} not found"

def inapplicableSubject (q : Query) (context : String) : String :=
  match q.form with
  | .conceptInstances => s!"Concept {q.subject} is not applicable in context {context}"
  | .relations => s!"Relation {q.subject} is not applicable in context {context}"

/-! ## Results -/

def relevantIn (k : Knowledge) (context : Option Node) (inst : String) : Recall Bool :=
  match context with
  | some c => k.relevant inst c.id
  | none => return true

def relationRelevantIn (k : Knowledge) (context : Option Node) (e : Edge) : Recall Bool := do
  if ← k.relevantIn context e.source then k.relevantIn context e.target else return false

def resultsIn (k : Knowledge) (q : Query) (context : Option Node) : Recall (List Entity) :=
  match q.form with
  | .conceptInstances => do
    let found := Instances.ofConcept q.subject k.graphs.instances
    return (← found.filterM fun n => k.relevantIn context n.id).map .node
  | .relations => do
    let found := Instances.relationsOfType q.subject k.graphs.instances
    return (← found.filterM (k.relationRelevantIn context)).map .edge

/-! ## Queries -/

/-- The id of the context that counts; an empty id stands for none. -/
def contextOf? (q : Query) (context : Option String) : Option String :=
  (context <|> q.context).filter (!·.isEmpty)

def applicableIn (k : Knowledge) (q : Query) (context : Option Node) : Recall Bool :=
  match context with
  | some c => k.applicable q.subject c.id
  | none => return true

def answerFor (k : Knowledge) (q : Query) (subject : Node) (context : Option Node) :
    Recall Envelope := do
  if ← k.applicableIn q context then
    return .success subject context (← k.resultsIn q context)
  else return .inapplicable (inapplicableSubject q ((context.map (·.id)).getD ""))

def answer (k : Knowledge) (q : Query) (context : Option String) : Recall Envelope :=
  match contextOf? q context with
  | some id =>
    match k.node? .contexts id with
    | none => return .error (missingContext id)
    | some c =>
      match k.node? .ontology q.subject with
      | none => return .error (missingSubject q)
      | some subject => k.answerFor q subject (some c)
  | none =>
    match k.node? .ontology q.subject with
    | none => return .error (missingSubject q)
    | some subject => k.answerFor q subject none

def query (k : Knowledge) (text : String) (context : Option String) : Recall Envelope :=
  match Query.parse text with
  | .ok q => k.answer q context
  | .error e => return .error ("Failed to parse query: " ++ e.message)

def entitiesOf (k : Knowledge) (concept : String) (context : Option String) : Recall (List Node) :=
  let found := Instances.ofConcept concept k.graphs.instances
  match context with
  | some c => found.filterM fun n => k.relevant n.id c
  | none => return found

end TriGraph.Knowledge
