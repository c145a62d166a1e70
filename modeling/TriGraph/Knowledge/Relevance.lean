import TriGraph.Adjunction.Builtin
import TriGraph.Knowledge.Compatibility

/-!
# Relevance

What a node is by itself is tested first, and an adjunction is asked for only when these tests failed. What is absent
neither applies nor is relevant.
-/

namespace TriGraph.Knowledge

def flaggedFor (context concept : Node) : Bool :=
  match Builtin.flagOf? (ContextKind.ofNode context) with
  | some flag => Builtin.flagged flag concept
  | none => false

def conceptApplies (k : Knowledge) (concept context : Node) : Recall Bool := do
  let reached ← k.mapped? Builtin.applicability .contexts concept.id
  if reached.any (k.contextsCompatible · context) then return true
  let reached ← k.mapped? Builtin.interpretation .ontology context.id
  if reached.any (k.conceptsCompatible · concept) then return true
  return flaggedFor context concept

def applicable (k : Knowledge) (concept context : String) : Recall Bool :=
  match k.node? .ontology concept, k.node? .contexts context with
  | some concept, some context => k.conceptApplies concept context
  | _, _ => return false

/-! ## Instances -/

def inInterval (context inst : Node) : Bool :=
  match inst.property? Builtin.timestamp, context.property? Contexts.startTime,
      context.property? Contexts.endTime with
  | some t, some first, some last => first.atMost t && t.atMost last
  | _, _, _ => false

def agreeOn (name : String) (a b : Node) : Bool :=
  match a.property? name with
  | some v => b.property? name == some v
  | none => false

def belongs (context inst : Node) : Bool :=
  match ContextKind.ofNode context with
  | .temporal => inInterval context inst
  | .spatial => agreeOn Contexts.location inst context
  | .perspective => agreeOn Contexts.perspective inst context
  | .custom _ => false

def instanceIsRelevant (k : Knowledge) (inst context : Node) : Recall Bool := do
  if belongs context inst then return true
  let reached ← k.mapped? Builtin.contextualization .contexts inst.id
  if reached.any (k.contextsCompatible · context) then return true
  let exemplar ← k.mapped? Builtin.exemplification .instances context.id
  return exemplar.any (k.instancesRelated · inst)

def relevant (k : Knowledge) (inst context : String) : Recall Bool :=
  match k.node? .instances inst, k.node? .contexts context with
  | some inst, some context => k.instanceIsRelevant inst context
  | _, _ => return false

end TriGraph.Knowledge
