import TriGraph.Yaml.Token

/-!
# Trees of a YAML text

A place without a node holds an empty plain scalar. Each reader takes the tokens of what it reads and gives it with
the tokens that are left, which are fewer.
-/

namespace TriGraph.Yaml

inductive Tree where
  | scalar (plain : Bool) (text : String)
  | list (items : List Tree)
  | mapping (entries : List (Tree × Tree))
deriving Inhabited

namespace Tree

def empty : Tree :=
  .scalar true ""

def single (k v : Tree) : Tree :=
  .mapping [(k, v)]

/-! ## Ends of nodes -/

def endsBlockItem (t : Token) : Bool :=
  t == .entry || t == .blockEnd

def endsBlockEntry (t : Token) : Bool :=
  t == .key || t == .value || t == .blockEnd

def endsLooseItem (t : Token) : Bool :=
  t == .entry || endsBlockEntry t

def endsFlowItem (t : Token) : Bool :=
  t == .comma || t == .flowSequenceEnd

def endsFlowEntry (t : Token) : Bool :=
  t == .comma || t == .flowMappingEnd

def endsFlowKey (stop : Token → Bool) (t : Token) : Bool :=
  t == .value || stop t

def shorter {α : Type} (ts : List Token) (r : Option (α × List Token)) :
    Option (α × { rest : List Token // rest.length < ts.length }) :=
  match r with
  | some (x, rest) => if h : rest.length < ts.length then some (x, ⟨rest, h⟩) else none
  | none => none

/-! ## Nodes -/

mutual
/-- Where `loose` holds the node may be a sequence without an indentation of its own. -/
def readNode (block loose : Bool) (ts : List Token) : Option (Tree × List Token) :=
  match ts with
  | .scalar plain text :: ts => some (.scalar plain text, ts)
  | .flowSequenceStart :: ts => (readFlowItems true ts).map fun (xs, ts) => (.list xs, ts)
  | .flowMappingStart :: ts => (readFlowEntries true ts).map fun (es, ts) => (.mapping es, ts)
  | .sequenceStart :: ts =>
    if block then (readItems ts).map fun (xs, ts) => (.list xs, ts) else none
  | .mappingStart :: ts =>
    if block then (readEntries ts).map fun (es, ts) => (.mapping es, ts) else none
  | .entry :: us =>
    if loose then (readLooseItems (.entry :: us)).map fun (xs, ts) => (.list xs, ts) else none
  | _ => none
termination_by (ts.length, 1)

def readOptional (stop : Token → Bool) (block loose : Bool) (ts : List Token) :
    Option (Tree × List Token) :=
  if ts.head?.any stop then some (empty, ts) else readNode block loose ts
termination_by (ts.length, 2)

def readItems (ts : List Token) : Option (List Tree × List Token) :=
  match ts with
  | .blockEnd :: ts => some ([], ts)
  | .entry :: us =>
    match shorter (.entry :: us) (readOptional endsBlockItem true false us) with
    | some (x, ⟨rest, _⟩) => (readItems rest).map fun (xs, r) => (x :: xs, r)
    | none => none
  | _ => none
termination_by (ts.length, 0)

def readLooseItems (ts : List Token) : Option (List Tree × List Token) :=
  match ts with
  | .entry :: us =>
    match shorter (.entry :: us) (readOptional endsLooseItem true false us) with
    | some (x, ⟨rest, _⟩) => (readLooseItems rest).map fun (xs, r) => (x :: xs, r)
    | none => none
  | ts => some ([], ts)
termination_by (ts.length, 0)

def readEntries (ts : List Token) : Option (List (Tree × Tree) × List Token) :=
  match ts with
  | .blockEnd :: ts => some ([], ts)
  | .key :: us =>
    match shorter (.key :: us) (readOptional endsBlockEntry true true us) with
    | some (k, ⟨rest, _⟩) =>
      match shorter (.key :: us) (readValue endsBlockEntry true rest) with
      | some (v, ⟨rest, _⟩) => (readEntries rest).map fun (es, r) => ((k, v) :: es, r)
      | none => none
    | none => none
  | _ => none
termination_by (ts.length, 0)

def readValue (stop : Token → Bool) (block : Bool) (ts : List Token) : Option (Tree × List Token) :=
  match ts with
  | .value :: ts => readOptional stop block block ts
  | ts => some (empty, ts)
termination_by (ts.length, 3)

def readFlowItems (first : Bool) (ts : List Token) : Option (List Tree × List Token) :=
  match ts with
  | .flowSequenceEnd :: ts => some ([], ts)
  | .comma :: us =>
    if first then none
    else if us.head? = some .flowSequenceEnd then some ([], us.drop 1)
    else
      match shorter (.comma :: us) (readFlowItem us) with
      | some (x, ⟨rest, _⟩) => (readFlowItems false rest).map fun (xs, r) => (x :: xs, r)
      | none => none
  | ts =>
    if first then
      match shorter ts (readFlowItem ts) with
      | some (x, ⟨rest, _⟩) => (readFlowItems false rest).map fun (xs, r) => (x :: xs, r)
      | none => none
    else none
termination_by (ts.length, 5)

/-- A key that is empty takes its colon with it, so that its value is empty too. -/
def readFlowItem (ts : List Token) : Option (Tree × List Token) :=
  match ts with
  | .key :: us =>
    if us.head?.any (endsFlowKey endsFlowItem) then
      (readValue endsFlowItem false (us.drop 1)).map fun (v, r) => (single empty v, r)
    else
      match shorter (.key :: us) (readNode false false us) with
      | some (k, ⟨rest, _⟩) => (readValue endsFlowItem false rest).map fun (v, r) => (single k v, r)
      | none => none
  | ts => readNode false false ts
termination_by (ts.length, 4)

def readFlowEntries (first : Bool) (ts : List Token) : Option (List (Tree × Tree) × List Token) :=
  match ts with
  | .flowMappingEnd :: ts => some ([], ts)
  | .comma :: us =>
    if first then none
    else if us.head? = some .flowMappingEnd then some ([], us.drop 1)
    else
      match shorter (.comma :: us) (readFlowEntry us) with
      | some (e, ⟨rest, _⟩) => (readFlowEntries false rest).map fun (es, r) => (e :: es, r)
      | none => none
  | ts =>
    if first then
      match shorter ts (readFlowEntry ts) with
      | some (e, ⟨rest, _⟩) => (readFlowEntries false rest).map fun (es, r) => (e :: es, r)
      | none => none
    else none
termination_by (ts.length, 5)

def readFlowEntry (ts : List Token) : Option ((Tree × Tree) × List Token) :=
  match ts with
  | .key :: us =>
    match shorter (.key :: us) (readOptional (endsFlowKey endsFlowEntry) false false us) with
    | some (k, ⟨rest, _⟩) => (readValue endsFlowEntry false rest).map fun (v, r) => ((k, v), r)
    | none => none
  | ts => (readNode false false ts).map fun (k, r) => ((k, empty), r)
termination_by (ts.length, 4)
end

/-! ## Documents -/

def endsDocument (t : Token) : Bool :=
  t == .documentStart || t == .documentEnd

def ofTokens? (ts : List Token) : Option Tree :=
  let document := match ts with
    | [] => some (empty, [])
    | .documentStart :: ts =>
      if ts.isEmpty then some (empty, []) else readOptional endsDocument true false ts
    | ts => readNode true false ts
  match document with
  | some (t, rest) => if rest.all (· == .documentEnd) then some t else none
  | none => none

def ofText? (s : String) : Option Tree :=
  (Token.ofText? s).bind ofTokens?

end Tree

end TriGraph.Yaml
