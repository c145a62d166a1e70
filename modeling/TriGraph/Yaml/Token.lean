import TriGraph.Yaml.Scalar

/-!
# Tokens of a YAML text

Whether a scalar or a flow collection is a key shows only at the colon behind it: until then its place is kept as a
possible key, and at the colon the tokens of the key are put in there. Tags, anchors, aliases and directives are
refused.
-/

namespace TriGraph.Yaml

inductive Token where
  | documentStart
  | documentEnd
  | sequenceStart
  | mappingStart
  | blockEnd
  | flowSequenceStart
  | flowSequenceEnd
  | flowMappingStart
  | flowMappingEnd
  | entry
  | comma
  | key
  | value
  | scalar (plain : Bool) (text : String)
deriving DecidableEq

namespace Token

/-! ## State -/

structure PossibleKey where
  position : Nat
  place : Cursor
  required : Bool

/-- A key stands on one line and is not longer than 1024 bytes. -/
def PossibleKey.isStale (c : Cursor) (k : PossibleKey) : Bool :=
  k.place.line < c.line || k.place.index + 1024 < c.index

structure State where
  cursor : Cursor
  tokens : List Token := []
  indent : Int := -1
  outer : List Int := []
  keyAllowed : Bool := true
  blockKey : Option PossibleKey := none
  flowKeys : List (Option PossibleKey) := []

namespace State

def inFlow (s : State) : Bool :=
  !s.flowKeys.isEmpty

def possibleKey? (s : State) : Option PossibleKey :=
  match s.flowKeys with
  | k :: _ => k
  | [] => s.blockKey

def setKey (k : Option PossibleKey) (s : State) : State :=
  match s.flowKeys with
  | _ :: ks => { s with flowKeys := k :: ks }
  | [] => { s with blockKey := k }

def emit (t : Token) (s : State) : State :=
  { s with tokens := s.tokens ++ [t] }

def insertAt (position : Nat) (t : Token) (s : State) : State :=
  { s with tokens := s.tokens.take position ++ t :: s.tokens.drop position }

def advance (n : Nat) (s : State) : State :=
  { s with cursor := s.cursor.advance n }

/-! ## Possible keys -/

def dropKey (s : State) : Option State :=
  match s.possibleKey? with
  | some k => if k.required then none else some (s.setKey none)
  | none => some s

def saveKey (s : State) : Option State :=
  if s.keyAllowed then
    let required := !s.inFlow && s.indent == s.cursor.column
    s.dropKey.map (·.setKey (some { position := s.tokens.length, place := s.cursor, required }))
  else some s

/-- No answer if the key is stale and was required. -/
def freshKey (c : Cursor) (k : Option PossibleKey) : Option (Option PossibleKey) :=
  match k with
  | some k => if k.isStale c then (if k.required then none else some none) else some (some k)
  | none => some none

def dropStaleKeys (s : State) : Option State := do
  let blockKey ← freshKey s.cursor s.blockKey
  let flowKeys ← s.flowKeys.mapM (freshKey s.cursor)
  return { s with blockKey, flowKeys }

/-! ## Indentation -/

def indentTo (column : Nat) (position : Nat) (t : Token) (s : State) : State :=
  if !s.inFlow && s.indent < column then
    { s with outer := s.indent :: s.outer, indent := column }.insertAt position t
  else s

def dedentTo (column : Int) (s : State) : State :=
  if s.inFlow then s
  else close s.indent s.outer s
where
  close (indent : Int) (outer : List Int) (s : State) : State :=
    if column < indent then
      match outer with
      | i :: outer => close i outer (s.emit .blockEnd)
      | [] => { s with indent := -1, outer := [] }
    else { s with indent, outer }

/-! ## Fetching -/

/-- Tabs count as blanks unless they stand where a key may begin in a block. -/
def behindBlanks (s : State) : Cursor :=
  let c := s.cursor
  let c := if c.column = 0 && c.peek?.any (·.toNat = 0xFEFF) then c.advance 1 else c
  let c := c.skipWhile fun ch => ch = ' ' || (s.inFlow || !s.keyAllowed) && ch = '\t'
  if c.peek? = some '#' then c.skipWhile (!isBreak ·) else c

def toToken (s : State) : State :=
  if s.behindBlanks.atBreak then
    let c := s.behindBlanks.nextLine
    if _h : c.rest.length < s.cursor.rest.length then
      toToken { s with cursor := c, keyAllowed := s.keyAllowed || !s.inFlow }
    else s
  else { s with cursor := s.behindBlanks }
termination_by s.cursor.rest.length
decreasing_by exact _h

def documentMark (t : Token) (s : State) : Option State := do
  let s ← (s.dedentTo (-1)).dropKey
  return ({ s with keyAllowed := false }.advance 3).emit t

def openFlow (t : Token) (s : State) : Option State := do
  let s ← s.saveKey
  return ({ s with flowKeys := none :: s.flowKeys, keyAllowed := true }.advance 1).emit t

def closeFlow (t : Token) (s : State) : Option State := do
  let s ← s.dropKey
  return ({ s with flowKeys := s.flowKeys.drop 1, keyAllowed := false }.advance 1).emit t

def comma (s : State) : Option State := do
  let s ← s.dropKey
  return ({ s with keyAllowed := true }.advance 1).emit .comma

def indicator (opening t : Token) (allowsKey : Bool) (s : State) : Option State := do
  if !s.inFlow && !s.keyAllowed then none
  else
    let s ← (s.indentTo s.cursor.column s.tokens.length opening).dropKey
    return ({ s with keyAllowed := allowsKey }.advance 1).emit t

/-- What stands at the possible key becomes a key; without one the key is empty or has a mark of its own. -/
def colon (s : State) : Option State :=
  match s.possibleKey? with
  | some k =>
    let s := (s.insertAt k.position .key).indentTo k.place.column k.position .mappingStart
    some (({ s.setKey none with keyAllowed := false }.advance 1).emit .value)
  | none =>
    if !s.inFlow && !s.keyAllowed then none
    else
      let s := s.indentTo s.cursor.column s.tokens.length .mappingStart
      some (({ s with keyAllowed := !s.inFlow }.advance 1).emit .value)

def quoted (quote : Char) (s : State) : Option State := do
  let s ← s.saveKey
  let (text, c) ← readQuoted quote [] (s.cursor.advance 1)
  return { s with cursor := c, keyAllowed := false }.emit (.scalar false (String.ofList text))

def block (folded : Bool) (s : State) : Option State := do
  let s ← s.dropKey
  let (text, c) ← readBlock folded s.indent s.cursor
  return { s with cursor := c, keyAllowed := true }.emit (.scalar false (String.ofList text))

def plain (s : State) : Option State := do
  let s ← s.saveKey
  let (text, broken, c) ← readPlain s.inFlow (s.indent + 1).toNat [] {} s.cursor
  return { s with cursor := c, keyAllowed := broken }.emit (.scalar true (String.ofList text))

def isIndicator (c : Char) : Bool :=
  "-?:,[]\x7b\x7d#&*!|>'\"%@\x60".toList.contains c

def beginsPlain (flow : Bool) : List Char → Bool
  | [] => false
  | c :: cs =>
    if isBlank c || isBreak c then false
    else if c = '-' then !(cs.head?.any isBlank)
    else if c = '?' || c = ':' then !flow && !endsWord cs
    else !isIndicator c

def fetch (s : State) : Option State :=
  let c := s.cursor
  if c.atDocumentStart then s.documentMark .documentStart
  else if c.atDocumentEnd then s.documentMark .documentEnd
  else
    match c.rest with
    | [] => none
    | ch :: cs =>
      if ch = '%' && c.column = 0 then none
      else if ch = '[' then s.openFlow .flowSequenceStart
      else if ch = '\x7b' then s.openFlow .flowMappingStart
      else if ch = ']' then s.closeFlow .flowSequenceEnd
      else if ch = '\x7d' then s.closeFlow .flowMappingEnd
      else if ch = ',' then s.comma
      else if ch = '-' && endsWord cs then s.indicator .sequenceStart .entry true
      else if ch = '?' && (s.inFlow || endsWord cs) then s.indicator .mappingStart .key !s.inFlow
      else if ch = ':' && (s.inFlow || endsWord cs) then s.colon
      else if ch = '|' && !s.inFlow then s.block false
      else if ch = '>' && !s.inFlow then s.block true
      else if ch = '\'' || ch = '"' then s.quoted ch
      else if beginsPlain s.inFlow c.rest then s.plain
      else none

def run (s : State) : Option (List Token) :=
  match s.toToken.dropStaleKeys with
  | none => none
  | some t =>
    let t := t.dedentTo t.cursor.column
    if t.cursor.rest.isEmpty then
      ((t.dedentTo (-1)).dropKey).map (·.tokens)
    else
      match t.fetch with
      | none => none
      | some u => if u.cursor.rest.length < s.cursor.rest.length then run u else none
termination_by s.cursor.rest.length

end State

def ofText? (s : String) : Option (List Token) :=
  if s.toList.all isAllowed then ({ cursor := { rest := s.toList } } : State).run else none

end Token

end TriGraph.Yaml
