import TriGraph.Number.Digits
import TriGraph.Yaml.Cursor

/-!
# Scalars of a YAML text

Each reader starts at the first character of a scalar and gives its text and the place behind it.
-/

namespace TriGraph.Yaml

/-! ## Plain scalars -/

def isFlowStop (c : Char) : Bool :=
  c = ',' || c = '[' || c = ']' || c = '{' || c = '}'

/-- Nothing if the scalar ends here, and no answer if a colon stands where neither a word nor a value can. -/
def plainWord (flow : Bool) : List Char → Option (List Char)
  | [] => some []
  | c :: cs =>
    if isBlank c || isBreak c then some []
    else if flow && c = ':' && (cs.head?.any fun d => isFlowStop d || d = '?') then none
    else if c = ':' && endsWord cs || flow && isFlowStop c then some []
    else (plainWord flow cs).map (c :: ·)

/-- `text` has been read, and `gap` stands between it and the next word. -/
def readPlain (flow : Bool) (least : Nat) (text : List Char) (gap : Cursor.Gap) (c : Cursor) :
    Option (List Char × Bool × Cursor) :=
  let done := some (text, !gap.breaks.isEmpty, c)
  if c.atDocumentMark || c.peek? = some '#' then done
  else
    match plainWord flow c.rest with
    | none => none
    | some [] => done
    | some word =>
      let text := text ++ gap.folded ++ word
      match (c.advance word.length).readGap least {} with
      | none => none
      | some (gap, d) =>
        if gap.blanks.isEmpty && gap.breaks.isEmpty || !flow && d.column < least then
          some (text, !gap.breaks.isEmpty, d)
        else if d.rest.length < c.rest.length then readPlain flow least text gap d
        else none
termination_by c.rest.length

/-! ## Quoted scalars -/

def escaped? : Char → Option Char
  | '0' => some (Char.ofNat 0)
  | 'a' => some (Char.ofNat 7)
  | 'b' => some (Char.ofNat 8)
  | 't' => some '\t'
  | '\t' => some '\t'
  | 'n' => some '\n'
  | 'v' => some (Char.ofNat 11)
  | 'f' => some (Char.ofNat 12)
  | 'r' => some '\r'
  | 'e' => some (Char.ofNat 27)
  | ' ' => some ' '
  | '"' => some '"'
  | '/' => some '/'
  | '\\' => some '\\'
  | 'N' => some (Char.ofNat 0x85)
  | '_' => some (Char.ofNat 0xA0)
  | 'L' => some (Char.ofNat 0x2028)
  | 'P' => some (Char.ofNat 0x2029)
  | _ => none

def escapeDigits? : Char → Option Nat
  | 'x' => some 2
  | 'u' => some 4
  | 'U' => some 8
  | _ => none

def codePoint? (digits : List Char) : Option Char :=
  (Number.ofDigitsIn? 16 digits).bind fun n => if h : n.isValidChar then some (Char.ofNatAux n h) else none

def readEscape : List Char → Option (Char × Nat)
  | [] => none
  | e :: cs =>
    match escapeDigits? e with
    | some n => if cs.length < n then none else (codePoint? (cs.take n)).map (·, n + 1)
    | none => (escaped? e).map (·, 1)

/-- A line break after a backslash is dropped with the blanks around it. -/
def readQuoted (quote : Char) (text : List Char) (c : Cursor) : Option (List Char × Cursor) :=
  if c.atDocumentMark then none
  else
    match c.rest with
    | [] => none
    | ch :: cs =>
      let next (text : List Char) (d : Cursor) :=
        if d.rest.length < c.rest.length then readQuoted quote text d else none
      if ch = quote then
        if quote = '\'' && cs.head? = some '\'' then next (text ++ ['\'']) (c.advance 2)
        else some (text, c.advance 1)
      else if ch = '\\' && quote = '"' then
        if cs.head?.any isBreak then
          match (c.advance 1).nextLine.readGap 0 {} with
          | some (gap, d) => next (text ++ gap.breaks) d
          | none => none
        else
          match readEscape cs with
          | some (e, n) => next (text ++ [e]) (c.advance (n + 1))
          | none => none
      else if isBlank ch || isBreak ch then
        match c.readGap 0 {} with
        | some (gap, d) => next (text ++ gap.folded) d
        | none => none
      else next (text ++ [ch]) (c.advance 1)
termination_by c.rest.length

/-! ## Block scalars -/

inductive Chomping where
  | strip
  | clip
  | keep
deriving DecidableEq

structure BlockHeader where
  chomping : Chomping := .clip
  increment : Nat := 0

def chomping? : Char → Option Chomping
  | '-' => some .strip
  | '+' => some .keep
  | _ => none

def increment? (c : Char) : Option Nat :=
  if c.isDigit && c ≠ '0' then some (Number.digitValue c) else none

/-- A zero is left over, which the end of the line then refuses. -/
def readBlockHeader (cs : List Char) : BlockHeader × Nat :=
  match cs with
  | [] => ({}, 0)
  | a :: cs =>
    match chomping? a, increment? a with
    | some chomping, _ =>
      match cs.head?.bind increment? with
      | some increment => ({ chomping, increment }, 2)
      | none => ({ chomping }, 1)
    | none, some increment =>
      match cs.head?.bind chomping? with
      | some chomping => ({ chomping, increment }, 2)
      | none => ({ increment }, 1)
    | none, none => ({}, 0)

def finishLine (c : Cursor) : Option Cursor :=
  let c := c.skipWhile isBlank
  let c := if c.peek? = some '#' then c.skipWhile (!isBreak ·) else c
  if c.rest.isEmpty then some c
  else if c.atBreak then some c.nextLine
  else none

/-- Spaces count up to the indentation if that is known, which 0 says it is not; a tab in their place is refused. -/
def readEmptyLines (indent widest : Nat) (breaks : List Char) (c : Cursor) :
    Option (List Char × Nat × Cursor) :=
  let spaces := (c.rest.takeWhile (· = ' ')).length
  let d := c.advance (if indent = 0 then spaces else min spaces (indent - c.column))
  let widest := max widest d.column
  if (indent = 0 || d.column < indent) && d.peek? = some '\t' then none
  else
    match d.peek? with
    | some ch =>
      if isBreak ch then
        if d.nextLine.rest.length < c.rest.length then
          readEmptyLines indent widest (breaks ++ [Cursor.breakChar ch]) d.nextLine
        else none
      else some (breaks, widest, d)
    | none => some (breaks, widest, d)
termination_by c.rest.length

def readBreak (c : Cursor) : List Char × Cursor :=
  match c.peek? with
  | some ch => if isBreak ch then ([Cursor.breakChar ch], c.nextLine) else ([], c)
  | none => ([], c)

structure BlockText where
  text : List Char := []
  lineBreak : List Char := []
  emptyLines : List Char := []
  blank : Bool := false

/-- A folded scalar joins two lines of which neither begins with a blank. -/
def BlockText.addLine (folded : Bool) (line : List Char) (b : BlockText) : BlockText :=
  let blank := line.head?.any isBlank
  let join :=
    if folded && b.lineBreak = ['\n'] && !b.blank && !blank then
      if b.emptyLines.isEmpty then [' '] else b.emptyLines
    else b.lineBreak ++ b.emptyLines
  { text := b.text ++ join ++ line, blank }

def BlockText.chomped (how : Chomping) (b : BlockText) : List Char :=
  match how with
  | .strip => b.text
  | .clip => b.text ++ b.lineBreak
  | .keep => b.text ++ b.lineBreak ++ b.emptyLines

def readBlockLines (folded : Bool) (indent : Nat) (b : BlockText) (c : Cursor) :
    Option (BlockText × Cursor) :=
  if c.column = indent && !c.rest.isEmpty then
    let line := c.rest.takeWhile (!isBreak ·)
    let (lineBreak, d) := readBreak (c.advance line.length)
    match readEmptyLines indent 0 [] d with
    | none => none
    | some (emptyLines, _, e) =>
      if e.rest.length < c.rest.length then
        readBlockLines folded indent { b.addLine folded line with lineBreak, emptyLines } e
      else none
  else some (b, c)
termination_by c.rest.length

/-- `parent` is the indentation around the scalar, -1 at the top. -/
def readBlock (folded : Bool) (parent : Int) (c : Cursor) : Option (List Char × Cursor) := do
  let (header, n) := readBlockHeader (c.rest.drop 1)
  let c ← finishLine (c.advance (n + 1))
  let stated := if header.increment = 0 then 0 else (max parent 0).toNat + header.increment
  let (emptyLines, widest, c) ← readEmptyLines stated 0 [] c
  let indent := if stated = 0 then max widest (max (parent + 1).toNat 1) else stated
  let (b, c) ← readBlockLines folded indent { emptyLines } c
  return (b.chomped header.chomping, c)

end TriGraph.Yaml
