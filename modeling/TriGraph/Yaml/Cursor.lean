/-!
# Places in a YAML text

A cursor is the rest of a text with its place. Carriage return, line feed, next line and the two separators of Unicode
end a line; the first two together end one line.
-/

namespace TriGraph.Yaml

/-! ## Characters -/

def isBreak (c : Char) : Bool :=
  c = '\n' || c = '\r' || c.toNat = 0x85 || c.toNat = 0x2028 || c.toNat = 0x2029

def isBlank (c : Char) : Bool :=
  c = ' ' || c = '\t'

def isAllowed (c : Char) : Bool :=
  let n := c.toNat
  isBreak c || isBlank c || (0x20 ≤ n && n ≤ 0x7E) || (0xA0 ≤ n && n ≤ 0xD7FF)
    || (0xE000 ≤ n && n ≤ 0xFFFD) || 0x10000 ≤ n

def endsWord : List Char → Bool
  | [] => true
  | c :: _ => isBlank c || isBreak c

/-! ## Cursors -/

structure Cursor where
  rest : List Char
  index : Nat := 0
  line : Nat := 0
  column : Nat := 0

namespace Cursor

def peek? (c : Cursor) : Option Char :=
  c.rest.head?

def byteCount (cs : List Char) : Nat :=
  cs.foldl (fun n c => n + c.utf8Size) 0

def advance (n : Nat) (c : Cursor) : Cursor :=
  { c with rest := c.rest.drop n, index := c.index + byteCount (c.rest.take n), column := c.column + n }

def skipWhile (p : Char → Bool) (c : Cursor) : Cursor :=
  c.advance (c.rest.takeWhile p).length

def atBreak (c : Cursor) : Bool :=
  c.peek?.any isBreak

def breakLength : List Char → Nat
  | '\r' :: '\n' :: _ => 2
  | _ => 1

def nextLine (c : Cursor) : Cursor :=
  let n := breakLength c.rest
  { rest := c.rest.drop n, index := c.index + byteCount (c.rest.take n), line := c.line + 1,
    column := 0 }

/-- The Unicode separators are kept, all others are one line feed. -/
def breakChar (c : Char) : Char :=
  if c.toNat = 0x2028 || c.toNat = 0x2029 then c else '\n'

def startsLineWith (mark : List Char) (c : Cursor) : Bool :=
  c.column = 0 && mark.isPrefixOf c.rest && endsWord (c.rest.drop mark.length)

def atDocumentStart (c : Cursor) : Bool :=
  c.startsLineWith ['-', '-', '-']

def atDocumentEnd (c : Cursor) : Bool :=
  c.startsLineWith ['.', '.', '.']

def atDocumentMark (c : Cursor) : Bool :=
  c.atDocumentStart || c.atDocumentEnd

/-! ## Progress -/

theorem length_advance_lt {c : Cursor} {n : Nat} (hn : 0 < n) (hc : c.rest ≠ []) :
    (c.advance n).rest.length < c.rest.length := by
  have : 0 < c.rest.length := List.length_pos_iff.mpr hc
  simp only [advance, List.length_drop]
  omega

theorem breakLength_pos (cs : List Char) : 0 < breakLength cs := by
  unfold breakLength
  split <;> omega

theorem length_nextLine_lt {c : Cursor} (hc : c.rest ≠ []) :
    c.nextLine.rest.length < c.rest.length := by
  have : 0 < c.rest.length := List.length_pos_iff.mpr hc
  have := breakLength_pos c.rest
  simp only [nextLine, List.length_drop]
  omega

/-! ## Gaps -/

structure Gap where
  blanks : List Char := []
  breaks : List Char := []

/-- A single break becomes a space, and of several ones the first is dropped unless it is a separator. -/
def Gap.folded (g : Gap) : List Char :=
  match g.breaks with
  | [] => g.blanks
  | '\n' :: [] => [' ']
  | '\n' :: more => more
  | breaks => breaks

/-- Blanks after a break are dropped; a tab among them is refused before the given column. -/
def readGap (least : Nat) (g : Gap) (c : Cursor) : Option (Gap × Cursor) :=
  match _h : c.rest with
  | [] => some (g, c)
  | ch :: _ =>
    if isBlank ch then
      if g.breaks.isEmpty then readGap least { g with blanks := g.blanks ++ [ch] } (c.advance 1)
      else if ch = '\t' && c.column < least then none
      else readGap least g (c.advance 1)
    else if isBreak ch then
      readGap least { blanks := [], breaks := g.breaks ++ [breakChar ch] } c.nextLine
    else some (g, c)
termination_by c.rest.length
decreasing_by
  · exact length_advance_lt (by decide) (by simp [_h])
  · exact length_advance_lt (by decide) (by simp [_h])
  · exact length_nextLine_lt (by simp [_h])

end Cursor

end TriGraph.Yaml
