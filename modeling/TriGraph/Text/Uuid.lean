/-!
# Version 4 identifiers

A version 4 identifier has the version and the variant at fixed places. The digits around these are those of a number,
which its maker has to draw so that it does not come again.
-/

namespace TriGraph.Text.Uuid

def digitAt (n place : Nat) : Nat :=
  n / Nat.pow 16 place % 16

def digit (n place : Nat) : Nat :=
  if place = 12 then 4
  else if place = 16 then 8 + digitAt n 15 % 4
  else digitAt n (31 - place)

def groupStarts : List Nat :=
  [8, 12, 16, 20]

def ofNumber (n : Nat) : String :=
  String.ofList ((List.range 32).flatMap fun place =>
    let d := Nat.digitChar (digit n place)
    if groupStarts.contains place then ['-', d] else [d])

/-! ## Recognition -/

def isLowerHex (c : Char) : Bool :=
  c.isDigit || ('a' ≤ c && c ≤ 'f')

def isForm (cs : List Char) : Bool :=
  cs.length = 36 && cs.zipIdx.all fun (c, i) =>
    if [8, 13, 18, 23].contains i then c = '-' else if i = 14 then c = '4' else isLowerHex c

end TriGraph.Text.Uuid
