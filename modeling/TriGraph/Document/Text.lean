import TriGraph.Document
import TriGraph.Number.Layout

/-!
# Documents as JSON text

JSON has no NaN and no infinities: they are written as null.
-/

namespace TriGraph.Document

/-! ## Leaves -/

def escape? (c : Char) : Option (List Char) :=
  if c = '"' then some ['\\', '"']
  else if c = '\\' then some ['\\', '\\']
  else if c = '\n' then some ['\\', 'n']
  else if c = '\r' then some ['\\', 'r']
  else if c = '\t' then some ['\\', 't']
  else if c.toNat = 8 then some ['\\', 'b']
  else if c.toNat = 12 then some ['\\', 'f']
  else if c.toNat < 32 then
    some ['\\', 'u', '0', '0', Nat.digitChar (c.toNat / 16), Nat.digitChar (c.toNat % 16)]
  else none

def quoted (s : String) : List Char :=
  '"' :: s.toList.flatMap (fun c => (escape? c).getD [c]) ++ ['"']

def floatText (x : Float) : List Char :=
  if Number.isFinite x then (Number.text .document x).toList else "null".toList

/-! ## Compact text -/

mutual
def compactChars : Document → List Char
  | .null => "null".toList
  | .bool b => (if b then "true" else "false").toList
  | .int n => (toString n).toList
  | .float x => floatText x
  | .text s => quoted s
  | .list items => '[' :: compactItems items ++ [']']
  | .object fields => '{' :: compactFields fields ++ ['}']
def compactItems : List Document → List Char
  | [] => []
  | [d] => d.compactChars
  | d :: ds => d.compactChars ++ ',' :: compactItems ds
def compactFields : List (String × Document) → List Char
  | [] => []
  | [(k, d)] => quoted k ++ ':' :: d.compactChars
  | (k, d) :: fs => quoted k ++ ':' :: d.compactChars ++ ',' :: compactFields fs
end

def compact (d : Document) : String :=
  String.ofList d.compactChars

/-! ## Indented text -/

def newline (level : Nat) : List Char :=
  '\n' :: List.replicate (2 * level) ' '

mutual
def prettyChars (level : Nat) : Document → List Char
  | .list [] => ['[', ']']
  | .object [] => ['{', '}']
  | .list items => '[' :: prettyItems (level + 1) items ++ newline level ++ [']']
  | .object fields => '{' :: prettyFields (level + 1) fields ++ newline level ++ ['}']
  | .null => "null".toList
  | .bool b => (if b then "true" else "false").toList
  | .int n => (toString n).toList
  | .float x => floatText x
  | .text s => quoted s
def prettyItems (level : Nat) : List Document → List Char
  | [] => []
  | [d] => newline level ++ d.prettyChars level
  | d :: ds => newline level ++ d.prettyChars level ++ ',' :: prettyItems level ds
def prettyFields (level : Nat) : List (String × Document) → List Char
  | [] => []
  | [(k, d)] => newline level ++ quoted k ++ [':', ' '] ++ d.prettyChars level
  | (k, d) :: fs =>
    newline level ++ quoted k ++ [':', ' '] ++ d.prettyChars level ++ ',' :: prettyFields level fs
end

def pretty (d : Document) : String :=
  String.ofList (d.prettyChars 0)

end TriGraph.Document
