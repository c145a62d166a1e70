import TriGraph.Document
import TriGraph.Number.Reading

/-!
# Documents from JSON text

Each reader gives what it has read with the rest of the characters, and goes on only with a shorter rest.

A number beyond the floats and half a surrogate pair are well formed but stand for nothing. They are read as NaN,
which no JSON text can write: `read` refuses them, while a reader of records may skip them.
-/

namespace TriGraph.Json

/-! ## Blanks and literals -/

def isSpace (c : Char) : Bool :=
  c = ' ' || c = '\n' || c = '\t' || c = '\r'

def skipSpace (cs : List Char) : List Char :=
  cs.dropWhile isSpace

def after? : List Char → List Char → Option (List Char)
  | [], cs => some cs
  | w :: ws, c :: cs => if w = c then after? ws cs else none
  | _ :: _, [] => none

/-! ## Strings -/

def escaped? : Char → Option Char
  | '"' => some '"'
  | '\\' => some '\\'
  | '/' => some '/'
  | 'b' => some (Char.ofNat 8)
  | 'f' => some (Char.ofNat 12)
  | 'n' => some '\n'
  | 'r' => some '\r'
  | 't' => some '\t'
  | _ => none

def isHighSurrogate (n : Nat) : Bool :=
  0xD800 ≤ n && n < 0xDC00

def isLowSurrogate (n : Nat) : Bool :=
  0xDC00 ≤ n && n < 0xE000

def readString : List Char → Option (List Nat × List Char)
  | [] => none
  | '"' :: cs => some ([], cs)
  | '\\' :: 'u' :: a :: b :: c :: d :: cs =>
    match Number.ofDigitsIn? 16 [a, b, c, d] with
    | some n => (readString cs).map fun (s, r) => (n :: s, r)
    | none => none
  | '\\' :: c :: cs =>
    match escaped? c with
    | some e => (readString cs).map fun (s, r) => (e.toNat :: s, r)
    | none => none
  | c :: cs => if c.toNat < 32 then none else (readString cs).map fun (s, r) => (c.toNat :: s, r)

def characters? : List Nat → Option (List Char)
  | [] => some []
  | n :: ns =>
    if isHighSurrogate n then
      match ns with
      | low :: ns =>
        if isLowSurrogate low then
          let c := Char.ofNat (0x10000 + (n - 0xD800) * 0x400 + (low - 0xDC00))
          (characters? ns).map (c :: ·)
        else none
      | [] => none
    else if isLowSurrogate n then none
    else (characters? ns).map (Char.ofNat n :: ·)

def text? (units : List Nat) : Option String :=
  (characters? units).map String.ofList

/-! ## Numbers -/

structure Numeral where
  negative : Bool
  whole : List Char
  fraction : List Char
  exponent : Int
  plain : Bool

def readSign (cs : List Char) : Bool × List Char :=
  match cs with
  | '-' :: r => (true, r)
  | r => (false, r)

def readFraction (cs : List Char) : Option (List Char × List Char) :=
  match cs with
  | '.' :: r =>
    let ds := r.takeWhile Char.isDigit
    if ds.isEmpty then none else some (ds, r.dropWhile Char.isDigit)
  | r => some ([], r)

def readExponent (cs : List Char) : Option (Option Int × List Char) :=
  match cs with
  | c :: r =>
    if c = 'e' ∨ c = 'E' then
      let (negative, r) := match r with
        | '-' :: r => (true, r)
        | '+' :: r => (false, r)
        | r => (false, r)
      let ds := r.takeWhile Char.isDigit
      let e : Int := Number.ofDigits ds
      if ds.isEmpty then none
      else some (some (if negative then -e else e), r.dropWhile Char.isDigit)
    else some (none, c :: r)
  | [] => some (none, [])

def readNumeral (cs : List Char) : Option (Numeral × List Char) :=
  let (negative, r) := readSign cs
  let whole := r.takeWhile Char.isDigit
  if whole.isEmpty || (whole.head? == some '0' && whole.length > 1) then none
  else
    (readFraction (r.dropWhile Char.isDigit)).bind fun (fraction, r) =>
      (readExponent r).map fun (exponent, r) =>
        (⟨negative, whole, fraction, exponent.getD 0, fraction.isEmpty && exponent.isNone⟩, r)

namespace Numeral

/-- Digits beyond 64 bits are dropped; those of the whole part raise the exponent. -/
def float? (n : Numeral) : Option Float :=
  let (m, extra) := Number.fitDigits 0 n.whole
  let (m, dropped) := Number.fitDigits m n.fraction
  let e := n.exponent + extra.length - (n.fraction.length - dropped.length : Nat)
  (Number.scaled (Number.nearest m 0) e).map fun x => if n.negative then -x else x

/-- A negative zero is a float, as no integer has its sign. -/
def toDocument? (n : Numeral) : Option Document :=
  let m := Number.ofDigits n.whole
  if n.plain && !n.negative && decide (m ≤ Number.maxWord) then some (.int m)
  else if n.plain && n.negative && 0 < m && Number.fitsInt64 (-m) then some (.int (-m))
  else n.float?.map .float

end Numeral

/-! ## Values -/

def meaningless : Document :=
  .float (0.0 / 0.0)

mutual
def isMeaningful : Document → Bool
  | .float x => !Number.isNaN x
  | .list items => itemsMeaningful items
  | .object fields => fieldsMeaningful fields
  | _ => true
def itemsMeaningful : List Document → Bool
  | [] => true
  | d :: ds => isMeaningful d && itemsMeaningful ds
def fieldsMeaningful : List (String × Document) → Bool
  | [] => true
  | (_, d) :: fs => isMeaningful d && fieldsMeaningful fs
end

def object (fields : List (Option String × Document)) : Document :=
  match fields.mapM fun (name, d) => name.map (·, d) with
  | some fields => .object fields
  | none => meaningless

mutual
def readValue (cs : List Char) : Option (Document × List Char) :=
  match skipSpace cs with
  | [] => none
  | c :: r =>
    match c with
    | '"' => (readString r).map fun (s, t) => (((text? s).map .text).getD meaningless, t)
    | 'n' => (after? ['u', 'l', 'l'] r).map fun t => (.null, t)
    | 't' => (after? ['r', 'u', 'e'] r).map fun t => (.bool true, t)
    | 'f' => (after? ['a', 'l', 's', 'e'] r).map fun t => (.bool false, t)
    | '[' =>
      match skipSpace r with
      | ']' :: t => some (.list [], t)
      | r => if r.length < cs.length then (readItems r).map fun (ds, t) => (.list ds, t) else none
    | '{' =>
      match skipSpace r with
      | '}' :: t => some (.object [], t)
      | r => if r.length < cs.length then (readFields r).map fun (fs, t) => (object fs, t) else none
    | _ => (readNumeral (c :: r)).map fun (n, t) => (n.toDocument?.getD meaningless, t)
termination_by (cs.length, 0)
def readItems (cs : List Char) : Option (List Document × List Char) :=
  match readValue cs with
  | none => none
  | some (d, r) =>
    match skipSpace r with
    | ']' :: t => some ([d], t)
    | ',' :: t => if t.length < cs.length then (readItems t).map fun (ds, t) => (d :: ds, t) else none
    | _ => none
termination_by (cs.length, 1)
def readFields (cs : List Char) : Option (List (Option String × Document) × List Char) :=
  match skipSpace cs with
  | '"' :: r =>
    match readString r with
    | none => none
    | some (k, r) =>
      match skipSpace r with
      | ':' :: r =>
        if r.length < cs.length then
          match readValue r with
          | none => none
          | some (d, r) =>
            match skipSpace r with
            | '}' :: t => some ([(text? k, d)], t)
            | ',' :: t =>
              if t.length < cs.length then
                (readFields t).map fun (fs, t) => ((text? k, d) :: fs, t)
              else none
            | _ => none
        else none
      | _ => none
  | _ => none
termination_by (cs.length, 1)
end

def readLoosely (s : String) : Option Document :=
  match readValue s.toList with
  | some (d, r) => if (skipSpace r).isEmpty then some d else none
  | none => none

def read (s : String) : Option Document :=
  (readLoosely s).filter isMeaningful

end TriGraph.Json
