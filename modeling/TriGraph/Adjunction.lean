import TriGraph.Graphs

/-!
# Adjunctions

An adjunction maps nodes of one layer to nodes of another and back. What an adjoint has answered is kept in a memo
until that is cleared, whatever happens to the graphs; that it found nothing is not kept.
-/

namespace TriGraph

inductive Adjoint where
  | left
  | right
deriving DecidableEq, Repr

namespace Adjoint

def name : Adjoint → String
  | .left => "left"
  | .right => "right"

def ofName? : String → Option Adjoint
  | "left" => some .left
  | "right" => some .right
  | _ => none

def parse (s : String) : Except String Adjoint :=
  match ofName? s.toLower with
  | some a => .ok a
  | none => .error ("unknown adjoint direction: " ++ s.toLower)

end Adjoint

abbrev Mapping := Graphs → Node → Option String

structure Adjunction where
  name : String
  source : Layer
  target : Layer
  left : Mapping
  right : Mapping

namespace Adjunction

def start (a : Adjunction) : Adjoint → Layer
  | .left => a.source
  | .right => a.target

def finish (a : Adjunction) : Adjoint → Layer
  | .left => a.target
  | .right => a.source

def mapping (a : Adjunction) : Adjoint → Mapping
  | .left => a.left
  | .right => a.right

def value (a : Adjunction) (side : Adjoint) (g : Graphs) (id : String) : Option String :=
  ((g.store (a.start side)).node? id).bind (a.mapping side g)

end Adjunction

/-! ## Memos -/

/-- What a memo entry is about. -/
structure Recollection where
  adjunction : String
  side : Adjoint
  id : String
deriving DecidableEq, Repr

abbrev Memo := List (Recollection × String)

namespace Memo

def remembered? (r : Recollection) : Memo → Option String
  | [] => none
  | (q, x) :: m => if q = r then some x else remembered? r m

def count (adjunction : String) (side : Adjoint) (m : Memo) : Nat :=
  (m.filter fun e => e.1.adjunction == adjunction && e.1.side == side).length

def forget (adjunction : String) (m : Memo) : Memo :=
  m.filter fun e => e.1.adjunction != adjunction

end Memo

namespace Adjunction

def apply (a : Adjunction) (side : Adjoint) (g : Graphs) (id : String) (m : Memo) :
    Option String × Memo :=
  let r : Recollection := ⟨a.name, side, id⟩
  match m.remembered? r with
  | some x => (some x, m)
  | none =>
    match a.value side g id with
    | some x => (some x, (r, x) :: m)
    | none => (none, m)

end Adjunction

end TriGraph
