import TriGraph.Index
import TriGraph.Knowledge.Traversal

/-!
# Notices

A notice tells of one event while a request is served. Only a verbose run tells of single writes and steps.
-/

namespace TriGraph

namespace Notice

inductive Level where
  | debug
  | info
  | warning
deriving DecidableEq

end Notice

structure Notice where
  level : Notice.Level
  message : String
  fields : List (String × String) := []

namespace Notice

/-! ## Levels -/

def Level.name : Level → String
  | .debug => "DEBUG"
  | .info => "INFO"
  | .warning => "WARN"

def Level.isTold (verbose : Bool) (l : Level) : Bool :=
  verbose || l ≠ .debug

/-! ## Text -/

def styled (style : Nat) (s : String) : String :=
  "\x1b[" ++ toString style ++ "m" ++ s ++ "\x1b[0m"

def italic : Nat := 3
def dimmed : Nat := 2

def fieldText (f : String × String) : String :=
  styled italic f.1 ++ styled dimmed "=" ++ f.2

def text (n : Notice) : String :=
  String.intercalate " " (styled dimmed n.level.name :: n.message :: n.fields.map fieldText)

/-! ## Writes -/

def storeName (l : Layer) : String :=
  (({} : Graphs).store l).name

def nodeAdded (l : Layer) (n : Node) : Notice :=
  { level := .debug, message := "add node",
    fields := [("store", storeName l), ("node", n.id), ("node_type", n.type)] }

def edgeAdded (l : Layer) (e : Edge) : Notice :=
  { level := .debug, message := "add edge",
    fields := [("store", storeName l), ("edge", e.id), ("edge_type", e.type)] }

def indexCreated (l : Layer) (name : String) (kind : Index.Kind) : Notice :=
  { level := .debug, message := "create index",
    fields := [("store", storeName l), ("index", name),
      ("kind", match kind with
        | .hash => "Hash"
        | .ordered => "Ordered")] }

def registered (trinity : String) (a : Adjunction) : Notice :=
  { level := .debug, message := "register adjunction",
    fields := [("trinity", trinity), ("adjunction", "\"" ++ a.name ++ "\""),
      ("source", a.source.name), ("target", a.target.name)] }

/-! ## Seeds -/

def startsEmpty : Notice :=
  { level := .info, message := "no seed document found, starting empty" }

def seedRead (path : String) : Notice :=
  { level := .info, message := "loading seed", fields := [("path", path)] }

/-! ## Walks -/

def walkAborted (e : Knowledge.Error) : Notice :=
  { level := .warning, message := "traversal aborted", fields := [("error", e.message)] }

def walkStopped (s : TraversalStep) (id : String) : Notice :=
  { level := .debug, message := "no mapping, traversal stopped",
    fields := [("adjunction", s.adjunction), ("direction", s.side.name), ("from", id)] }

def ofWalk (plan : List TraversalStep) (walk : List Waypoint) : List Notice :=
  match walk.getLast?, plan.drop (walk.length - 1) with
  | some w, s :: _ => [walkStopped s w.id]
  | _, _ => []

end Notice

end TriGraph
