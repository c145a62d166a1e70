import TriGraph.Index.Path

/-!
# Indexes

An index keeps for each key the ids of the entities that have it under one of the index's paths, keys and ids in order
and no bucket empty. An ordered index also remembers every key it has ever seen; ranges pass over those without a
bucket.
-/

namespace TriGraph

namespace Index

/-! ## Buckets -/

abbrev Buckets := Catalog Key (List String)

namespace Buckets

def ids (k : Key) (b : Buckets) : List String :=
  (Catalog.get? k b).getD []

def add (k : Key) (id : String) (b : Buckets) : Buckets :=
  Catalog.insert k (OrderedSet.insert id (b.ids k)) b

def remove (id : String) (b : Buckets) : Buckets :=
  (b.map fun (k, ids) => (k, ids.filter (· != id))).filter fun (_, ids) => !ids.isEmpty

end Buckets

end Index

structure Index where
  kind : Index.Kind
  target : EntityKind
  paths : List Index.Path
  buckets : Index.Buckets := []
  seen : List Index.Key := []

namespace Index

/-! ## Upkeep -/

def new (kind : Kind) (target : EntityKind) (paths : List Path) : Index :=
  { kind, target, paths }

def build (kind : Kind) (paths : List String) : Except Error Index := do
  let (target, paths) ← Path.parseAll paths
  return new kind target paths

def keysOf (i : Index) (e : Entity) : List Key :=
  if e.kind = i.target then i.paths.filterMap (·.key? e) else []

def add (i : Index) (e : Entity) : Index :=
  let ks := i.keysOf e
  { i with
    buckets := ks.foldl (fun b k => b.add k e.id) i.buckets
    seen := match i.kind with
      | .hash => i.seen
      | .ordered => ks.foldl (fun s k => OrderedSet.insert k s) i.seen }

def remove (i : Index) (e : Entity) : Index :=
  if e.kind = i.target then { i with buckets := i.buckets.remove e.id } else i

def rebuilt (i : Index) (es : List Entity) : Index :=
  es.foldl add (new i.kind i.target i.paths)

/-! ## Snapshots -/

structure Snapshot where
  nodes : Buckets
  edges : Buckets

def snapshot (i : Index) : Snapshot :=
  let kept := i.buckets.filter fun (_, ids) => !ids.isEmpty
  match i.target with
  | .nodes => { nodes := kept, edges := [] }
  | .edges => { nodes := [], edges := kept }

/-! ## Look-up -/

def lookup (i : Index) (kind : EntityKind) (k : Key) : List String :=
  if kind = i.target then i.buckets.ids k else []

def keysBetween (i : Index) (lo hi : Key) : List Key :=
  (i.seen.dropWhile fun k => Key.order k lo == .lt).takeWhile fun k => Key.order k hi != .gt

def distinct (ids : List String) : List String :=
  ids.foldl (fun seen id => if seen.contains id then seen else seen ++ [id]) []

/-- Nothing if the index is not ordered. -/
def range? (i : Index) (kind : EntityKind) (lo hi : Key) : Option (List String) :=
  match i.kind with
  | .hash => none
  | .ordered => some (distinct ((i.keysBetween lo hi).flatMap (i.lookup kind)))

end Index

end TriGraph
